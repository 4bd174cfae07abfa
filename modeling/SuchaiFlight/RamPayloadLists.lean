import SuchaiFlight.Library.Runs
import SuchaiFlight.RamSamples

/-!
The RAM payload store is one list of samples for each payload: an addition
appends, a deletion empties, and the reads see the lists.
-/
namespace RamPayloadLists
open StorageApi RepoData StatusVariables PayloadData PayloadCalls RamStorage RamFlightPlan
open RamPayload RamSamples Runs

abbrev Lists := Nat → List (List UInt8)

def listsAfter (m : PayloadMap) (lists : Lists) : PayloadCall → Lists
  | .add data p => Function.update lists p (lists p ++ [data.take (m.size p)])
  | .delete p => Function.update lists p []
  | .deleteMemorySections => fun _ => []
  | .resetStatusVars => lists

def Legal (m : PayloadMap) : PayloadCall → Prop
  | .add data p => p < m.lastSensor ∧ m.size p ≤ data.length
  | .delete p => p < m.lastSensor
  | .deleteMemorySections => True
  | .resetStatusVars => False

def InRoom (m : PayloadMap) (lists : Lists) : PayloadCall → Prop
  | .add _ p => HasRoom m.toDataMap p (lists p).length
  | _ => True

def Within (m : PayloadMap) : Lists → List PayloadCall → Prop
  | _, [] => True
  | lists, call :: rest =>
    Legal m call ∧ InRoom m lists call ∧ Within m (listsAfter m lists call) rest

def LongEnough : PayloadCall → Prop
  | .add data _ => 4 ≤ data.length
  | _ => True

def listStep (c : Config) (m : PayloadMap) (st : RamStore × Lists) (call : PayloadCall) :
    Option (RamStore × Lists) :=
  (stepPayload (ramPayloadTables c) c m st.1 call).map fun r => (r.2, listsAfter m st.2 call)

def repoInit (c : Config) (lastSensor : Nat) : Option RamStore :=
  if schSizePerSection * schSectionsPerPayload * lastSensor ≤ 2147483647 then
    datRepoInit c lastSensor
  else none

structure ReadsAs (c : Config) (m : PayloadMap) (s : RamStore) (lists : Lists) : Prop where
  get : ∀ p < m.lastSensor, ∀ i (bound : i < (lists p).length),
    datGetPayloadSample (ramPayloadTables c) m s p (Int32.ofNat i) = some (.ok (lists p)[i])
  recent : ∀ p < m.lastSensor, ∀ i (bound : i < (lists p).length),
    datGetRecentPayloadSample (ramPayloadStorage c) c m.toDataMap s p
      ((lists p).length - 1 - i : Int) = some (.ok (lists p)[i])
  tooLarge : ∀ p < m.lastSensor, ∀ offset : Int, (lists p).length ≤ offset →
    datGetRecentPayloadSample (ramPayloadStorage c) c m.toDataMap s p offset = some (.error (-1))

structure Untouched (c : Config) (m : PayloadMap) (p : Nat) (s s' : RamStore) : Prop where
  samples : ∀ q < m.lastSensor, q ≠ p → ∀ i, HasRoom m.toDataMap q i →
    datGetPayloadSample (ramPayloadTables c) m s' q (Int32.ofNat i) =
      datGetPayloadSample (ramPayloadTables c) m s q (Int32.ofNat i)
  index : ∀ q < m.lastSensor, q ≠ p →
    datGetSystemVar (ramStorage c) c s' (m.sysIndex q) =
      datGetSystemVar (ramStorage c) c s (m.sysIndex q)
  ack : ∀ q < m.lastSensor, q ≠ p →
    datGetSystemVar (ramStorage c) c s' (m.sysAck q) =
      datGetSystemVar (ramStorage c) c s (m.sysAck q)

def payloadOf : PayloadCall → Option Nat
  | .add _ p => some p
  | .delete p => some p
  | _ => none

def CallExact (c : Config) (m : PayloadMap) (st : RamStore × Lists) (call : PayloadCall) : Prop :=
  ∃ rc s', stepPayload (ramPayloadTables c) c m st.1 call = some (rc, s') ∧
    ReadsAs c m s' (listsAfter m st.2 call) ∧
    ∀ p, payloadOf call = some p → rc = schStOk ∧ Untouched c m p st.1 s'

def Represented (c : Config) (m : PayloadMap) (st : RamStore × Lists) : Prop :=
  ∃ cells, Samples c m st.1 (fun p => (st.2 p).length) cells ∧
    ∀ p < m.lastSensor, (∀ i < (st.2 p).length, HasRoom m.toDataMap p i) ∧
      ∀ i (bound : i < (st.2 p).length), cells p i = (st.2 p)[i]

variable {c : Config} {m : PayloadMap} {s : RamStore} {lists : Lists}

theorem Represented.reads (schema : Schema c m) (rep : Represented c m (s, lists)) :
    ReadsAs c m s lists := by
  obtain ⟨cells, samples, held⟩ := rep
  have small : ∀ p < m.lastSensor, (lists p).length < 2147483648 := by
    intro p known
    cases size : (lists p).length with
    | zero => omega
    | succ n =>
      have last := room_lt ((held p known).1 n (by simp only [size]; omega))
      omega
  have read : ∀ p < m.lastSensor, datGetSystemVar (ramPayloadStorage c).toStorage c s
      (m.sysIndex p) = some (Int32.ofNat (lists p).length) :=
    fun p known => index_samples schema samples known
  have get : ∀ p < m.lastSensor, ∀ i (bound : i < (lists p).length),
      datGetPayloadSample (ramPayloadTables c) m s p (Int32.ofNat i) =
        some (.ok (lists p)[i]) := by
    intro p known i bound
    rw [read_samples schema samples known ((held p known).1 i bound), (held p known).2 i bound]
  refine ⟨get, ?_, ?_⟩
  · intro p known i bound
    have count : (Int32.ofNat (lists p).length).toInt = (lists p).length :=
      Int32.toInt_ofNat_of_lt (small p known)
    have sum : ((lists p).length : Int) - 1 - ((lists p).length - 1 - i) = i := by omega
    have here := get p known i bound
    unfold datGetRecentPayloadSample
    simp only [read p known, Option.bind_eq_bind, Option.bind_some, count, sum,
      Int.natCast_nonneg, ↓reduceIte]
    exact here
  · intro p known offset large
    have count : (Int32.ofNat (lists p).length).toInt = (lists p).length :=
      Int32.toInt_ofNat_of_lt (small p known)
    have below : ¬ (0 : Int) ≤ (lists p).length - 1 - offset := by omega
    unfold datGetRecentPayloadSample
    simp only [read p known, Option.bind_eq_bind, Option.bind_some, count, below, ↓reduceIte]

theorem untouched_of (schema : Schema c m) {s' : RamStore} {index index' : Nat → Nat}
    {cells cells' : Nat → Nat → List UInt8} {p : Nat} (known : p < m.lastSensor)
    (samples : Samples c m s index cells) (samples' : Samples c m s' index' cells')
    (kept : ∀ q, q ≠ p → cells' q = cells q)
    (vote : ∀ j < c.datStatusLastAddress, j ≠ m.sysIndex p → j ≠ m.sysAck p →
      voted c (ramCell s') j = voted c (ramCell s) j) : Untouched c m p s s' where
  samples := by
    intro q known' other i room
    rw [read_samples schema samples' known' room, read_samples schema samples known' room,
      kept q other]
  index := by
    intro q known' other
    have bound := schema.index_lt q known'
    have index : m.sysIndex q ≠ m.sysIndex p :=
      fun eq => other (schema.indexes q known' p known eq)
    rw [datGetSystemVar_eq (ram_status c) samples'.ready bound,
      datGetSystemVar_eq (ram_status c) samples.ready bound,
      vote _ bound index (schema.apart q known' p known)]
  ack := by
    intro q known' other
    have bound := schema.ack_lt q known'
    have ack : m.sysAck q ≠ m.sysAck p := fun eq => other (schema.acks q known' p known eq)
    rw [datGetSystemVar_eq (ram_status c) samples'.ready bound,
      datGetSystemVar_eq (ram_status c) samples.ready bound,
      vote _ bound (schema.apart p known q known').symm ack]

theorem length_update (lists : Lists) (p : Nat) (list : List (List UInt8)) :
    (fun q => (Function.update lists p list q).length) =
      Function.update (fun q => (lists q).length) p list.length := by
  funext q
  by_cases own : q = p
  · subst own
    rw [Function.update_self, Function.update_self]
  · rw [Function.update_of_ne own, Function.update_of_ne own]

theorem add_exact (schema : Schema c m) (rep : Represented c m (s, lists)) {data : List UInt8}
    {p : Nat} (legal : Legal m (.add data p)) (room : InRoom m lists (.add data p))
    (long : 4 ≤ data.length) :
    ∃ s', stepPayload (ramPayloadTables c) c m s (.add data p) = some (schStOk, s') ∧
      Represented c m (s', listsAfter m lists (.add data p)) ∧ Untouched c m p s s' := by
  obtain ⟨cells, samples, held⟩ := rep
  obtain ⟨known, whole⟩ := legal
  obtain ⟨s', add, samples', vote⟩ := add_samples schema samples known room long whole
  refine ⟨s', add, ⟨Function.update cells p (Function.update (cells p) (lists p).length
    (data.take (m.size p))), ?_, ?_⟩, untouched_of schema known samples samples'
    (fun q other => Function.update_of_ne other _ _) fun j bound index _ => vote j bound index⟩
  · simp only [listsAfter, length_update, List.length_append, List.length_singleton]
    exact samples'
  · intro q known'
    by_cases own : q = p
    · subst own
      simp only [listsAfter, Function.update_self, List.length_append, List.length_singleton]
      refine ⟨fun i bound => ?_, fun i bound => ?_⟩
      · rcases Nat.lt_or_eq_of_le (Nat.le_of_lt_succ bound) with old | rfl
        · exact (held q known).1 i old
        · exact room
      · rcases Nat.lt_or_eq_of_le (Nat.le_of_lt_succ bound) with old | rfl
        · rw [Function.update_of_ne (by omega), List.getElem_append_left old,
            (held q known).2 i old]
        · rw [Function.update_self, List.getElem_concat_length rfl]
    · simp only [listsAfter, Function.update_of_ne own]
      exact held q known'

theorem delete_exact (schema : Schema c m) (rep : Represented c m (s, lists)) {p : Nat}
    (known : p < m.lastSensor) :
    ∃ s', stepPayload (ramPayloadTables c) c m s (.delete p) = some (schStOk, s') ∧
      Represented c m (s', listsAfter m lists (.delete p)) ∧ Untouched c m p s s' := by
  obtain ⟨cells, samples, held⟩ := rep
  obtain ⟨s', delete, samples', vote⟩ := delete_samples schema samples known
  refine ⟨s', delete, ⟨Function.update cells p fun _ => List.replicate (m.size p) 0, ?_, ?_⟩,
    untouched_of schema known samples samples' (fun q other => Function.update_of_ne other _ _)
      vote⟩
  · simp only [listsAfter, length_update, List.length_nil]
    exact samples'
  · intro q known'
    by_cases own : q = p
    · subst own
      simp [listsAfter]
    · simp only [listsAfter, Function.update_of_ne own]
      exact held q known'

theorem deleteMemorySections_exact (schema : Schema c m) (rep : Represented c m (s, lists)) :
    ∃ ret s', stepPayload (ramPayloadTables c) c m s .deleteMemorySections = some (ret, s') ∧
      Represented c m (s', listsAfter m lists .deleteMemorySections) := by
  obtain ⟨cells, samples, held⟩ := rep
  obtain ⟨ret, s', delete, samples'⟩ := deleteMemorySections_samples schema samples
  exact ⟨ret, s', delete, _, samples', fun p known => by simp [listsAfter]⟩

theorem call_exact_iff (schema : Schema c m) {st : RamStore × Lists} {call : PayloadCall}
    (rep : Represented c m st) (within : Legal m call ∧ InRoom m st.2 call) :
    CallExact c m st call ↔ LongEnough call := by
  obtain ⟨s, lists⟩ := st
  obtain ⟨legal, room⟩ := within
  cases call with
  | add data p =>
    constructor
    · rintro ⟨rc, s', step, -⟩
      by_contra short
      have no : ¬ (p < m.lastSensor ∧ 4 ≤ data.length ∧ m.size p ≤ data.length) :=
        fun all => short all.2.1
      rw [stepPayload, datAddPayloadSample, if_neg no] at step
      cases step
    · intro long
      obtain ⟨s', step, rep', untouched⟩ := add_exact schema rep legal room long
      refine ⟨schStOk, s', step, rep'.reads schema, fun q own => ?_⟩
      cases own
      exact ⟨rfl, untouched⟩
  | delete p =>
    refine iff_of_true ?_ trivial
    obtain ⟨s', step, rep', untouched⟩ := delete_exact schema rep legal
    refine ⟨schStOk, s', step, rep'.reads schema, fun q own => ?_⟩
    cases own
    exact ⟨rfl, untouched⟩
  | deleteMemorySections =>
    refine iff_of_true ?_ trivial
    obtain ⟨ret, s', step, rep'⟩ := deleteMemorySections_exact schema rep
    exact ⟨ret, s', step, rep'.reads schema, nofun⟩
  | resetStatusVars => exact legal.elim

theorem call_goes (schema : Schema c m) {st : RamStore × Lists} {call : PayloadCall}
    (rep : Represented c m st) (within : Legal m call ∧ InRoom m st.2 call)
    (exact_ : CallExact c m st call) :
    ∃ st', listStep c m st call = some st' ∧ Represented c m st' := by
  have long := (call_exact_iff schema rep within).mp exact_
  obtain ⟨s, lists⟩ := st
  obtain ⟨legal, room⟩ := within
  cases call with
  | add data p =>
    obtain ⟨s', step, rep', -⟩ := add_exact schema rep legal room long
    exact ⟨_, by rw [listStep, step]; rfl, rep'⟩
  | delete p =>
    obtain ⟨s', step, rep', -⟩ := delete_exact schema rep legal
    exact ⟨_, by rw [listStep, step]; rfl, rep'⟩
  | deleteMemorySections =>
    obtain ⟨ret, s', step, rep'⟩ := deleteMemorySections_exact schema rep
    exact ⟨_, by rw [listStep, step]; rfl, rep'⟩
  | resetStatusVars => exact legal.elim

theorem within_along {calls : List PayloadCall} {st : RamStore × Lists}
    (within : Within m st.2 calls) :
    Along (listStep c m) (fun st call => Legal m call ∧ InRoom m st.2 call) st calls := by
  induction calls generalizing st with
  | nil => exact along_nil _ _
  | cons call rest ih =>
    obtain ⟨legal, room, later⟩ := within
    refine along_cons.mpr ⟨⟨legal, room⟩, fun st' step => ih ?_⟩
    obtain ⟨r, -, rfl⟩ := Option.map_eq_some_iff.mp step
    exact later

/-! The start. -/

theorem datRepoInit_represented (schema : Schema c m) :
    ∃ s₀, datRepoInit c m.lastSensor = some s₀ ∧ Represented c m (s₀, fun _ => []) := by
  obtain ⟨s₀, boot, samples⟩ := datRepoInit_samples schema
  exact ⟨s₀, boot, _, samples, fun p known => by simp⟩

theorem repoInit_eq (c : Config) (lastSensor : Nat) :
    repoInit c lastSensor = if lastSensor ≤ 819 then datRepoInit c lastSensor else none := by
  have bound : schSizePerSection * schSectionsPerPayload * lastSensor ≤ 2147483647 ↔
      lastSensor ≤ 819 := by
    simp only [schSizePerSection, schSectionsPerPayload]
    omega
  simp only [repoInit, bound]

/-- The store behaves as lists over a whole history from the boot on, if and
    only if the size of the payload memory is an `int` and every sample comes
    in a buffer of four bytes at least. -/
theorem ram_payload_lists_iff (schema : Schema c m) {calls : List PayloadCall}
    (within : Within m (fun _ => []) calls) :
    (∃ s₀, repoInit c m.lastSensor = some s₀ ∧ ReadsAs c m s₀ (fun _ => []) ∧
        Along (listStep c m) (CallExact c m) (s₀, fun _ => []) calls) ↔
      m.lastSensor ≤ 819 ∧ ∀ call ∈ calls, LongEnough call := by
  obtain ⟨s₀, boot, rep⟩ := datRepoInit_represented schema
  have run := along_iff_forall (I := Represented c m) (P := CallExact c m) (Q := LongEnough)
    (fun _ _ => call_exact_iff schema) (fun _ _ => call_goes schema) rep (within_along within)
  rw [repoInit_eq]
  by_cases few : m.lastSensor ≤ 819
  · rw [if_pos few, boot]
    constructor
    · rintro ⟨s₁, same, -, along⟩
      cases same
      exact ⟨few, run.mp along⟩
    · rintro ⟨-, long⟩
      exact ⟨s₀, rfl, rep.reads schema, run.mpr long⟩
  · rw [if_neg few]
    constructor
    · rintro ⟨s₁, none, -⟩
      cases none
    · rintro ⟨less, -⟩
      exact absurd less few

def onePayload (size : Nat) : PayloadMap :=
  { lastSensor := 1, size := fun _ => size, sysIndex := fun _ => 15, sysAck := fun _ => 16 }

theorem onePayload_schema {size : Nat} (filled : 0 < size) (small : size < 65536) :
    Schema simpleConfig (onePayload size) where
  filled _ _ := filled
  size_lt _ _ := small
  index_lt _ _ := by simp [onePayload, simpleConfig]
  ack_lt _ _ := by simp [onePayload, simpleConfig]
  indexes p hp q hq _ := by
    simp only [onePayload] at hp hq
    omega
  acks p hp q hq _ := by
    simp only [onePayload] at hp hq
    omega
  apart _ _ _ _ := by simp [onePayload]
  listed := rfl
  start _ _ := rfl

theorem ram_payload_lists_word :
    (∃ s₀, repoInit simpleConfig 1 = some s₀ ∧
        ReadsAs simpleConfig (onePayload 4) s₀ (fun _ => []) ∧
        Along (listStep simpleConfig (onePayload 4)) (CallExact simpleConfig (onePayload 4))
          (s₀, fun _ => []) [.add [1, 2, 3, 4] 0, .delete 0]) ↔
      1 ≤ 819 ∧ ∀ call ∈ [.add [1, 2, 3, 4] 0, .delete 0], LongEnough call := by
  refine ram_payload_lists_iff (m := onePayload 4) (onePayload_schema (by decide) (by decide)) ?_
  simp [Within, Legal, InRoom, onePayload, HasRoom, schSectionsPerPayload, schSizePerSection]

theorem ram_payload_byte_fails :
    Within (onePayload 1) (fun _ => []) [.add [7] 0] ∧
      ¬ ∃ s₀, repoInit simpleConfig 1 = some s₀ ∧
        ReadsAs simpleConfig (onePayload 1) s₀ (fun _ => []) ∧
        Along (listStep simpleConfig (onePayload 1)) (CallExact simpleConfig (onePayload 1))
          (s₀, fun _ => []) [.add [7] 0] := by
  constructor
  · simp [Within, Legal, InRoom, onePayload, HasRoom, schSectionsPerPayload, schSizePerSection]
  · rintro ⟨s₀, -, -, along⟩
    obtain ⟨rc, s', step, -⟩ := (along_cons.mp along).1
    simp [stepPayload, datAddPayloadSample] at step

end RamPayloadLists
