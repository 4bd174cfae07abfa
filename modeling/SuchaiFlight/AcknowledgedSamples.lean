import SuchaiFlight.PayloadCalls
import SuchaiFlight.RamSamples
import SuchaiFlight.RepoCommand
import SuchaiFlight.Library.Runs
import SuchaiFlight.Library.SignedWord

/-!
The acknowledged samples of a payload, `[0, ack)`, and the samples that are
still to be sent, `[ack, index)`. Two status variables hold the two ends, and
the calls that change samples change one of them or both.
-/
namespace AcknowledgedSamples
open StorageApi RepoData RepoCommand PayloadData PayloadCalls StatusVariables Runs
open SignedWord

/-- What a history is made of. The parameters of `tm_set_ack` are the payload
    and the number of samples that `sscanf` reads, `none` when it does not read
    both. -/
inductive AckCall where
  | payload (call : PayloadCall)
  | setAck (params : Option (UInt32 × UInt32))

structure TelRequest where
  start : Int32
  stop : Int32
  payload : UInt32
  destNode : UInt32

section
variable {σ : Type} (S : PayloadTables σ) (c : Config) (m : PayloadMap)

def indexOf (s : σ) (p : Nat) : Option Int32 := datGetSystemVar S.toStorage c s (m.sysIndex p)

def ackOf (s : σ) (p : Nat) : Option Int32 := datGetSystemVar S.toStorage c s (m.sysAck p)

/-- An `int` is compared with the `uint32_t` as unsigned. -/
def tmSetAck (s : σ) (params : Option (UInt32 × UInt32)) : Option (Int32 × σ) :=
  match params with
  | none => some (cmdSyntaxError, s)
  | some (payload, kSamples) =>
    if m.lastSensor ≤ payload.toNat then some (cmdError, s)
    else if kSamples < 1 then some (cmdError, s)
    else do
      let ackPay ← ackOf S c m s payload.toNat
      let indexPay ← indexOf S c m s payload.toNat
      if ackPay = -1 ∨ indexPay = -1 then return (cmdError, s)
      else if kSamples < ackPay.toUInt32 then return (cmdError, s)
      else
        let ackPay := if indexPay.toUInt32 < kSamples then indexPay else kSamples.toInt32
        let (_, s) ← datSetSystemVar S.toStorage c s (m.sysAck payload.toNat) ackPay
        return (cmdOk, s)

def tmSendAll (s : σ) (params : Option (UInt32 × UInt32)) : Option (Except Int32 TelRequest) :=
  match params with
  | none => some (.error cmdSyntaxError)
  | some (payload, destNode) =>
    if m.lastSensor ≤ payload.toNat then some (.error cmdSyntaxError)
    else do
      let indexPay ← indexOf S c m s payload.toNat
      let indexAck ← ackOf S c m s payload.toNat
      return .ok
        { start := indexAck
          stop := indexPay
          payload := payload
          destNode := destNode }

/-- The sum is made in `uint32_t` and stored in an `int`. -/
def tmSendFrom (s : σ) (params : Option (UInt32 × UInt32 × UInt32)) :
    Option (Except Int32 TelRequest) :=
  match params with
  | none => some (.error cmdSyntaxError)
  | some (payload, destNode, samples) =>
    if m.lastSensor ≤ payload.toNat then some (.error cmdSyntaxError)
    else if samples < 1 then some (.error cmdSyntaxError)
    else do
      let indexPay ← indexOf S c m s payload.toNat
      let indexAck ← ackOf S c m s payload.toNat
      let des := (indexAck.toUInt32 + samples).toInt32
      return .ok
        { start := indexAck
          stop := if indexPay < des then indexPay else des
          payload := payload
          destNode := destNode }

def stepAck (s : σ) : AckCall → Option (Int32 × σ)
  | .payload call => stepPayload S c m s call
  | .setAck params => tmSetAck S c m s params

def nextAck (s : σ) (call : AckCall) : Option σ := (stepAck S c m s call).map Prod.snd

def Acknowledged (s : σ) : Prop :=
  ∀ p < m.lastSensor, ∃ ack index, ackOf S c m s p = some ack ∧ indexOf S c m s p = some index ∧
    0 ≤ ack ∧ ack ≤ index

def Countable (s : σ) (call : AckCall) : Prop :=
  ∀ data p, call = .payload (.add data p) → indexOf S c m s p ≠ some 2147483647

def AcksCleared (s : σ) (call : AckCall) : Prop :=
  call = .payload .deleteMemorySections → ∀ p < m.lastSensor, ackOf S c m s p = some 0

end

structure AckSchema (c : Config) (m : PayloadMap) : Prop where
  index_lt : ∀ p < m.lastSensor, m.sysIndex p < c.datStatusLastAddress
  ack_lt : ∀ p < m.lastSensor, m.sysAck p < c.datStatusLastAddress
  indexes : ∀ p < m.lastSensor, ∀ q < m.lastSensor, m.sysIndex p = m.sysIndex q → p = q
  acks : ∀ p < m.lastSensor, ∀ q < m.lastSensor, m.sysAck p = m.sysAck q → p = q
  apart : ∀ p < m.lastSensor, ∀ q < m.lastSensor, m.sysIndex p ≠ m.sysAck q
  queue : ∀ p < m.lastSensor, m.sysAck p ≠ c.datFplQueue
  listed : c.sysIndex = (List.range m.lastSensor).map m.sysIndex
  start : ∀ p < m.lastSensor, c.statusDefault (m.sysIndex p) = 0
  ackStart : ∀ p < m.lastSensor, c.statusDefault (m.sysAck p) = 0

/-- What the storage promises: whatever its calls report, they leave the status
    variables alone, and the two resets are defined. -/
structure TableLaws {σ : Type} (S : PayloadTables σ) (good : σ → Prop)
    (cell : σ → Nat → Option UInt32) : Prop where
  setData : ∀ s p i data size rc s', good s →
    S.storagePayloadSetData s p i data size = some (rc, s') → good s' ∧ cell s' = cell s
  resetTable : ∀ s p rc s', good s →
    S.storagePayloadResetTable s p = some (rc, s') → good s' ∧ cell s' = cell s
  payloadReset : ∀ s, good s →
    ∃ rc s', S.storagePayloadReset s = some (rc, s') ∧ good s' ∧ cell s' = cell s
  planReset : ∀ s, good s →
    ∃ rc s', S.storageFlightPlanReset s = some (rc, s') ∧ good s' ∧ cell s' = cell s

/-! The two numbers of each payload, and what a call makes of them. -/

structure Counts where
  ack : Nat → Int32
  index : Nat → Int32

def Counts.after (counts : Counts) (rc : Int32) : AckCall → Counts
  | .payload (.add _ p) =>
    if rc = 0 then { counts with index := Function.update counts.index p (counts.index p + 1) }
    else counts
  | .payload (.delete p) =>
    if rc = schStOk then
      { ack := Function.update counts.ack p 0
        index := Function.update counts.index p 0 }
    else counts
  | .payload .deleteMemorySections => { counts with index := fun _ => 0 }
  | .payload .resetStatusVars =>
    { ack := fun _ => 0
      index := fun _ => 0 }
  | .setAck (some (p, k)) =>
    if rc = cmdOk then
      let index := counts.index p.toNat
      let acked := if index.toUInt32 < k then index else k.toInt32
      { counts with ack := Function.update counts.ack p.toNat acked }
    else counts
  | .setAck none => counts

def Counts.WellFormed (counts : Counts) (n : Nat) : Prop :=
  ∀ p < n, 0 ≤ counts.ack p ∧ counts.ack p ≤ counts.index p

section
variable {counts : Counts} {n : Nat} {rc : Int32} {call : AckCall}

theorem le_succ_of_ne_max {i : Int32} (below : i ≠ 2147483647) : i ≤ i + 1 := by
  have high := Int32.toInt_lt i
  have low := Int32.le_toInt i
  have ne : i.toInt ≠ 2147483647 := fun eq => below (Int32.toInt_inj.mp eq)
  rw [Int32.le_iff_toInt_le, Int32.toInt_add, Int.bmod_eq_of_le] <;> simp at * <;> omega

theorem acked_within {index : Int32} {k : UInt32} (nonneg : 0 ≤ index)
    (all : ¬ index.toUInt32 < k) : 0 ≤ k.toInt32 ∧ k.toInt32 ≤ index := by
  have few : k.toNat ≤ index.toNatClampNeg := by
    rw [← Int32.toNat_toUInt32_of_le nonneg]
    exact UInt32.not_lt.mp all
  have high := Int32.toInt_lt index
  have sign : 0 ≤ index.toInt := Int32.le_iff_toInt_le.mp nonneg
  rw [← Int32.toNat_toInt] at few
  have value : k.toInt32.toInt = k.toNat := toInt_toInt32_of_lt (by omega)
  rw [Int32.le_iff_toInt_le, Int32.le_iff_toInt_le, value]
  exact ⟨Int.natCast_nonneg _, by omega⟩

theorem Counts.WellFormed.after (formed : counts.WellFormed n)
    (countable : ∀ data p, call = .payload (.add data p) → p < n → counts.index p ≠ 2147483647)
    (cleared : call = .payload .deleteMemorySections → ∀ p < n, counts.ack p = 0) :
    (counts.after rc call).WellFormed n := by
  intro p known
  obtain ⟨nonneg, below⟩ := formed p known
  cases call with
  | setAck params =>
    cases params with
    | none => exact ⟨nonneg, below⟩
    | some given =>
      obtain ⟨q, k⟩ := given
      by_cases ok : rc = cmdOk
      · simp only [Counts.after, if_pos ok]
        by_cases own : p = q.toNat
        · subst own
          rw [Function.update_self]
          split
          · exact ⟨Int32.le_trans nonneg below, Int32.le_refl _⟩
          · rename_i all
            exact acked_within (Int32.le_trans nonneg below) all
        · rw [Function.update_of_ne own]
          exact ⟨nonneg, below⟩
      · simp only [Counts.after, if_neg ok]
        exact ⟨nonneg, below⟩
  | payload call =>
    cases call with
    | add data q =>
      by_cases ok : rc = 0
      · simp only [Counts.after, if_pos ok]
        by_cases own : p = q
        · subst own
          rw [Function.update_self]
          exact ⟨nonneg, Int32.le_trans below (le_succ_of_ne_max (countable data p rfl known))⟩
        · rw [Function.update_of_ne own]
          exact ⟨nonneg, below⟩
      · simp only [Counts.after, if_neg ok]
        exact ⟨nonneg, below⟩
    | delete q =>
      by_cases ok : rc = schStOk
      · simp only [Counts.after, if_pos ok]
        by_cases own : p = q
        · subst own
          rw [Function.update_self, Function.update_self]
          exact ⟨Int32.le_refl 0, Int32.le_refl 0⟩
        · rw [Function.update_of_ne own, Function.update_of_ne own]
          exact ⟨nonneg, below⟩
      · simp only [Counts.after, if_neg ok]
        exact ⟨nonneg, below⟩
    | deleteMemorySections =>
      simp only [Counts.after]
      rw [cleared rfl p known]
      exact ⟨Int32.le_refl 0, Int32.le_refl 0⟩
    | resetStatusVars => exact ⟨Int32.le_refl 0, Int32.le_refl 0⟩

end

/-! The calls of the repository act on these numbers. -/

structure Shows {σ : Type} (S : PayloadTables σ) (c : Config) (m : PayloadMap) (s : σ)
    (counts : Counts) : Prop where
  ack : ∀ p < m.lastSensor, ackOf S c m s p = some (counts.ack p)
  index : ∀ p < m.lastSensor, indexOf S c m s p = some (counts.index p)

section
variable {σ ρ : Type} {S : PayloadTables σ} {c : Config} {m : PayloadMap} {good : σ → Prop}
  {cell : σ → Nat → Option UInt32} {rest : σ → ρ} {put : σ → Nat → UInt32 → σ} {s s' : σ}
  {counts : Counts} {p : Nat} {rc value : Int32} {call : AckCall}

theorem Shows.stored (laws : StatusLaws S.toStorage c good cell rest put) (schema : AckSchema c m)
    (shows : Shows S c m s counts) (ok : good s) (kept : good s' ∧ cell s' = cell s) :
    Shows S c m s' counts := by
  obtain ⟨ok', same⟩ := kept
  constructor
  · intro p known
    rw [← shows.ack p known, ackOf, ackOf, datGetSystemVar_eq laws ok' (schema.ack_lt p known),
      datGetSystemVar_eq laws ok (schema.ack_lt p known), same]
  · intro p known
    rw [← shows.index p known, indexOf, indexOf,
      datGetSystemVar_eq laws ok' (schema.index_lt p known),
      datGetSystemVar_eq laws ok (schema.index_lt p known), same]

theorem others_read {i : Nat} (moved : ∀ j < c.datStatusLastAddress,
      datGetSystemVar S.toStorage c s' j =
        if j = i then some value else datGetSystemVar S.toStorage c s j)
    {vars : Nat → Nat} (bound : ∀ q < m.lastSensor, vars q < c.datStatusLastAddress)
    (other : ∀ q < m.lastSensor, vars q ≠ i) {numbers : Nat → Int32}
    (held : ∀ q < m.lastSensor, datGetSystemVar S.toStorage c s (vars q) = some (numbers q)) :
    ∀ q < m.lastSensor, datGetSystemVar S.toStorage c s' (vars q) = some (numbers q) := by
  intro q known
  rw [moved _ (bound q known), if_neg (other q known)]
  exact held q known

theorem own_reads {vars : Nat → Nat} (known : p < m.lastSensor)
    (moved : ∀ j < c.datStatusLastAddress, datGetSystemVar S.toStorage c s' j =
      if j = vars p then some value else datGetSystemVar S.toStorage c s j)
    (bound : ∀ q < m.lastSensor, vars q < c.datStatusLastAddress)
    (distinct : ∀ q < m.lastSensor, ∀ r < m.lastSensor, vars q = vars r → q = r)
    {numbers : Nat → Int32}
    (held : ∀ q < m.lastSensor, datGetSystemVar S.toStorage c s (vars q) = some (numbers q)) :
    ∀ q < m.lastSensor,
      datGetSystemVar S.toStorage c s' (vars q) = some (Function.update numbers p value q) := by
  intro q known'
  rw [moved _ (bound q known')]
  by_cases own : q = p
  · subst own
    rw [if_pos rfl, Function.update_self]
  · rw [if_neg fun eq => own (distinct q known' p known eq), Function.update_of_ne own]
    exact held q known'

theorem Shows.setIndex (laws : StatusLaws S.toStorage c good cell rest put)
    (schema : AckSchema c m) (shows : Shows S c m s counts) (ok : good s) (known : p < m.lastSensor)
    (run : datSetSystemVar S.toStorage c s (m.sysIndex p) value = some (rc, s')) :
    good s' ∧ Shows S c m s' { counts with index := Function.update counts.index p value } := by
  obtain ⟨ok', moved⟩ := datSetSystemVar_reads laws ok (schema.index_lt p known) run
  refine ⟨ok', ?_, ?_⟩
  · exact others_read moved schema.ack_lt (fun q known' => (schema.apart p known q known').symm)
      shows.ack
  · exact own_reads known moved schema.index_lt schema.indexes shows.index

theorem Shows.setAck (laws : StatusLaws S.toStorage c good cell rest put)
    (schema : AckSchema c m) (shows : Shows S c m s counts) (ok : good s) (known : p < m.lastSensor)
    (run : datSetSystemVar S.toStorage c s (m.sysAck p) value = some (rc, s')) :
    good s' ∧ Shows S c m s' { counts with ack := Function.update counts.ack p value } := by
  obtain ⟨ok', moved⟩ := datSetSystemVar_reads laws ok (schema.ack_lt p known) run
  refine ⟨ok', ?_, ?_⟩
  · exact own_reads known moved schema.ack_lt schema.acks shows.ack
  · exact others_read moved schema.index_lt (fun q known' => schema.apart q known' p known)
      shows.index

theorem add_shows (laws : StatusLaws S.toStorage c good cell rest put) (tables : TableLaws S good cell)
    (schema : AckSchema c m) (shows : Shows S c m s counts) (ok : good s) {data : List UInt8}
    (run : datAddPayloadSample S.toPayloadStorage c m.toDataMap s data p = some (rc, s')) :
    good s' ∧ Shows S c m s' (counts.after rc (.payload (.add data p))) := by
  unfold datAddPayloadSample at run
  split at run
  · rename_i guards
    obtain ⟨index, read, run⟩ := Option.bind_eq_some_iff.mp run
    obtain ⟨⟨ret, s₁⟩, set, run⟩ := Option.bind_eq_some_iff.mp run
    obtain rfl := Option.some.inj (read.symm.trans (shows.index p guards.1))
    have kept := tables.setData _ _ _ _ _ _ _ ok set
    have shows₁ := shows.stored laws schema ok kept
    by_cases stored : schStOk ≤ ret
    · simp only [stored, if_true] at run
      obtain ⟨⟨ret', s₂⟩, next, result⟩ := Option.bind_eq_some_iff.mp run
      obtain ⟨rfl, rfl⟩ := Prod.mk.inj (Option.some.inj result)
      exact shows₁.setIndex laws schema kept.1 guards.1 next
    · simp only [stored, if_false] at run
      obtain ⟨rfl, rfl⟩ := Prod.mk.inj (Option.some.inj run)
      exact ⟨kept.1, shows₁⟩
  · contradiction

theorem delete_shows (laws : StatusLaws S.toStorage c good cell rest put)
    (tables : TableLaws S good cell) (schema : AckSchema c m) (shows : Shows S c m s counts)
    (ok : good s) (run : datDeletePayload S c m s p = some (rc, s')) :
    good s' ∧ Shows S c m s' (counts.after rc (.payload (.delete p))) := by
  unfold datDeletePayload at run
  split at run
  · obtain ⟨rfl, rfl⟩ := Prod.mk.inj (Option.some.inj run)
    exact ⟨ok, shows⟩
  · rename_i inside
    have known : p < m.lastSensor := by omega
    have sign : ¬ (p : Int) < 0 := by omega
    obtain ⟨⟨ret, s₁⟩, reset, run⟩ := Option.bind_eq_some_iff.mp run
    have kept := tables.resetTable _ _ _ _ ok reset
    have shows₁ := shows.stored laws schema ok kept
    by_cases cleared : ret = schStOk
    · simp only [cleared, if_true, sign, if_false, Int.toNat_natCast] at run
      obtain ⟨⟨ret₁, s₂⟩, index, run⟩ := Option.bind_eq_some_iff.mp run
      obtain ⟨⟨ret₂, s₃⟩, ack, result⟩ := Option.bind_eq_some_iff.mp run
      obtain ⟨rfl, rfl⟩ := Prod.mk.inj (Option.some.inj result)
      obtain ⟨ok₂, shows₂⟩ := shows₁.setIndex laws schema kept.1 known index
      exact shows₂.setAck laws schema ok₂ known ack
    · simp only [cleared, if_false] at run
      obtain ⟨rfl, rfl⟩ := Prod.mk.inj (Option.some.inj run)
      simp only [Counts.after, if_neg cleared]
      exact ⟨kept.1, shows₁⟩

theorem deleteMemorySections_shows (laws : StatusLaws S.toStorage c good cell rest put)
    (tables : TableLaws S good cell) (schema : AckSchema c m) (shows : Shows S c m s counts)
    (ok : good s) :
    ∃ ret s', datDeleteMemorySections S.toStorage c s = some (ret, s') ∧ good s' ∧
      Shows S c m s' { counts with index := fun _ => 0 } := by
  obtain ⟨ret₁, s₁, payloads, ok₁, same₁⟩ := tables.payloadReset s ok
  obtain ⟨ret, s₂, plan, ok₂, same₂⟩ := tables.planReset s₁ ok₁
  have shows₂ := (shows.stored laws schema ok ⟨ok₁, same₁⟩).stored laws schema ok₁ ⟨ok₂, same₂⟩
  obtain ⟨s₃, clear, ok₃, -, vote₃⟩ := clearSysIndexes_spec laws c.sysIndex_lt ok₂
  obtain ⟨s₄, queue, ok₄, -, vote₄⟩ := datSetSystemVar_spec laws ok₃ c.fplQueue_lt 0
  refine ⟨ret, s₄, by simp [datDeleteMemorySections, payloads, plan, clear, queue], ok₄, ?_, ?_⟩
  · intro p known
    have bound := schema.ack_lt p known
    have unlisted : m.sysAck p ∉ c.sysIndex := by
      rw [schema.listed, List.mem_map]
      intro mapped
      obtain ⟨q, mem, eq⟩ := mapped
      exact schema.apart q (List.mem_range.mp mem) p known eq
    rw [← shows₂.ack p known, ackOf, ackOf, datGetSystemVar_eq laws ok₄ bound,
      datGetSystemVar_eq laws ok₂ bound, vote₄ _ bound, if_neg (schema.queue p known),
      vote₃ _ bound, if_neg unlisted]
  · intro p known
    have bound := schema.index_lt p known
    have listed : m.sysIndex p ∈ c.sysIndex := by
      rw [schema.listed]
      exact List.mem_map_of_mem (List.mem_range.mpr known)
    rw [indexOf, datGetSystemVar_eq laws ok₄ bound, vote₄ _ bound, vote₃ _ bound, if_pos listed]
    split <;> rfl

theorem resetStatusVars_shows (laws : StatusLaws S.toStorage c good cell rest put)
    (schema : AckSchema c m) (ok : good s) :
    ∃ s', datResetStatusVars S.toStorage c s = some (schStOk, s') ∧ good s' ∧
      Shows S c m s' ⟨fun _ => 0, fun _ => 0⟩ := by
  obtain ⟨s', reset, ok', -, vote⟩ := datResetStatusVars_spec laws ok
  refine ⟨s', reset, ok', ?_, ?_⟩
  · intro p known
    have bound := schema.ack_lt p known
    rw [ackOf, datGetSystemVar_eq laws ok' bound, vote _ bound, schema.ackStart p known]
    rfl
  · intro p known
    have bound := schema.index_lt p known
    rw [indexOf, datGetSystemVar_eq laws ok' bound, vote _ bound, schema.start p known]
    rfl

theorem setAck_shows (laws : StatusLaws S.toStorage c good cell rest put) (schema : AckSchema c m)
    (shows : Shows S c m s counts) (ok : good s) {params : Option (UInt32 × UInt32)}
    (run : tmSetAck S c m s params = some (rc, s')) :
    good s' ∧ Shows S c m s' (counts.after rc (.setAck params)) := by
  have refused {code : Int32} {given : UInt32 × UInt32} (fails : code ≠ cmdOk) :
      good s ∧ Shows S c m s (counts.after code (.setAck (some given))) := by
    simp only [Counts.after, if_neg fails]
    exact ⟨ok, shows⟩
  have error : cmdError ≠ cmdOk := by decide
  cases params with
  | none =>
    obtain ⟨rfl, rfl⟩ := Prod.mk.inj (Option.some.inj run)
    exact ⟨ok, shows⟩
  | some given =>
    obtain ⟨payload, k⟩ := given
    simp only [tmSetAck] at run
    split at run
    · obtain ⟨rfl, rfl⟩ := Prod.mk.inj (Option.some.inj run)
      exact refused error
    · rename_i inside
      have known : payload.toNat < m.lastSensor := Nat.not_le.mp inside
      split at run
      · obtain ⟨rfl, rfl⟩ := Prod.mk.inj (Option.some.inj run)
        exact refused error
      · simp only [shows.ack _ known, shows.index _ known, Option.bind_eq_bind,
          Option.bind_some] at run
        split at run
        · obtain ⟨rfl, rfl⟩ := Prod.mk.inj (Option.some.inj run)
          exact refused error
        · split at run
          · obtain ⟨rfl, rfl⟩ := Prod.mk.inj (Option.some.inj run)
            exact refused error
          · obtain ⟨⟨ret, s₁⟩, set, result⟩ := Option.bind_eq_some_iff.mp run
            obtain ⟨rfl, rfl⟩ := Prod.mk.inj (Option.some.inj result)
            exact shows.setAck laws schema ok known set

theorem step_shows (laws : StatusLaws S.toStorage c good cell rest put)
    (tables : TableLaws S good cell) (schema : AckSchema c m) (shows : Shows S c m s counts)
    (ok : good s) (run : stepAck S c m s call = some (rc, s')) :
    good s' ∧ Shows S c m s' (counts.after rc call) := by
  cases call with
  | setAck params => exact setAck_shows laws schema shows ok run
  | payload call =>
    cases call with
    | add data p => exact add_shows laws tables schema shows ok run
    | delete p => exact delete_shows laws tables schema shows ok run
    | deleteMemorySections =>
      obtain ⟨ret, u, delete, ok', shows'⟩ := deleteMemorySections_shows laws tables schema shows ok
      obtain ⟨-, rfl⟩ := Prod.mk.inj (Option.some.inj (delete.symm.trans run))
      exact ⟨ok', shows'⟩
    | resetStatusVars =>
      obtain ⟨u, reset, ok', shows'⟩ := resetStatusVars_shows laws schema ok
      obtain ⟨-, rfl⟩ := Prod.mk.inj (Option.some.inj (reset.symm.trans run))
      exact ⟨ok', shows'⟩

theorem Shows.wellFormed_iff (shows : Shows S c m s counts) :
    Acknowledged S c m s ↔ counts.WellFormed m.lastSensor := by
  constructor
  · intro acked p known
    obtain ⟨ack, index, readAck, readIndex, nonneg, below⟩ := acked p known
    obtain rfl := Option.some.inj ((shows.ack p known).symm.trans readAck)
    obtain rfl := Option.some.inj ((shows.index p known).symm.trans readIndex)
    exact ⟨nonneg, below⟩
  · intro formed p known
    exact ⟨_, _, shows.ack p known, shows.index p known, formed p known⟩

theorem Acknowledged.shows (acked : Acknowledged S c m s) : ∃ counts, Shows S c m s counts := by
  refine ⟨⟨fun p => (ackOf S c m s p).getD 0, fun p => (indexOf S c m s p).getD 0⟩, ?_, ?_⟩
  · intro p known
    obtain ⟨ack, index, read, -⟩ := acked p known
    simp [read]
  · intro p known
    obtain ⟨ack, index, -, read, -⟩ := acked p known
    simp [read]

theorem step_acknowledged_iff (laws : StatusLaws S.toStorage c good cell rest put)
    (tables : TableLaws S good cell) (schema : AckSchema c m) (ok : good s)
    (acked : Acknowledged S c m s) (countable : Countable S c m s call) :
    (∀ s', nextAck S c m s call = some s' → Acknowledged S c m s') ↔ AcksCleared S c m s call := by
  obtain ⟨counts, shows⟩ := acked.shows
  have formed := shows.wellFormed_iff.mp acked
  constructor
  · intro keeps delete p known
    subst delete
    obtain ⟨ret, s', run, ok', shows'⟩ := deleteMemorySections_shows laws tables schema shows ok
    have next : nextAck S c m s (.payload .deleteMemorySections) = some s' := by
      simp [nextAck, stepAck, stepPayload, run]
    have formed' := shows'.wellFormed_iff.mp (keeps s' next)
    have zero : counts.ack p = 0 := Int32.le_antisymm (formed' p known).2 (formed' p known).1
    rw [shows.ack p known, zero]
  · intro cleared s' next
    obtain ⟨⟨rc, u⟩, run, rfl⟩ := Option.map_eq_some_iff.mp next
    obtain ⟨-, shows'⟩ := step_shows laws tables schema shows ok run
    refine shows'.wellFormed_iff.mpr (formed.after ?_ ?_)
    · intro data p add known last
      exact countable data p add ((shows.index p known).trans (congrArg some last))
    · intro delete p known
      exact Option.some.inj ((shows.ack p known).symm.trans (cleared delete p known))

/-- For every history from a store whose ranges are well formed, such as one
    whose variables have their defaults. -/
theorem acknowledged_iff (laws : StatusLaws S.toStorage c good cell rest put)
    (tables : TableLaws S good cell) (schema : AckSchema c m) (ok : good s)
    (acked : Acknowledged S c m s) {calls : List AckCall}
    (within : Along (nextAck S c m) (Countable S c m) s calls) :
    Throughout (nextAck S c m) (Acknowledged S c m) s calls ↔
      Along (nextAck S c m) (AcksCleared S c m) s calls := by
  have same := along_iff_within (I := fun s => good s ∧ Acknowledged S c m s)
    (fun s call held countable => step_acknowledged_iff laws tables schema held.1 held.2 countable)
    (fun s call t held countable keeps next => ?_) ⟨ok, acked⟩ within
  · rw [throughout_iff_along, same]
    exact and_iff_right acked
  · obtain ⟨counts, shows⟩ := held.2.shows
    obtain ⟨⟨rc, u⟩, run, rfl⟩ := Option.map_eq_some_iff.mp next
    exact ⟨(step_shows laws tables schema shows held.1 run).1, keeps u next⟩

theorem tmSendAll_range (acked : Acknowledged S c m s) {params : Option (UInt32 × UInt32)}
    {request : TelRequest} (sent : tmSendAll S c m s params = some (.ok request)) :
    0 ≤ request.start ∧ request.start ≤ request.stop := by
  cases params with
  | none => cases sent
  | some given =>
    simp only [tmSendAll] at sent
    split at sent
    · cases sent
    · rename_i inside
      obtain ⟨ack, index, readAck, readIndex, nonneg, below⟩ := acked _ (Nat.not_le.mp inside)
      simp only [readAck, readIndex, Option.bind_eq_bind, Option.bind_some] at sent
      cases sent
      exact ⟨nonneg, below⟩

theorem tmSendFrom_inside (acked : Acknowledged S c m s)
    {params : Option (UInt32 × UInt32 × UInt32)} {request : TelRequest}
    (sent : tmSendFrom S c m s params = some (.ok request)) :
    0 ≤ request.start ∧ ∃ index, indexOf S c m s request.payload.toNat = some index ∧
      request.start ≤ index ∧ request.stop ≤ index := by
  cases params with
  | none => cases sent
  | some given =>
    simp only [tmSendFrom] at sent
    split at sent
    · cases sent
    · rename_i inside
      split at sent
      · cases sent
      · obtain ⟨ack, index, readAck, readIndex, nonneg, below⟩ := acked _ (Nat.not_le.mp inside)
        simp only [readAck, readIndex, Option.bind_eq_bind, Option.bind_some] at sent
        cases sent
        refine ⟨nonneg, index, readIndex, below, ?_⟩
        show (if index < _ then index else _) ≤ index
        split
        · exact Int32.le_refl index
        · rename_i inside'
          exact Int32.not_lt.mp inside'

end

section Ram
open RamStorage RamFlightPlan RamPayload RamSamples

theorem status_kept {c : Config} {s s' : RamStore} (ready : ∃ status, Ready c s status)
    (isOpen : s'.storageIsOpen = s.storageIsOpen) (statusDb : s'.statusDb = s.statusDb)
    (entries : s'.statusEntries = s.statusEntries) :
    (∃ status, Ready c s' status) ∧ ramCell s' = ramCell s := by
  obtain ⟨status, ready⟩ := ready
  refine ⟨⟨status, isOpen.trans ready.isOpen, statusDb.trans ready.statusEq,
    entries.trans ready.entriesEq⟩, ?_⟩
  funext k
  rw [ramCell, ramCell, statusDb]

theorem ram_tables (c : Config) :
    TableLaws (ramPayloadTables c) (fun s => ∃ status, Ready c s status) ramCell where
  setData := by
    intro s p i data size rc s' ready run
    change storagePayloadSetData s p i data size = some (rc, s') at run
    unfold storagePayloadSetData at run
    split at run
    · cases run
      exact ⟨ready, rfl⟩
    · split at run
      · cases run
        exact ⟨ready, rfl⟩
      · obtain ⟨found, -, run⟩ := Option.bind_eq_some_iff.mp run
        cases found with
        | error code =>
          cases run
          exact ⟨ready, rfl⟩
        | ok address =>
          simp only at run
          split at run
          · cases run
            exact status_kept ready rfl rfl rfl
          · cases run
  resetTable := by
    intro s p rc s' ready run
    change storagePayloadResetTable s p = some (rc, s') at run
    unfold storagePayloadResetTable at run
    split at run
    · cases run
      exact ⟨ready, rfl⟩
    · split at run
      · cases run
        exact ⟨ready, rfl⟩
      · split at run
        · cases run
        · cases run
          exact status_kept ready rfl rfl rfl
  payloadReset := by
    intro s ready
    have isOpen : s.storageIsOpen = true := ready.elim fun _ ready => ready.isOpen
    have reset : storageTablePayloadInit true s s.payloadsEntries true =
        (schStOk, { s with payloadDb := some fun _ => 0 }) := by
      simp [storageTablePayloadInit, isOpen]
    exact ⟨_, _, congrArg some reset, status_kept ready rfl rfl rfl⟩
  planReset := by
    intro s ready
    obtain ⟨ret, s', run, isOpen, statusDb, entries, -⟩ := flightPlanReset_memory (c := c) s
    exact ⟨ret, s', run, status_kept ready isOpen statusDb entries⟩

def tempSamples : PayloadMap where
  lastSensor := 1
  size := fun _ => 12
  sysIndex := fun _ => 15
  sysAck := fun _ => 16

theorem temp_schema : Schema simpleConfig tempSamples where
  filled := by decide
  size_lt := by decide
  index_lt := by decide
  ack_lt := by decide
  indexes := by decide
  acks := by decide
  apart := by decide
  listed := rfl
  start := by decide

theorem temp_ackSchema : AckSchema simpleConfig tempSamples where
  index_lt := by decide
  ack_lt := by decide
  indexes := by decide
  acks := by decide
  apart := by decide
  queue := by decide
  listed := rfl
  start := by decide
  ackStart := by decide

def tempSample : AckCall := .payload (.add (List.replicate 12 0) 0)

theorem temp_boot :
    ∃ s cells, datRepoInit simpleConfig 1 = some s ∧
      Samples simpleConfig tempSamples s (fun _ => 0) cells ∧
      Shows (ramPayloadTables simpleConfig) simpleConfig tempSamples s ⟨fun _ => 0, fun _ => 0⟩ := by
  obtain ⟨s, boot, ready, memory, entries, defaults⟩ := datRepoInit_defaults simpleConfig 1
  obtain ⟨s', boot', samples⟩ := datRepoInit_samples temp_schema
  obtain rfl := Option.some.inj (boot.symm.trans boot')
  have read {j : Nat} (bound : j < simpleConfig.datStatusLastAddress) :=
    (datGetSystemVar_eq (ram_status simpleConfig) ready bound).trans
      (congrArg (Option.map UInt32.toInt32) (defaults j bound))
  exact ⟨s, _, boot, samples, fun p known => read (temp_schema.ack_lt p known),
    fun p known => read (temp_schema.index_lt p known)⟩

theorem temp_added :
    ∃ s s₁, datRepoInit simpleConfig 1 = some s ∧ (∃ status, Ready simpleConfig s status) ∧
      Shows (ramPayloadTables simpleConfig) simpleConfig tempSamples s ⟨fun _ => 0, fun _ => 0⟩ ∧
      nextAck (ramPayloadTables simpleConfig) simpleConfig tempSamples s tempSample = some s₁ ∧
      (∃ status, Ready simpleConfig s₁ status) ∧
      Shows (ramPayloadTables simpleConfig) simpleConfig tempSamples s₁
        ⟨fun _ => 0, Function.update (fun _ => 0) 0 1⟩ := by
  obtain ⟨s, cells, boot, samples, shows⟩ := temp_boot
  have room : HasRoom tempSamples.toDataMap 0 0 := by
    show 0 < schSectionsPerPayload * (schSizePerSection / 12)
    decide
  obtain ⟨s₁, add, -⟩ := add_samples temp_schema samples (show 0 < 1 by decide) room
    (show 4 ≤ (List.replicate 12 (0 : UInt8)).length by decide) (by decide)
  obtain ⟨ok₁, shows₁⟩ :=
    add_shows (ram_status simpleConfig) (ram_tables _) temp_ackSchema shows samples.ready add
  exact ⟨s, s₁, boot, samples.ready, shows, congrArg (Option.map Prod.snd) add, ok₁, shows₁⟩

theorem sections_deleted_unacknowledged :
    ∃ s, datRepoInit simpleConfig 1 = some s ∧
      Throughout (nextAck (ramPayloadTables simpleConfig) simpleConfig tempSamples)
        (Acknowledged (ramPayloadTables simpleConfig) simpleConfig tempSamples) s
        [tempSample, .payload .deleteMemorySections, .setAck (some (0, 1))] := by
  obtain ⟨s, s₁, boot, ready, shows, add, -, shows₁⟩ := temp_added
  have acked : Acknowledged (ramPayloadTables simpleConfig) simpleConfig tempSamples s :=
    shows.wellFormed_iff.mpr fun _ _ => ⟨Int32.le_refl 0, Int32.le_refl 0⟩
  have within : Along (nextAck (ramPayloadTables simpleConfig) simpleConfig tempSamples)
      (Countable (ramPayloadTables simpleConfig) simpleConfig tempSamples) s
      [tempSample, .payload .deleteMemorySections, .setAck (some (0, 1))] := by
    refine along_cons.mpr ⟨?_, fun t₁ _ => along_cons.mpr ⟨nofun, fun t₂ _ =>
      along_cons.mpr ⟨nofun, fun t₃ _ => along_nil _ _⟩⟩⟩
    intro data p same
    cases same
    rw [shows.index 0 (by decide)]
    decide
  refine ⟨s, boot, (acknowledged_iff (ram_status simpleConfig) (ram_tables simpleConfig)
    temp_ackSchema ready acked within).mpr ?_⟩
  refine along_cons.mpr ⟨nofun, fun t₁ step₁ => along_cons.mpr ⟨?_, fun t₂ _ =>
    along_cons.mpr ⟨nofun, fun t₃ _ => along_nil _ _⟩⟩⟩
  obtain rfl := Option.some.inj (add.symm.trans step₁)
  exact fun _ p known => shows₁.ack p known

theorem deleted_sample_stays_acknowledged :
    ∃ s, datRepoInit simpleConfig 1 = some s ∧
      ¬ Throughout (nextAck (ramPayloadTables simpleConfig) simpleConfig tempSamples)
        (Acknowledged (ramPayloadTables simpleConfig) simpleConfig tempSamples) s
        [tempSample, .setAck (some (0, 1)), .payload .deleteMemorySections] := by
  have laws := ram_status simpleConfig
  obtain ⟨s, s₁, boot, -, -, add, ok₁, shows₁⟩ := temp_added
  obtain ⟨s₂, set, -⟩ := datSetSystemVar_spec laws ok₁ (temp_schema.ack_lt 0 (by decide)) 1
  have known : 0 < tempSamples.lastSensor := by decide
  have ack : tmSetAck (ramPayloadTables simpleConfig) simpleConfig tempSamples s₁ (some (0, 1)) =
      some (cmdOk, s₂) := by
    have inside : ¬ tempSamples.lastSensor ≤ 0 := by decide
    simp only [tmSetAck, UInt32.toNat_zero, inside, shows₁.ack 0 known, shows₁.index 0 known,
      if_false, Option.bind_eq_bind, Option.bind_some]
    rw [if_neg (by decide), if_neg (by decide), if_neg (by decide), if_neg (by decide)]
    exact congrArg (fun written => written.bind fun next => some (cmdOk, next.2)) set
  obtain ⟨ok₂, shows₂⟩ := setAck_shows laws temp_ackSchema shows₁ ok₁ ack
  obtain ⟨ret, s₃, delete, -, shows₃⟩ :=
    deleteMemorySections_shows laws (ram_tables simpleConfig) temp_ackSchema shows₂ ok₂
  refine ⟨s, boot, fun throughout => ?_⟩
  have next₂ : nextAck (ramPayloadTables simpleConfig) simpleConfig tempSamples s₁
      (.setAck (some (0, 1))) = some s₂ := congrArg (Option.map Prod.snd) ack
  have next₃ : nextAck (ramPayloadTables simpleConfig) simpleConfig tempSamples s₂
      (.payload .deleteMemorySections) = some s₃ := congrArg (Option.map Prod.snd) delete
  have reached := run_trans (run_single add) (run_trans (run_single next₂) (run_single next₃))
  have acked := throughout _ [] s₃ (List.append_nil _).symm reached
  have formed := shows₃.wellFormed_iff.mp acked 0 known
  exact absurd formed.2 (by decide)

end Ram

end AcknowledgedSamples
