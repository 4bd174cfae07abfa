import SuchaiFlight.Library.SignedWord
import SuchaiFlight.RepoData

/-!
The payload samples of `repoData.c`: samples are added at the index that a
status variable holds, and read back counting from the newest one. The back end
is a parameter, with the laws that `storage.h` documents.
-/
namespace PayloadData
open CStrings StorageApi RepoData SignedWord

structure PayloadStorage (σ : Type) extends Storage σ where
  storagePayloadSetData : σ → Nat → Int32 → List UInt8 → Nat → Option (Int32 × σ)
  storagePayloadGetData : σ → Nat → Int32 → Nat → Option (Except Int32 (List UInt8))

/-- The part of `data_map` that the functions here use. It has one entry for
    each payload below `last_sensor`. -/
structure DataMap where
  lastSensor : Nat
  size : Nat → Nat
  sysIndex : Nat → Nat

section
variable {σ : Type} (S : PayloadStorage σ) (c : Config) (m : DataMap)

/-- `data` is the memory from the given address to the end of its block. Four
    bytes of it are loaded for the log before anything else, and an entry of
    `data_map` is read before `payload` is checked. -/
def datAddPayloadSample (s : σ) (data : List UInt8) (payload : Nat) : Option (Int32 × σ) :=
  if payload < m.lastSensor ∧ 4 ≤ data.length ∧ m.size payload ≤ data.length then do
    let index ← datGetSystemVar S.toStorage c s (m.sysIndex payload)
    let (ret, s) ← S.storagePayloadSetData s payload index (data.take (m.size payload))
      (m.size payload)
    if schStOk ≤ ret then
      let (_, s) ← datSetSystemVar S.toStorage c s (m.sysIndex payload) (index + 1)
      return (0, s)
    else return (-1, s)
  else none

def datGetRecentPayloadSample (s : σ) (payload : Nat) (offset : Int) :
    Option (Except Int32 (List UInt8)) := do
  let index ← datGetSystemVar S.toStorage c s (m.sysIndex payload)
  if 0 ≤ index.toInt - 1 - offset then
    S.storagePayloadGetData s payload (Int32.ofInt (index.toInt - 1 - offset)) (m.size payload)
  else some (.error (-1))

end

/-! What a back end promises. -/

section
variable {σ : Type} (S : PayloadStorage σ) (c : Config) (m : DataMap) (p : Nat)

def indexIs (s : σ) (i : Nat) : Prop :=
  datGetSystemVar S.toStorage c s (m.sysIndex p) = some (Int32.ofNat i)

def sampleAt (s : σ) (i : Nat) : Option (Except Int32 (List UInt8)) :=
  S.storagePayloadGetData s p (Int32.ofNat i) (m.size p)

/-- The samples of payload `p` in a back end whose working states are `Good` and
    whose places for them are `room`. Places are counted by an `int`. -/
structure Lawful (Good : σ → Prop) (room : Nat → Prop) : Prop where
  room_lt : ∀ i, room i → i < 2147483647
  set_index : ∀ s i, Good s → ∃ rc s',
    datSetSystemVar S.toStorage c s (m.sysIndex p) (Int32.ofNat i) = some (rc, s') ∧ Good s' ∧
    indexIs S c m p s' i ∧ ∀ j, room j → sampleAt S m p s' j = sampleAt S m p s j
  set_data : ∀ s i data, Good s → room i → data.length = m.size p → ∃ rc s',
    S.storagePayloadSetData s p (Int32.ofNat i) data (m.size p) = some (rc, s') ∧ schStOk ≤ rc ∧
    Good s' ∧ sampleAt S m p s' i = some (.ok data) ∧
    ∀ j, room j → j ≠ i → sampleAt S m p s' j = sampleAt S m p s j

/-- The samples `new` stand at the places from `i` on, the index follows them,
    and every other place keeps its sample. -/
structure Appended (Good : σ → Prop) (room : Nat → Prop) (s : σ) (i : Nat)
    (new : List (List UInt8)) (s' : σ) : Prop where
  good : Good s'
  index : indexIs S c m p s' (i + new.length)
  stored : ∀ k (bound : k < new.length), sampleAt S m p s' (i + k) = some (.ok new[k])
  others : ∀ j, room j → (j < i ∨ i + new.length ≤ j) → sampleAt S m p s' j = sampleAt S m p s j

variable {S c m p} {Good : σ → Prop} {room : Nat → Prop}

theorem Appended.none {s : σ} {i : Nat} (good : Good s) (index : indexIs S c m p s i) :
    Appended S c m p Good room s i [] s where
  good := good
  index := index
  stored := fun k bound => absurd bound (Nat.not_lt_zero k)
  others := fun _ _ _ => rfl

theorem Appended.trans {s s' s'' : σ} {i : Nat} {one two : List (List UInt8)}
    (accepts : ∀ k < one.length, room (i + k))
    (first : Appended S c m p Good room s i one s')
    (second : Appended S c m p Good room s' (i + one.length) two s'') :
    Appended S c m p Good room s i (one ++ two) s'' where
  good := second.good
  index := by
    rw [List.length_append, ← Nat.add_assoc]
    exact second.index
  stored := by
    intro k bound
    rcases Nat.lt_or_ge k one.length with before | after
    · rw [second.others _ (accepts k before) (.inl (by omega)), first.stored k before,
        List.getElem_append_left before]
    · have place : i + k = i + one.length + (k - one.length) := by omega
      rw [List.length_append] at bound
      rw [place, second.stored _ (by omega), List.getElem_append_right after]
  others := by
    intro j inside outside
    rw [List.length_append] at outside
    rw [second.others j inside (by omega), first.others j inside (by omega)]

theorem Lawful.append_one (lawful : Lawful S c m p Good room) {s : σ} {i : Nat} (good : Good s)
    (accepts : room i) {data : List UInt8} (size : data.length = m.size p) :
    ∃ rc s₁ rc' s₂,
      S.storagePayloadSetData s p (Int32.ofNat i) data (m.size p) = some (rc, s₁) ∧ schStOk ≤ rc ∧
      datSetSystemVar S.toStorage c s₁ (m.sysIndex p) (Int32.ofNat (i + 1)) = some (rc', s₂) ∧
      Appended S c m p Good room s i [data] s₂ := by
  obtain ⟨rc, s₁, set, ok, good₁, stored, others⟩ := lawful.set_data s i data good accepts size
  obtain ⟨rc', s₂, next, good₂, index₂, same⟩ := lawful.set_index s₁ (i + 1) good₁
  refine ⟨rc, s₁, rc', s₂, set, ok, next, good₂, index₂, ?_, ?_⟩
  · intro k bound
    obtain rfl : k = 0 := by simpa using bound
    rw [Nat.add_zero, same i accepts, stored]
    rfl
  · intro j inside outside
    rw [List.length_singleton] at outside
    rw [same j inside, others j inside (by omega)]

theorem datAddPayloadSample_appends (lawful : Lawful S c m p Good room)
    (known : p < m.lastSensor) {s : σ} {i : Nat} (good : Good s) (index : indexIs S c m p s i)
    (accepts : room i) {data : List UInt8} (log : 4 ≤ data.length)
    (whole : m.size p ≤ data.length) :
    ∃ s', datAddPayloadSample S c m s data p = some (0, s') ∧
      Appended S c m p Good room s i [data.take (m.size p)] s' := by
  obtain ⟨rc, s₁, rc', s₂, set, ok, next, appended⟩ :=
    lawful.append_one good accepts (List.length_take_of_le whole)
  refine ⟨s₂, ?_, appended⟩
  unfold datAddPayloadSample
  unfold indexIs at index
  rw [if_pos ⟨known, log, whole⟩]
  simp only [index, Option.bind_eq_bind, Option.bind_some, set, ok, if_true, ofNat_add_one, next]
  rfl

theorem Lawful.append (lawful : Lawful S c m p Good room) :
    ∀ (new : List (List UInt8)), (∀ d ∈ new, d.length = m.size p) →
      ∀ s i, Good s → indexIs S c m p s i → (∀ k < new.length, room (i + k)) →
        ∃ s', Appended S c m p Good room s i new s' := by
  intro new
  induction new with
  | nil =>
    intro _ s i good index _
    exact ⟨s, Appended.none good index⟩
  | cons d new ih =>
    intro sizes s i good index accepts
    have here : room i := accepts 0 (Nat.succ_pos _)
    obtain ⟨-, -, -, s₁, -, -, -, first⟩ :=
      lawful.append_one good here (sizes d List.mem_cons_self)
    obtain ⟨s₂, second⟩ := ih (fun d' mem => sizes d' (List.mem_cons_of_mem d mem)) s₁ (i + 1)
      first.good first.index fun k before => by
        rw [Nat.add_assoc, Nat.add_comm 1 k]
        exact accepts (k + 1) (Nat.succ_lt_succ before)
    refine ⟨s₂, Appended.trans ?_ first second⟩
    intro k before
    obtain rfl : k = 0 := by simpa using before
    exact here

end

end PayloadData
