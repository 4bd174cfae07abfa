import SuchaiFlight.PayloadData
import SuchaiFlight.StatusVariables

/-!
The other payload calls of `repoData.c`, histories of payload calls, and what
each call makes of the status variables over any back end.
-/
namespace PayloadCalls
open StorageApi RepoData PayloadData StatusVariables

structure PayloadMap extends DataMap where
  sysAck : Nat → Nat

structure PayloadTables (σ : Type) extends PayloadStorage σ where
  storagePayloadResetTable : σ → Int → Option (Int32 × σ)

inductive PayloadCall where
  | add (data : List UInt8) (payload : Nat)
  | delete (payload : Nat)
  | deleteMemorySections
  | resetStatusVars

section
variable {σ : Type} (S : PayloadTables σ) (c : Config) (m : PayloadMap)

def datGetPayloadSample (s : σ) (payload : Nat) (index : Int32) :
    Option (Except Int32 (List UInt8)) :=
  S.storagePayloadGetData s payload index (m.size payload)

/-- `data_map` has no entry for a negative `payload`. -/
def datDeletePayload (s : σ) (payload : Int) : Option (Int32 × σ) :=
  if (m.lastSensor : Int) ≤ payload then some (schStError, s)
  else do
    let (rc, s) ← S.storagePayloadResetTable s payload
    if rc = schStOk then
      if payload < 0 then none
      else
        let (_, s) ← datSetSystemVar S.toStorage c s (m.sysIndex payload.toNat) 0
        let (_, s) ← datSetSystemVar S.toStorage c s (m.sysAck payload.toNat) 0
        return (rc, s)
    else return (rc, s)

def stepPayload (s : σ) : PayloadCall → Option (Int32 × σ)
  | .add data payload => datAddPayloadSample S.toPayloadStorage c m.toDataMap s data payload
  | .delete payload => datDeletePayload S c m s payload
  | .deleteMemorySections => datDeleteMemorySections S.toStorage c s
  | .resetStatusVars => datResetStatusVars S.toStorage c s

end

structure Sized (m : DataMap) : Prop where
  filled : ∀ p < m.lastSensor, 0 < m.size p
  size_lt : ∀ p < m.lastSensor, m.size p < 65536

/-- What the schema of an application gives: index and acknowledge variables of
    their own for each payload. -/
structure Schema (c : Config) (m : PayloadMap) : Prop extends Sized m.toDataMap where
  index_lt : ∀ p < m.lastSensor, m.sysIndex p < c.datStatusLastAddress
  ack_lt : ∀ p < m.lastSensor, m.sysAck p < c.datStatusLastAddress
  indexes : ∀ p < m.lastSensor, ∀ q < m.lastSensor, m.sysIndex p = m.sysIndex q → p = q
  acks : ∀ p < m.lastSensor, ∀ q < m.lastSensor, m.sysAck p = m.sysAck q → p = q
  apart : ∀ p < m.lastSensor, ∀ q < m.lastSensor, m.sysIndex p ≠ m.sysAck q
  listed : c.sysIndex = (List.range m.lastSensor).map m.sysIndex
  start : ∀ p < m.lastSensor, c.statusDefault (m.sysIndex p) = 0

theorem Schema.index_ne {c : Config} {m : PayloadMap} (schema : Schema c m) {p q : Nat}
    (known : p < m.lastSensor) (known' : q < m.lastSensor) (other : q ≠ p) :
    m.sysIndex q ≠ m.sysIndex p := fun eq => other (schema.indexes q known' p known eq)

theorem Schema.index_kept {c : Config} {m : PayloadMap} (schema : Schema c m) {p q : Nat}
    (known : p < m.lastSensor) (known' : q < m.lastSensor) (other : q ≠ p) :
    ¬ (m.sysIndex q = m.sysAck p ∨ m.sysIndex q = m.sysIndex p) :=
  not_or.mpr ⟨schema.apart q known' p known, schema.index_ne known known' other⟩

@[simp] theorem zero_toUInt32 : Int32.toUInt32 0 = 0 := rfl

/-! The calls over a back end that keeps the status variables in cells. -/

section
variable {σ ρ : Type} {S : PayloadTables σ} {c : Config} {m : PayloadMap} {good : σ → Prop}
  {cell : σ → Nat → Option UInt32} {rest : σ → ρ} {write : σ → Nat → UInt32 → σ} {s s₁ : σ}
  {p : Nat}

theorem datAddPayloadSample_spec (laws : StatusLaws S.toStorage c good cell rest write)
    (schema : Schema c m) (known : p < m.lastSensor) (ok : good s) {index : Int32}
    (stored : voted c (cell s) (m.sysIndex p) = some index.toUInt32) {data : List UInt8}
    (log : 4 ≤ data.length) (whole : m.size p ≤ data.length)
    (set : S.storagePayloadSetData s p index (data.take (m.size p)) (m.size p) =
      some (schStOk, s₁)) (ok₁ : good s₁) (same : cell s₁ = cell s) :
    ∃ s', datAddPayloadSample S.toPayloadStorage c m.toDataMap s data p = some (0, s') ∧
      good s' ∧ rest s' = rest s₁ ∧ ∀ j < c.datStatusLastAddress, voted c (cell s') j =
        if j = m.sysIndex p then some (index + 1).toUInt32 else voted c (cell s) j := by
  obtain ⟨s', next, ok', rest', vote⟩ :=
    datSetSystemVar_spec laws ok₁ (schema.index_lt p known) (index + 1)
  have read := datGetSystemVar_eq laws ok (schema.index_lt p known)
  rw [stored, Option.map_some, Int32.toInt32_toUInt32] at read
  refine ⟨s', ?_, ok', rest', fun j bound => ?_⟩
  · unfold datAddPayloadSample
    rw [if_pos ⟨known, log, whole⟩]
    simp [read, set, next, schStOk]
  · rw [vote j bound, same]

theorem datDeletePayload_spec (laws : StatusLaws S.toStorage c good cell rest write)
    (schema : Schema c m) (known : p < m.lastSensor)
    (reset : S.storagePayloadResetTable s p = some (schStOk, s₁)) (ok₁ : good s₁)
    (same : cell s₁ = cell s) :
    ∃ s', datDeletePayload S c m s p = some (schStOk, s') ∧ good s' ∧ rest s' = rest s₁ ∧
      ∀ j < c.datStatusLastAddress, voted c (cell s') j =
        if j = m.sysAck p ∨ j = m.sysIndex p then some 0 else voted c (cell s) j := by
  obtain ⟨s₂, index, ok₂, rest₂, vote₂⟩ :=
    datSetSystemVar_spec laws ok₁ (schema.index_lt p known) 0
  obtain ⟨s₃, ack, ok₃, rest₃, vote₃⟩ := datSetSystemVar_spec laws ok₂ (schema.ack_lt p known) 0
  refine ⟨s₃, ?_, ok₃, rest₃.trans rest₂, fun j bound => ?_⟩
  · have inside : ¬ (m.lastSensor : Int) ≤ p := by omega
    have sign : ¬ (p : Int) < 0 := by omega
    simp [datDeletePayload, inside, sign, reset, index, ack]
  · rw [vote₃ j bound, vote₂ j bound, same]
    by_cases one : j = m.sysAck p
    · simp [one]
    · by_cases two : j = m.sysIndex p <;> simp [one, two]

theorem clearSysIndexes_spec (laws : StatusLaws S.toStorage c good cell rest write)
    {indexes : List Nat} (bound : ∀ i ∈ indexes, i < c.datStatusLastAddress) (ok : good s) :
    ∃ s', clearSysIndexes S.toStorage c s indexes = some s' ∧ good s' ∧ rest s' = rest s ∧
      ∀ j < c.datStatusLastAddress, voted c (cell s') j =
        if j ∈ indexes then some 0 else voted c (cell s) j := by
  induction indexes generalizing s with
  | nil => exact ⟨s, rfl, ok, rfl, by simp⟩
  | cons i more ih =>
    obtain ⟨s₁, set, ok₁, rest₁, vote₁⟩ :=
      datSetSystemVar_spec laws ok (bound i List.mem_cons_self) 0
    obtain ⟨s₂, clear, ok₂, rest₂, vote₂⟩ :=
      ih (fun j mem => bound j (List.mem_cons_of_mem i mem)) ok₁
    refine ⟨s₂, by simp [clearSysIndexes, set, clear], ok₂, rest₂.trans rest₁, fun j hj => ?_⟩
    rw [vote₂ j hj, vote₁ j hj]
    by_cases later : j ∈ more
    · simp [later]
    · by_cases here : j = i <;> simp [later, here]

theorem datDeleteMemorySections_spec (laws : StatusLaws S.toStorage c good cell rest write)
    (schema : Schema c m) {s₂ : σ} {rc ret : Int32}
    (payloads : S.storagePayloadReset s = some (rc, s₁))
    (plan : S.storageFlightPlanReset s₁ = some (ret, s₂)) (ok₂ : good s₂)
    (same : cell s₂ = cell s) :
    ∃ s', datDeleteMemorySections S.toStorage c s = some (ret, s') ∧ good s' ∧
      rest s' = rest s₂ ∧ ∀ j < c.datStatusLastAddress, voted c (cell s') j =
        if j = c.datFplQueue ∨ ∃ p < m.lastSensor, j = m.sysIndex p then some 0
        else voted c (cell s) j := by
  have bound : ∀ i ∈ c.sysIndex, i < c.datStatusLastAddress := c.sysIndex_lt
  obtain ⟨s₃, clear, ok₃, rest₃, vote₃⟩ := clearSysIndexes_spec laws bound ok₂
  obtain ⟨s₄, queue, ok₄, rest₄, vote₄⟩ := datSetSystemVar_spec laws ok₃ c.fplQueue_lt 0
  refine ⟨s₄, by simp [datDeleteMemorySections, payloads, plan, clear, queue], ok₄,
    rest₄.trans rest₃, fun j hj => ?_⟩
  have listed : j ∈ c.sysIndex ↔ ∃ p < m.lastSensor, j = m.sysIndex p := by
    simp [schema.listed, eq_comm]
  rw [vote₄ j hj, vote₃ j hj, same]
  simp only [listed]
  by_cases one : j = c.datFplQueue <;> simp [one]

end

end PayloadCalls
