import SuchaiFlight.RepoData
import Mathlib.Tactic.Common

/-!
The status variables of `repoData.c` over any back end that keeps them in
cells: one copy of every variable, or three that are voted on. Seen through
the repository a variable is a place for one value, whatever the copies.
-/
namespace StatusVariables
open StorageApi RepoData

variable {σ ρ : Type} {S : Storage σ} {c : Config} {good : σ → Prop}
  {cell : σ → Nat → Option UInt32} {rest : σ → ρ} {write : σ → Nat → UInt32 → σ}

/-- `good` is what the calls need of a store, `cell` reads a cell, `none` when
    it cannot be read, `write` writes one, and `rest` is what that leaves alone. -/
structure StatusLaws (S : Storage σ) (c : Config) (good : σ → Prop)
    (cell : σ → Nat → Option UInt32) (rest : σ → ρ) (write : σ → Nat → UInt32 → σ) : Prop where
  read : ∀ s k, good s → k < statusCopies c * c.datStatusLastVar →
    readStatusCopy S s k = cell s k
  set : ∀ s k value, good s → k < statusCopies c * c.datStatusLastVar →
    S.storageStatusSetValueIdx s k value = some (schStOk, write s k value)
  good_write : ∀ s k value, good s → k < statusCopies c * c.datStatusLastVar →
    good (write s k value)
  cell_write : ∀ s k value j, good s → k < statusCopies c * c.datStatusLastVar →
    j < statusCopies c * c.datStatusLastVar →
      cell (write s k value) j = if j = k then some value else cell s j
  rest_write : ∀ s k value, rest (write s k value) = rest s

/-- The value that `dat_get_status_var` gives for the cells of a store. -/
def voted (c : Config) (cells : Nat → Option UInt32) (index : Nat) : Option UInt32 := do
  let value₁ ← cells index
  if c.schStorageTripleWr then
    let value₂ ← cells (index + c.datStatusLastAddress)
    let value₃ ← cells (index + c.datStatusLastAddress * 2)
    if value₁ = value₂ ∨ value₁ = value₃ then return value₁
    else if value₂ = value₃ then return value₂
    else return value₁
  else return value₁

theorem cells_of_variable (c : Config) {index : Nat} (bound : index < c.datStatusLastAddress) :
    index < statusCopies c * c.datStatusLastVar ∧
      (c.schStorageTripleWr = true →
        index + c.datStatusLastAddress < statusCopies c * c.datStatusLastVar ∧
          index + c.datStatusLastAddress * 2 < statusCopies c * c.datStatusLastVar) := by
  have same := c.lastVar_eq
  cases triple : c.schStorageTripleWr with
  | false =>
    simp only [statusCopies, triple, Bool.false_eq_true, ↓reduceIte]
    constructor
    · omega
    · intro no
      cases no
  | true =>
    simp only [statusCopies, triple, ↓reduceIte]
    omega

theorem datGetStatusVar_eq (laws : StatusLaws S c good cell rest write) {s : σ} (ok : good s)
    {index : Nat} (bound : index < c.datStatusLastAddress) :
    datGetStatusVar S c s index = voted c (cell s) index := by
  have same := c.lastVar_eq
  obtain ⟨one, more⟩ := cells_of_variable c bound
  unfold datGetStatusVar voted
  rw [laws.read s _ ok one, same]
  cases triple : c.schStorageTripleWr with
  | false => simp
  | true =>
    obtain ⟨two, three⟩ := more triple
    simp only [↓reduceIte]
    rw [laws.read s _ ok two, laws.read s _ ok three]

theorem datGetSystemVar_eq (laws : StatusLaws S c good cell rest write) {s : σ} (ok : good s)
    {index : Nat} (bound : index < c.datStatusLastAddress) :
    datGetSystemVar S c s index = (voted c (cell s) index).map UInt32.toInt32 := by
  rw [datGetSystemVar, datGetStatusVar_eq laws ok bound]
  cases voted c (cell s) index <;> rfl

theorem datSetStatusVar_spec (laws : StatusLaws S c good cell rest write) {s : σ} (ok : good s)
    {index : Nat} (bound : index < c.datStatusLastAddress) (value : UInt32) :
    ∃ s', datSetStatusVar S c s index value = some (schStOk, s') ∧ good s' ∧ rest s' = rest s ∧
      ∀ j < c.datStatusLastAddress, voted c (cell s') j =
        if j = index then some value else voted c (cell s) j := by
  obtain ⟨one, more⟩ := cells_of_variable c bound
  have ok₁ := laws.good_write s index value ok one
  cases triple : c.schStorageTripleWr with
  | false =>
    refine ⟨write s index value, ?_, ok₁, laws.rest_write s index value, ?_⟩
    · simp [datSetStatusVar, triple, laws.set s index value ok one]
    · intro j hj
      have inside := (cells_of_variable c hj).1
      simp only [voted, triple, laws.cell_write s index value j ok one inside]
      split <;> simp
  | true =>
    obtain ⟨two, three⟩ := more triple
    have ok₂ := laws.good_write _ _ value ok₁ two
    have ok₃ := laws.good_write _ _ value ok₂ three
    refine ⟨_, ?_, ok₃, ?_, ?_⟩
    · simp [datSetStatusVar, triple, laws.set _ _ value ok one, laws.set _ _ value ok₁ two,
        laws.set _ _ value ok₂ three, schStOk]
    · rw [laws.rest_write, laws.rest_write, laws.rest_write]
    · intro j hj
      obtain ⟨jOne, jMore⟩ := cells_of_variable c hj
      obtain ⟨jTwo, jThree⟩ := jMore triple
      -- a copy is written exactly when it belongs to the variable
      have copy : ∀ k, k < statusCopies c * c.datStatusLastVar →
          cell (write (write (write s index value) (index + c.datStatusLastAddress) value)
            (index + c.datStatusLastAddress * 2) value) k =
          if k = index ∨ k = index + c.datStatusLastAddress ∨
              k = index + c.datStatusLastAddress * 2 then some value else cell s k := by
        intro k inside
        rw [laws.cell_write _ _ _ _ ok₂ three inside, laws.cell_write _ _ _ _ ok₁ two inside,
          laws.cell_write _ _ _ _ ok one inside]
        by_cases a : k = index + c.datStatusLastAddress * 2
        · simp [a]
        · by_cases b : k = index + c.datStatusLastAddress
          · simp [b]
          · simp [a, b]
      simp only [voted, triple, ↓reduceIte, copy _ jOne, copy _ jTwo, copy _ jThree]
      by_cases eq : j = index
      · subst eq
        simp
      · have away₁ : ¬ (j = index ∨ j = index + c.datStatusLastAddress ∨
            j = index + c.datStatusLastAddress * 2) := by omega
        have away₂ : ¬ (j + c.datStatusLastAddress = index ∨
            j + c.datStatusLastAddress = index + c.datStatusLastAddress ∨
            j + c.datStatusLastAddress = index + c.datStatusLastAddress * 2) := by omega
        have away₃ : ¬ (j + c.datStatusLastAddress * 2 = index ∨
            j + c.datStatusLastAddress * 2 = index + c.datStatusLastAddress ∨
            j + c.datStatusLastAddress * 2 = index + c.datStatusLastAddress * 2) := by omega
        rw [if_neg away₁, if_neg away₂, if_neg away₃, if_neg eq]

theorem datSetSystemVar_spec (laws : StatusLaws S c good cell rest write) {s : σ} (ok : good s)
    {index : Nat} (bound : index < c.datStatusLastAddress) (value : Int32) :
    ∃ s', datSetSystemVar S c s index value = some (schStOk, s') ∧ good s' ∧ rest s' = rest s ∧
      ∀ j < c.datStatusLastAddress, voted c (cell s') j =
        if j = index then some value.toUInt32 else voted c (cell s) j :=
  datSetStatusVar_spec laws ok bound value.toUInt32

theorem datSetSystemVar_reads (laws : StatusLaws S c good cell rest write) {s s' : σ} (ok : good s)
    {index : Nat} (bound : index < c.datStatusLastAddress) {value rc : Int32}
    (run : datSetSystemVar S c s index value = some (rc, s')) :
    good s' ∧ ∀ j < c.datStatusLastAddress, datGetSystemVar S c s' j =
      if j = index then some value else datGetSystemVar S c s j := by
  obtain ⟨u, set, ok', -, vote⟩ := datSetSystemVar_spec laws ok bound value
  obtain ⟨-, rfl⟩ := Prod.mk.inj (Option.some.inj (set.symm.trans run))
  refine ⟨ok', fun j inside => ?_⟩
  rw [datGetSystemVar_eq laws ok' inside, datGetSystemVar_eq laws ok inside, vote j inside]
  split
  · simp
  · rfl

theorem resetStatusVars_spec (laws : StatusLaws S c good cell rest write) {s : σ} (ok : good s)
    (indexes : List Nat) (bound : ∀ i ∈ indexes, i < c.datStatusLastAddress) :
    ∃ s', resetStatusVars S c s indexes = some (schStOk, s') ∧ good s' ∧ rest s' = rest s ∧
      ∀ j < c.datStatusLastAddress, voted c (cell s') j =
        if j ∈ indexes then some (c.statusDefault j) else voted c (cell s) j := by
  induction indexes generalizing s with
  | nil => exact ⟨s, rfl, ok, rfl, by simp⟩
  | cons i more ih =>
    obtain ⟨s₁, set, ok₁, rest₁, vote₁⟩ :=
      datSetStatusVar_spec laws ok (bound i List.mem_cons_self) (c.statusDefault i)
    obtain ⟨s₂, reset, ok₂, rest₂, vote₂⟩ := ih ok₁ fun j mem => bound j (List.mem_cons_of_mem _ mem)
    refine ⟨s₂, ?_, ok₂, rest₂.trans rest₁, ?_⟩
    · simp [resetStatusVars, set, reset, schStOk]
    · intro j hj
      rw [vote₂ j hj, vote₁ j hj]
      by_cases later : j ∈ more
      · simp [later]
      · by_cases here : j = i
        · simp [here]
        · simp [later, here]

theorem datResetStatusVars_spec (laws : StatusLaws S c good cell rest write) {s : σ} (ok : good s) :
    ∃ s', datResetStatusVars S c s = some (schStOk, s') ∧ good s' ∧ rest s' = rest s ∧
      ∀ j < c.datStatusLastAddress, voted c (cell s') j = some (c.statusDefault j) := by
  obtain ⟨s', reset, ok', same, vote⟩ :=
    resetStatusVars_spec laws ok (List.range c.datStatusLastAddress) fun i mem => List.mem_range.mp mem
  refine ⟨s', ?_, ok', same, ?_⟩
  · simp [datResetStatusVars, reset]
  · intro j hj
    rw [vote j hj, if_pos (List.mem_range.mpr hj)]

end StatusVariables
