import Mathlib.Tactic.Common

/-!
A value kept in three copies. A reader takes the value that two copies agree
on, so it does not see a fault in a single one of them.
-/
namespace Replication

variable {α : Type*}

/-- The first copy if another one is equal to it, then the second one. -/
def majority [DecidableEq α] (copies : Nat → α) : α :=
  if copies 0 = copies 1 ∨ copies 0 = copies 2 then copies 0
  else if copies 1 = copies 2 then copies 1
  else copies 0

/-- All copies hold the value, except perhaps one. -/
def Masked (copies : Nat → α) (faulty : Nat) (value : α) : Prop :=
  ∀ k < 3, k ≠ faulty → copies k = value

theorem majority_of_masked [DecidableEq α] {copies : Nat → α} {faulty : Nat} {value : α}
    (masked : Masked copies faulty value) : majority copies = value := by
  unfold majority
  by_cases zero : faulty = 0
  · have one : copies 1 = value := masked 1 (by decide) (by omega)
    have two : copies 2 = value := masked 2 (by decide) (by omega)
    rw [one, two]
    split
    · rename_i agree
      exact agree.elim id id
    · rw [if_pos rfl]
  · have first : copies 0 = value := masked 0 (by decide) (by omega)
    have other : copies 1 = value ∨ copies 2 = value := by
      by_cases one : faulty = 1
      · exact .inr (masked 2 (by decide) (by omega))
      · exact .inl (masked 1 (by decide) (by omega))
    rw [if_pos (by rw [first]; exact other.imp Eq.symm Eq.symm), first]

theorem masked_of_equal {copies : Nat → α} {value : α} (equal : ∀ k < 3, copies k = value)
    (faulty : Nat) : Masked copies faulty value := fun k bound _ => equal k bound

theorem Masked.of_same {copies copies' : Nat → α} {faulty : Nat} {value : α}
    (masked : Masked copies faulty value)
    (same : ∀ k < 3, k ≠ faulty → copies' k = copies k) : Masked copies' faulty value := by
  intro k bound other
  rw [same k bound other]
  exact masked k bound other

end Replication
