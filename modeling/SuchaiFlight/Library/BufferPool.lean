import Mathlib.Algebra.BigOperators.Group.Finset.Basic
import Mathlib.Data.Fintype.Card
import Mathlib.Logic.Function.Basic

/-!
A pool of buffers, each with one owner: nobody, the program, or a library that
the program has handed it to. A buffer moves only from the owner that it has,
so a second `release` of one buffer is not possible.
-/
namespace BufferPools

inductive Owner where
  | free
  | held
  | handed
  deriving DecidableEq

abbrev Pool (β : Type) := β → Owner

variable {β : Type} [DecidableEq β]

def move (source target : Owner) (pool : Pool β) (b : β) : Option (Pool β) :=
  if pool b = source then some (Function.update pool b target) else none

def take : Pool β → β → Option (Pool β) := move .free .held
def release : Pool β → β → Option (Pool β) := move .held .free
def handOver : Pool β → β → Option (Pool β) := move .held .handed
def claim : Pool β → β → Option (Pool β) := move .handed .held

variable {pool next : Pool β} {source target : Owner} {b : β}

theorem move_eq_some (moved : move source target pool b = some next) :
    pool b = source ∧ next = Function.update pool b target := by
  simp only [move] at moved
  split at moved
  · rename_i owned
    cases moved
    exact ⟨owned, rfl⟩
  · cases moved

theorem move_of_owner (owned : pool b = source) :
    move source target pool b = some (Function.update pool b target) := if_pos owned

section Count
variable [Fintype β]

def count (owner : Owner) (pool : Pool β) : Nat := ∑ b, if pool b = owner then 1 else 0

theorem count_move (moved : move source target pool b = some next) (owner : Owner) :
    count owner next + (if source = owner then 1 else 0) =
      count owner pool + if target = owner then 1 else 0 := by
  obtain ⟨owned, rfl⟩ := move_eq_some moved
  have rest : (∑ x ∈ Finset.univ.erase b,
        if Function.update pool b target x = owner then 1 else 0) =
      ∑ x ∈ Finset.univ.erase b, if pool x = owner then 1 else 0 :=
    Finset.sum_congr rfl fun x mem => by rw [Function.update_of_ne (Finset.ne_of_mem_erase mem)]
  simp only [count]
  rw [← Finset.add_sum_erase _ _ (Finset.mem_univ b), ← Finset.add_sum_erase _ _ (Finset.mem_univ b),
    rest, Function.update_self, owned]
  omega

theorem move_total (owned : pool b = source) (target : Owner) :
    ∃ next, move source target pool b = some next ∧ next b = target ∧
      (∀ x, x ≠ b → next x = pool x) ∧
      ∀ owner, count owner next + (if source = owner then 1 else 0) =
        count owner pool + if target = owner then 1 else 0 :=
  ⟨_, move_of_owner owned, Function.update_self _ _ _, fun _ other => Function.update_of_ne other _ _,
    count_move (move_of_owner owned)⟩

theorem take_spec (free : pool b = .free) :
    ∃ taken, take pool b = some taken ∧ taken b = .held ∧
      (∀ x, pool x = .held → x ≠ b ∧ taken x = .held) ∧
      count .held taken = count .held pool + 1 := by
  obtain ⟨taken, took, now, others, counts⟩ := move_total free .held
  refine ⟨taken, took, now, fun x held => ?_, by simpa using counts .held⟩
  have other : x ≠ b := by
    rintro rfl
    rw [free] at held
    cases held
  exact ⟨other, (others x other).trans held⟩

/-- A buffer that is taken and given away again leaves the others as they were. -/
theorem take_away (free : pool b = .free) (away : target ≠ .held) :
    ∃ taken next, take pool b = some taken ∧ move .held target taken b = some next ∧
      (∀ x, pool x = .held → next x = .held) ∧ count .held next = count .held pool := by
  obtain ⟨taken, took, now, keeps, counted⟩ := take_spec free
  obtain ⟨next, gave, -, others, counts⟩ := move_total now target
  refine ⟨taken, next, took, gave, fun x held => ?_, ?_⟩
  · obtain ⟨other, still⟩ := keeps x held
    exact (others x other).trans still
  · have after := counts .held
    rw [if_pos rfl, if_neg away, counted] at after
    omega

omit [DecidableEq β] in
theorem count_owners (pool : Pool β) :
    count .held pool + count .free pool + count .handed pool = Fintype.card β := by
  have one : ∀ x : β, (if pool x = .held then 1 else 0) + (if pool x = .free then 1 else 0) +
      (if pool x = .handed then 1 else 0) = 1 := by
    intro x
    cases pool x <;> rfl
  simp only [count, ← Finset.sum_add_distrib, one]
  simp

theorem count_pos (owned : pool b = source) : 0 < count source pool := by
  rw [count, ← Finset.add_sum_erase _ _ (Finset.mem_univ b), if_pos owned]
  omega

end Count
end BufferPools
