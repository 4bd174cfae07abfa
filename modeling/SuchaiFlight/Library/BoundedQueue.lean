import Mathlib.Data.List.Basic

/-!
A bounded first-in first-out queue. The bound is part of the type, so no queue
holds more items than its capacity. Both operations return `none` where a task
would have to wait.
-/
namespace BoundedQueues

structure BoundedQueue (α : Type*) (capacity : Nat) where
  items : List α
  bound : items.length ≤ capacity

variable {α : Type*} {capacity : Nat}

def empty : BoundedQueue α capacity := ⟨[], Nat.zero_le _⟩

def Full (queue : BoundedQueue α capacity) : Prop := queue.items.length = capacity

instance (queue : BoundedQueue α capacity) : Decidable (Full queue) :=
  inferInstanceAs (Decidable (_ = _))

def send (queue : BoundedQueue α capacity) (item : α) : Option (BoundedQueue α capacity) :=
  if room : queue.items.length < capacity then
    some ⟨queue.items ++ [item], by rw [List.length_append]; exact room⟩
  else none

def receive (queue : BoundedQueue α capacity) : Option (α × BoundedQueue α capacity) :=
  match queue with
  | ⟨[], _⟩ => none
  | ⟨item :: rest, bound⟩ => some (item, ⟨rest, Nat.le_of_succ_le bound⟩)

theorem send_eq_some {queue next : BoundedQueue α capacity} {item : α}
    (sent : send queue item = some next) : next.items = queue.items ++ [item] := by
  simp only [send] at sent
  split at sent
  · cases sent
    rfl
  · cases sent

theorem send_eq_none_iff {queue : BoundedQueue α capacity} {item : α} :
    send queue item = none ↔ Full queue := by
  have bound := queue.bound
  simp only [send, Full]
  split
  · simp only [reduceCtorEq, false_iff]
    omega
  · simp only [true_iff]
    omega

theorem receive_eq_some {queue next : BoundedQueue α capacity} {item : α}
    (received : receive queue = some (item, next)) : queue.items = item :: next.items := by
  obtain ⟨items, bound⟩ := queue
  cases items with
  | nil => cases received
  | cons head tail =>
    cases received
    rfl

end BoundedQueues
