import Mathlib.Data.List.Basic
import Mathlib.Data.List.Range
import Mathlib.Data.Nat.ModEq

/-!
A ring of cells: `items` cells from index `out` on, taken modulo the size, hold
the contents in order. The cells outside hold anything.
-/
namespace RingCells

variable {α : Type*} {cells cells' : Nat → α} {size out items i j : Nat}

def place (size out k : Nat) : Nat := (out + k) % size

def contents (cells : Nat → α) (size out items : Nat) : List α :=
  (List.range items).map fun k => cells (place size out k)

@[simp] theorem contents_length : (contents cells size out items).length = items := by
  simp [contents]

theorem place_lt (pos : 0 < size) : place size out i < size := Nat.mod_lt _ pos

theorem place_injective (left : i < size) (right : j < size)
    (same : place size out i = place size out j) : i = j := by
  have congruent : i ≡ j [MOD size] := Nat.ModEq.add_left_cancel' out same
  exact Nat.ModEq.eq_of_lt_of_lt congruent left right

theorem place_advance : place size ((out + 1) % size) i = place size out (i + 1) := by
  simp only [place, Nat.mod_add_mod]
  congr 1
  omega

theorem place_end : (place size out items + 1) % size = place size out (items + 1) := by
  simp only [place, Nat.mod_add_mod]
  congr 1

theorem contents_congr (same : ∀ k < items, cells (place size out k) = cells' (place size out k)) :
    contents cells size out items = contents cells' size out items := by
  simp only [contents, List.map_inj_left, List.mem_range]
  exact same

theorem contents_push :
    contents cells size out (items + 1) =
      contents cells size out items ++ [cells (place size out items)] := by
  simp [contents, List.range_succ]

theorem contents_pop :
    contents cells size out (items + 1) =
      cells (place size out 0) :: contents cells size ((out + 1) % size) items := by
  simp only [contents, List.range_succ_eq_map, List.map_cons, List.map_map, place_advance]
  rfl

theorem contents_frame (room : items < size)
    (same : ∀ p, p ≠ place size out items → p < size → cells p = cells' p) :
    contents cells size out items = contents cells' size out items := by
  apply contents_congr
  intro k bound
  apply same _ _ (place_lt (by omega))
  intro end_
  have := place_injective (by omega) room end_
  omega

end RingCells
