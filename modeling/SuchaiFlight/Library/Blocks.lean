import Mathlib.Data.List.DropRight
import Mathlib.Tactic.Common

/-!
Lists cut into blocks of a fixed size, the last one possibly shorter, and
blocks filled up to that size with a padding value.
-/
namespace Blocks

variable {α : Type*} {size : Nat}

def blockCount (size n : Nat) : Nat := n / size + if n % size = 0 then 0 else 1

def block (size : Nat) (l : List α) (i : Nat) : List α := (l.drop (size * i)).take size

def padded (size : Nat) (pad : α) (l : List α) : List α :=
  l.take size ++ List.replicate (size - l.length) pad

def trimmed [DecidableEq α] (pad : α) (l : List α) : List α := l.rdropWhile (· = pad)

theorem padded_length (pad : α) (l : List α) : (padded size pad l).length = size := by
  simp only [padded, List.length_append, List.length_take, List.length_replicate]
  omega

theorem padded_of_length (pad : α) {l : List α} (full : l.length = size) :
    padded size pad l = l := by
  simp [padded, ← full]

theorem take_append_block (l : List α) (i : Nat) :
    l.take (size * i) ++ block size l i = l.take (size * (i + 1)) := by
  rw [block, Nat.mul_succ, List.take_add]

theorem flatMap_block (l : List α) (k : Nat) :
    (List.range k).flatMap (block size l) = l.take (size * k) := by
  induction k with
  | zero => simp
  | succ k ih =>
    rw [List.range_succ, List.flatMap_append, ih, List.flatMap_singleton, take_append_block]

theorem block_last {l : List α} {i : Nat} (ends : l.length ≤ size * (i + 1)) :
    block size l i = l.drop (size * i) := by
  apply List.take_of_length_le
  rw [Nat.mul_succ] at ends
  rw [List.length_drop]
  omega

theorem block_length (size : Nat) (l : List α) (i : Nat) :
    (block size l i).length = min size (l.length - size * i) := by
  simp [block]

theorem block_take_succ {l : List α} {i j : Nat} (inBlock : j < size)
    (inside : size * i + j < l.length) :
    (block size l i).take (j + 1) = (block size l i).take j ++ [l[size * i + j]] := by
  have bound : j < (block size l i).length := by
    rw [block_length]
    omega
  rw [List.take_succ_eq_append_getElem bound]
  congr 2
  simp [block]

theorem block_length_le (size : Nat) (l : List α) (i : Nat) : (block size l i).length ≤ size :=
  List.length_take_le _ _

theorem block_drop (l : List α) (i : Nat) : block size (l.drop size) i = block size l (i + 1) := by
  simp only [block, List.drop_drop]
  congr 2
  rw [Nat.mul_succ, Nat.add_comm]

theorem block_take_drop {l : List α} {first count i : Nat}
    (whole : size ∣ count ∨ l.length ≤ size * first + count) (before : size * i < count) :
    block size ((l.drop (size * first)).take count) i = block size l (first + i) := by
  have skipped : size * first + size * i = size * (first + i) := (Nat.mul_add ..).symm
  simp only [block, List.drop_take, List.take_take, List.drop_drop, skipped]
  obtain ⟨blocks, rfl⟩ | ends := whole
  · have more := Nat.mul_le_mul_left size (Nat.succ_le_of_lt (Nat.lt_of_mul_lt_mul_left before))
    rw [Nat.mul_succ] at more
    rw [Nat.min_eq_left (by omega)]
  · have short : (l.drop (size * (first + i))).length ≤ count - size * i := by
      rw [List.length_drop]
      omega
    rcases Nat.le_total size (count - size * i) with fits | cut
    · rw [Nat.min_eq_left fits]
    · rw [Nat.min_eq_right cut, List.take_of_length_le short,
        List.take_of_length_le (by omega)]

theorem lt_blockCount_iff (pos : 0 < size) {n i : Nat} : i < blockCount size n ↔ size * i < n := by
  have split := Nat.div_add_mod n size
  have small := Nat.mod_lt n pos
  simp only [blockCount]
  constructor
  · intro before
    have le : i ≤ n / size := by split at before <;> omega
    have := Nat.mul_le_mul_left size le
    rcases Nat.lt_or_eq_of_le le with lt | rfl
    · have := Nat.mul_le_mul_left size (Nat.succ_le_of_lt lt)
      rw [Nat.mul_succ] at this
      omega
    · split at before <;> omega
  · intro before
    by_contra after
    have le : n / size ≤ i := by split at after <;> omega
    have := Nat.mul_le_mul_left size le
    split at after
    · omega
    · have more : n / size + 1 ≤ i := by omega
      have := Nat.mul_le_mul_left size more
      rw [Nat.mul_succ] at this
      omega

theorem blockCount_step (pos : 0 < size) {n : Nat} (present : 0 < n) :
    blockCount size n = blockCount size (n - size) + 1 := by
  have same : ∀ i, i < blockCount size n ↔ i < blockCount size (n - size) + 1 := by
    intro i
    rw [lt_blockCount_iff pos]
    cases i with
    | zero => simp [present]
    | succ i =>
      rw [Nat.add_lt_add_iff_right, lt_blockCount_iff pos, Nat.mul_succ]
      omega
  exact Nat.le_antisymm (Nat.le_of_not_lt fun lt => absurd ((same _).mp lt) (lt_irrefl _))
    (Nat.le_of_not_lt fun lt => absurd ((same _).mpr lt) (lt_irrefl _))

theorem blockCount_drop (pos : 0 < size) {l : List α} (present : l ≠ []) :
    blockCount size l.length = blockCount size (l.drop size).length + 1 := by
  rw [List.length_drop]
  exact blockCount_step pos (List.length_pos_of_ne_nil present)

theorem blockCount_one (pos : 0 < size) {n : Nat} (present : 0 < n) (fits : n ≤ size) :
    blockCount size n = 1 := by
  rw [blockCount_step pos present, Nat.sub_eq_zero_of_le fits]
  simp [blockCount]

theorem flatMap_blocks (pos : 0 < size) (l : List α) :
    (List.range (blockCount size l.length)).flatMap (block size l) = l := by
  have stop := (lt_blockCount_iff pos (n := l.length)).not.mp (lt_irrefl _)
  rw [flatMap_block, List.take_of_length_le (by omega)]

theorem min_mul_ne (pos : 0 < size) {n l : Nat} (low : size * (n / size) < l) (high : l < n)
    (k : Nat) : min (size * k) n ≠ l := by
  have upper := Nat.lt_mul_div_succ n pos
  rcases Nat.lt_or_ge (n / size) k with above | below
  · have := Nat.mul_le_mul_left size (Nat.succ_le_of_lt above)
    rw [Nat.mul_succ] at this upper
    omega
  · have := Nat.mul_le_mul_left size below
    omega

/-! Blocks of the same length, one behind the other. -/

theorem flatten_length {blocks : List (List α)} (sizes : ∀ b ∈ blocks, b.length = size) :
    blocks.flatten.length = blocks.length * size := by
  have same : blocks.map List.length = List.replicate blocks.length size :=
    List.map_eq_replicate_iff.mpr sizes
  rw [List.length_flatten, same, List.sum_replicate_nat]

theorem take_drop_flatten {blocks : List (List α)} (sizes : ∀ b ∈ blocks, b.length = size)
    (rest : List α) :
    ∀ j (inside : j < blocks.length),
      ((blocks.flatten ++ rest).drop (j * size)).take size = blocks[j] := by
  induction blocks with
  | nil =>
    intro j inside
    exact absurd inside (Nat.not_lt_zero j)
  | cons b blocks ih =>
    have here := sizes b List.mem_cons_self
    intro j inside
    rw [List.flatten_cons, List.append_assoc]
    cases j with
    | zero => simp [← here]
    | succ j =>
      have skip : (j + 1) * size = b.length + j * size := by
        rw [Nat.succ_mul, here]
        omega
      rw [skip, List.drop_length_add_append]
      exact ih (fun b' mem => sizes b' (List.mem_cons_of_mem b mem)) j
        (Nat.lt_of_succ_lt_succ inside)

theorem flatten_injective (pos : 0 < size) {xs ys : List (List α)}
    (sizes : ∀ b ∈ xs, b.length = size) (sizes' : ∀ b ∈ ys, b.length = size)
    (same : xs.flatten = ys.flatten) : xs = ys := by
  have count : xs.length = ys.length := by
    have total := congrArg List.length same
    rw [flatten_length sizes, flatten_length sizes'] at total
    exact Nat.eq_of_mul_eq_mul_right pos total
  refine List.ext_getElem count fun j inside inside' => ?_
  have one := take_drop_flatten sizes [] j inside
  have other := take_drop_flatten sizes' [] j inside'
  rw [same] at one
  rw [← one, other]

/-! Padding. -/

theorem trimmed_isPrefix_self [DecidableEq α] (pad : α) (l : List α) : trimmed pad l <+: l :=
  List.rdropWhile_prefix _ _

theorem trimmed_eq_nil_iff [DecidableEq α] (pad : α) (l : List α) :
    trimmed pad l = [] ↔ ∀ b ∈ l, b = pad := by
  simp [trimmed]

theorem trimmed_eq_self_iff [DecidableEq α] (pad : α) (l : List α) :
    trimmed pad l = l ↔ l.getLast? ≠ some pad := by
  rw [trimmed, List.rdropWhile_eq_self_iff]
  cases l with
  | nil => simp
  | cons b rest => simp [List.getLast?_eq_some_getLast]

theorem trimmed_padded [DecidableEq α] (pad : α) {l : List α} (fits : l.length ≤ size) :
    trimmed pad (padded size pad l) = trimmed pad l := by
  rw [padded, List.take_of_length_le fits]
  generalize size - l.length = k
  induction k with
  | zero => simp
  | succ k ih =>
    rw [List.replicate_succ', ← List.append_assoc, trimmed,
      List.rdropWhile_concat_pos _ _ _ (by simp)]
    exact ih

end Blocks
