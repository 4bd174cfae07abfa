import SuchaiFlight.FlatMatrices
import Mathlib.Tactic.Linarith

/-!
`_mat_copy`, which places a matrix as a block in another one. It multiplies both
row numbers by a number of rows, where the rows of an array are as long as its
number of columns.
-/
namespace MatrixBlocks
open CountedLoops RowMajor FlatMatrices

variable {K : Type} {matx maty resx resy pI pJ : Nat}

structure Places (mat res b : List K) (matx maty resx resy pI pJ : Nat) : Prop where
  length : b.length = resx * resy
  block : ∀ i < matx, ∀ j < maty, b[resy * (pI + i) + (pJ + j)]? = mat[maty * i + j]?
  frame : ∀ r < resx, ∀ c < resy, ¬ (pI ≤ r ∧ r < pI + matx ∧ pJ ≤ c ∧ c < pJ + maty) →
    b[resy * r + c]? = res[resy * r + c]?

/-- On these shapes and offsets the strides of `_mat_copy` are the lengths of the
    rows, or of a first row only, and the last index is an `int`. -/
def Copyable (matx maty resx resy pI pJ : Nat) : Prop :=
  (matx = 1 ∧ pI = 0) ∨ ((matx = 1 ∨ matx = maty) ∧ resx = resy ∧
    resx * (matx - 1 + pI) + (maty - 1) + pJ < 2147483648)

instance : Decidable (Copyable matx maty resx resy pI pJ) :=
  inferInstanceAs (Decidable (_ ∨ _))

def CopyPlaces (K : Type) (matx maty resx resy pI pJ : Nat) : Prop :=
  ∀ mat res : List K, mat.length = matx * maty → res.length = resx * resy →
    ∃ b, matCopy mat res matx maty resx resy pI pJ = some b ∧
      Places mat res b matx maty resx resy pI pJ

/-! Where the strides are right. -/

theorem Copyable.source (copyable : Copyable matx maty resx resy pI pJ) {i j : Nat}
    (row : i < matx) : matx * i + j = maty * i + j := by
  rcases copyable with ⟨rfl, -⟩ | ⟨rfl | rfl, -⟩
  · obtain rfl : i = 0 := by omega
    simp
  · obtain rfl : i = 0 := by omega
    simp
  · rfl

theorem Copyable.target (copyable : Copyable matx maty resx resy pI pJ) {i j : Nat}
    (row : i < matx) : resx * (i + pI) + j + pJ = resy * (pI + i) + (pJ + j) := by
  rcases copyable with ⟨rfl, rfl⟩ | ⟨-, rfl, -⟩
  · obtain rfl : i = 0 := by omega
    simp [Nat.add_comm]
  · rw [Nat.add_comm pI i]
    omega

theorem Copyable.target_int (copyable : Copyable matx maty resx resy pI pJ) {i j : Nat}
    (row : i < matx) (column : j < maty) (columns : pJ + maty ≤ resy) (int : resy < 2147483648) :
    resx * (i + pI) + j + pJ < 2147483648 := by
  rcases copyable with ⟨rfl, rfl⟩ | ⟨-, rfl, last⟩
  · obtain rfl : i = 0 := by omega
    simp only [Nat.add_zero, Nat.mul_zero]
    omega
  · have rows : resx * (i + pI) ≤ resx * (matx - 1 + pI) := Nat.mul_le_mul_left _ (by omega)
    omega

theorem copy_places (copyable : Copyable matx maty resx resy pI pJ) (rows : pI + matx ≤ resx)
    (columns : pJ + maty ≤ resy) (int : resy < 2147483648) :
    CopyPlaces K matx maty resx resy pI pJ := by
  intro mat res hmat hres
  have inside : ∀ i < matx, ∀ j < maty, resy * (pI + i) + (pJ + j) < resx * resy :=
    fun i row j column => cell_lt (by omega) (by omega)
  have source : ∀ i < matx, ∀ j < maty,
      matx * i + j < mat.length ∧ matx * i + j < 2147483648 := by
    intro i row j column
    have below : maty * i + j < matx * maty := cell_lt row column
    have small := copyable.target_int row column columns int
    have shorter : maty * i ≤ resy * (pI + i) := Nat.mul_le_mul (by omega) (by omega)
    rw [copyable.target row] at small
    rw [copyable.source row, hmat]
    exact ⟨below, by omega⟩
  have target : ∀ i < matx, ∀ j < maty,
      resx * (i + pI) + j + pJ < res.length ∧ resx * (i + pI) + j + pJ < 2147483648 := by
    intro i row j column
    refine ⟨?_, copyable.target_int row column columns int⟩
    rw [copyable.target row, hres]
    exact inside i row j column
  obtain ⟨b, run, filled⟩ := matCopy_filled resy source target (by
    intro i row j column i' row' j' column' same
    rw [copyable.target row, copyable.target row'] at same
    have eq := cell_injective (by omega) (by omega) same
    omega)
  refine ⟨b, run, filled.length.trans hres, ?_, ?_⟩
  · intro i row j column
    have cell := filled.written (i, j) ⟨row, column⟩
    simp only [copyable.target row, copyable.source row] at cell
    exact cell
  · intro r hr c hc outside
    apply filled.frame
    rintro ⟨i, j⟩ ⟨row, column⟩ same
    simp only [copyable.target row] at same
    have eq := cell_injective (by omega) (by omega) same
    omega

def withBlock {n m k l : Nat} (M : Matrix (Fin n) (Fin m) K) (R : Matrix (Fin k) (Fin l) K)
    (pI pJ : Nat) : Matrix (Fin k) (Fin l) K := fun r c =>
  if inside : (pI ≤ r ∧ r < pI + n) ∧ pJ ≤ c ∧ c < pJ + m then
    M ⟨r - pI, by omega⟩ ⟨c - pJ, by omega⟩
  else R r c

theorem matCopy_flat {n m k l : Nat} (M : Matrix (Fin n) (Fin m) K) (R : Matrix (Fin k) (Fin l) K)
    (copyable : Copyable n m k l pI pJ) (rows : pI + n ≤ k) (columns : pJ + m ≤ l)
    (int : l < 2147483648) :
    matCopy (flat M) (flat R) n m k l pI pJ = some (flat (withBlock M R pI pJ)) := by
  obtain ⟨b, run, placed⟩ := copy_places copyable rows columns int (flat M) (flat R)
    (length_flat M) (length_flat R)
  rw [run]
  congr 1
  apply eq_flat placed.length
  intro r c
  unfold withBlock
  split
  · rename_i inside
    have cell := placed.block (r - pI) (by omega) (c - pJ) (by omega)
    have row : pI + (r.val - pI) = r := by omega
    have column : pJ + (c.val - pJ) = c := by omega
    rw [row, column, flat_cell M (by omega) (by omega)] at cell
    exact cell
  · rename_i outside
    rw [placed.frame r r.isLt c c.isLt (by omega), flat_cell R r.isLt c.isLt]

/-! Where they are wrong. -/

theorem copy_last {mat res b : List K} (hx : 1 ≤ matx) (hy : 1 ≤ maty)
    (run : matCopy mat res matx maty resx resy pI pJ = some b) :
    matx * (matx - 1) < mat.length ∧ resx * (matx - 1 + pI) + (maty - 1) + pJ < 2147483648 := by
  obtain ⟨u, v, row⟩ := upTo_passes run (i := matx - 1) (by omega)
  constructor
  · obtain ⟨u, v, cell⟩ := upTo_passes row (i := 0) (by omega)
    obtain ⟨iMat, found, cell⟩ := Option.bind_eq_some_iff.mp cell
    obtain ⟨-, rfl⟩ := index_eq_some found
    obtain ⟨iRes, -, cell⟩ := Option.bind_eq_some_iff.mp cell
    obtain ⟨x, entry, -⟩ := Option.bind_eq_some_iff.mp cell
    exact (List.getElem?_eq_some_iff.mp entry).1
  · obtain ⟨u, v, cell⟩ := upTo_passes row (i := maty - 1) (by omega)
    obtain ⟨iMat, -, cell⟩ := Option.bind_eq_some_iff.mp cell
    obtain ⟨iRes, found, -⟩ := Option.bind_eq_some_iff.mp cell
    exact (index_eq_some found).1

theorem copy_writes {mat res b : List K} {x : K} {cell : Nat}
    (run : matCopy mat res matx maty resx resy pI pJ = some b) (before : res[cell]? = some x)
    (after : b[cell]? ≠ some x) :
    ∃ i < matx, ∃ j < maty, resx * (i + pI) + j + pJ = cell ∧
      ∃ y, mat[matx * i + j]? = some y ∧ y ≠ x := by
  by_contra none
  simp only [not_exists, not_and] at none
  apply after
  apply upTo_invariant (I := fun _ b => b[cell]? = some x) run before
  intro i row b t holds inner
  apply upTo_invariant (I := fun _ b => b[cell]? = some x) inner holds
  intro j column b t holds pass
  obtain ⟨iMat, found, pass⟩ := Option.bind_eq_some_iff.mp pass
  obtain ⟨-, rfl⟩ := index_eq_some found
  obtain ⟨iRes, found', pass⟩ := Option.bind_eq_some_iff.mp pass
  obtain ⟨-, rfl⟩ := index_eq_some found'
  obtain ⟨y, entry, stored⟩ := Option.bind_eq_some_iff.mp pass
  obtain ⟨inside, rfl⟩ := store_eq_some stored
  by_cases here : resx * (i + pI) + j + pJ = cell
  · have same : y = x := by_contra (none i row j column here y entry)
    rw [← here, List.getElem?_set_self inside, same]
  · rw [List.getElem?_set_ne here]
    exact holds

theorem last_source {i j : Nat} (hx : 1 ≤ matx) (hy : 1 ≤ maty) (row : i < matx)
    (column : j < maty) (inside : matx * (matx - 1) < matx * maty)
    (last : matx * i + j = maty * (matx - 1) + (maty - 1)) :
    (matx = 1 ∨ matx = maty) ∧ i = matx - 1 ∧ j = maty - 1 := by
  by_cases single : matx = 1
  · subst single
    simp only [Nat.sub_self, Nat.mul_zero, Nat.zero_add] at last
    omega
  · have wide : matx - 1 < maty := Nat.lt_of_mul_lt_mul_left inside
    have square : matx = maty := by
      by_contra other
      have longer : matx + 1 ≤ maty := by omega
      have top : matx * i ≤ matx * (matx - 1) := Nat.mul_le_mul_left _ (by omega)
      have more : (matx + 1) * (matx - 1) ≤ maty * (matx - 1) := Nat.mul_le_mul_right _ longer
      rw [Nat.add_mul, Nat.one_mul] at more
      omega
    subst square
    have eq := cell_injective column (show matx - 1 < matx by omega) last
    exact ⟨.inr rfl, eq⟩

theorem copyable_of_copyPlaces [Nontrivial K] (hx : 1 ≤ matx) (hy : 1 ≤ maty)
    (rows : pI + matx ≤ resx) (columns : pJ + maty ≤ resy)
    (places : CopyPlaces K matx maty resx resy pI pJ) :
    Copyable matx maty resx resy pI pJ := by
  obtain ⟨x, y, differ⟩ := exists_pair_ne K
  have last : maty * (matx - 1) + (maty - 1) < matx * maty := cell_lt (by omega) (by omega)
  have corner : resy * (pI + (matx - 1)) + (pJ + (maty - 1)) < resx * resy :=
    cell_lt (by omega) (by omega)
  obtain ⟨b, run, placed⟩ := places
    ((List.replicate (matx * maty) x).set (maty * (matx - 1) + (maty - 1)) y)
    (List.replicate (resx * resy) x) (by simp) (by simp)
  obtain ⟨inMat, int⟩ := copy_last hx hy run
  have after := placed.block (matx - 1) (by omega) (maty - 1) (by omega)
  rw [List.getElem?_set_self (by simpa using last)] at after
  obtain ⟨i, row, j, column, target, z, entry, other⟩ := copy_writes run
    (List.getElem?_replicate_of_lt corner) (by simp [after, differ.symm])
  have source : matx * i + j = maty * (matx - 1) + (maty - 1) := by
    by_contra elsewhere
    rw [List.getElem?_set_ne (Ne.symm elsewhere), List.getElem?_eq_some_iff] at entry
    obtain ⟨inside, rfl⟩ := entry
    exact other (by simp)
  rw [List.length_set, List.length_replicate] at inMat
  obtain ⟨square, rfl, rfl⟩ := last_source hx hy row column inMat source
  have strides : resx * (matx - 1 + pI) = resy * (matx - 1 + pI) := by
    rw [Nat.add_comm pI] at target
    omega
  by_cases first : matx - 1 + pI = 0
  · exact .inl ⟨by omega, by omega⟩
  · exact .inr ⟨square, Nat.eq_of_mul_eq_mul_right (by omega) strides, int⟩

theorem copy_places_iff [Nontrivial K] (hx : 1 ≤ matx) (hy : 1 ≤ maty) (rows : pI + matx ≤ resx)
    (columns : pJ + maty ≤ resy) (int : resy < 2147483648) :
    CopyPlaces K matx maty resx resy pI pJ ↔ Copyable matx maty resx resy pI pJ :=
  ⟨copyable_of_copyPlaces hx hy rows columns, fun copyable => copy_places copyable rows columns int⟩

theorem square_block_placed : CopyPlaces ℚ 3 3 6 6 0 3 :=
  (copy_places_iff (by decide) (by decide) (by decide) (by decide) (by decide)).mpr (by decide)

/-- The block of its 3 x 6 Jacobian: the second row of the block is written
    behind the first one, in row 0. -/
theorem jacobian_block_not_placed :
    matCopy (List.ofFn fun i : Fin 9 => (i.val + 1 : ℚ)) (List.replicate 18 0) 3 3 3 6 0 0 =
        some [1, 2, 3, 4, 5, 6, 7, 8, 9, 0, 0, 0, 0, 0, 0, 0, 0, 0] ∧
      ¬ CopyPlaces ℚ 3 3 3 6 0 0 := by
  constructor
  · decide +kernel
  · intro places
    have copyable := copyable_of_copyPlaces (by decide) (by decide) (by decide) (by decide) places
    revert copyable
    decide

end MatrixBlocks
