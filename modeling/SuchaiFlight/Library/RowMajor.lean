import SuchaiFlight.Library.CountedLoops
import Mathlib.LinearAlgebra.Matrix.Notation

/-!
Matrices stored in arrays row by row, and what loops over such arrays leave.
-/
namespace RowMajor
open CountedLoops

variable {K : Type*} {n m : Nat}

def flat (M : Matrix (Fin n) (Fin m) K) : List K :=
  List.ofFn fun k : Fin (n * m) => M k.divNat k.modNat

@[simp] theorem length_flat (M : Matrix (Fin n) (Fin m) K) : (flat M).length = n * m :=
  List.length_ofFn

theorem cell_lt {i j : Nat} (row : i < n) (column : j < m) : m * i + j < n * m :=
  calc m * i + j < m * i + m := Nat.add_lt_add_left column _
    _ = m * (i + 1) := (Nat.mul_succ m i).symm
    _ ≤ m * n := Nat.mul_le_mul_left m row
    _ = n * m := Nat.mul_comm m n

theorem cell_inside {a : List K} {i j : Nat} (length : a.length = n * m) (row : i < n)
    (column : j < m) : m * i + j < a.length := by
  rw [length]
  exact cell_lt row column

theorem cell_injective {i j i' j' : Nat} (column : j < m) (column' : j' < m)
    (same : m * i + j = m * i' + j') : i = i' ∧ j = j' := by
  have pos : 0 < m := by omega
  have rows := congrArg (· / m) same
  have columns := congrArg (· % m) same
  simp only [Nat.mul_add_div pos, Nat.div_eq_of_lt column, Nat.div_eq_of_lt column',
    Nat.mul_add_mod, Nat.mod_eq_of_lt column, Nat.mod_eq_of_lt column'] at rows columns
  omega

theorem flat_cell (M : Matrix (Fin n) (Fin m) K) {i j : Nat} (row : i < n) (column : j < m) :
    (flat M)[m * i + j]? = some (M ⟨i, row⟩ ⟨j, column⟩) := by
  have pos : 0 < m := by omega
  have inside := cell_lt row column
  rw [flat, List.getElem?_ofFn, dif_pos inside]
  congr 2
  · apply Fin.ext
    rw [Fin.coe_divNat, Nat.mul_add_div pos, Nat.div_eq_of_lt column, Nat.add_zero]
  · apply Fin.ext
    rw [Fin.coe_modNat, Nat.mul_add_mod, Nat.mod_eq_of_lt column]

theorem eq_flat {a : List K} {M : Matrix (Fin n) (Fin m) K} (length : a.length = n * m)
    (cells : ∀ i j, a[m * i.val + j.val]? = some (M i j)) : a = flat M := by
  apply List.ext_getElem?
  intro k
  by_cases inside : k < n * m
  · let i : Fin n := Fin.divNat (⟨k, inside⟩ : Fin (n * m))
    let j : Fin m := Fin.modNat (⟨k, inside⟩ : Fin (n * m))
    have place : k = m * i.val + j.val := (Nat.div_add_mod k m).symm
    rw [place, cells i j, flat_cell M i.isLt j.isLt]
  · rw [List.getElem?_eq_none (by omega), List.getElem?_eq_none (by rw [length_flat]; omega)]

theorem flat_injective {M N : Matrix (Fin n) (Fin m) K} (same : flat M = flat N) : M = N := by
  ext i j
  have cell := congrArg (·[m * i.val + j.val]?) same
  simp only [flat_cell M i.isLt j.isLt, flat_cell N i.isLt j.isLt] at cell
  exact Option.some.inj cell

theorem exists_flat {a : List K} (length : a.length = n * m) :
    ∃ M : Matrix (Fin n) (Fin m) K, a = flat M := by
  have inside : ∀ (i : Fin n) (j : Fin m), m * i.val + j.val < a.length :=
    fun i j => cell_inside length i.isLt j.isLt
  refine ⟨fun i j => a.get ⟨m * i.val + j.val, inside i j⟩, eq_flat length ?_⟩
  intro i j
  exact List.getElem?_eq_getElem (inside i j)

def ofFlat (n m : Nat) (d : K) (a : List K) : Matrix (Fin n) (Fin m) K :=
  fun i j => a.getD (m * i + j) d

@[simp] theorem ofFlat_flat (d : K) (M : Matrix (Fin n) (Fin m) K) : ofFlat n m d (flat M) = M := by
  ext i j
  rw [ofFlat, List.getD_eq_getElem?_getD, flat_cell M i.isLt j.isLt]
  rfl

theorem ofFn_eq_flat (v : Fin n → K) : List.ofFn v = flat (Matrix.replicateCol (Fin 1) v) := by
  apply eq_flat
  · rw [List.length_ofFn, Nat.mul_one]
  · intro i j
    have first : 1 * i.val + j.val = i.val := by omega
    rw [first, List.getElem?_ofFn, dif_pos i.isLt]
    rfl

theorem eq_flat_of_filled {a b : List K} {target : Nat × Nat → Nat} {value : Nat × Nat → Option K}
    {M : Matrix (Fin n) (Fin m) K} (length : a.length = n * m)
    (filled : Filled (fun x => x.1 < n ∧ x.2 < m) target value a b)
    (place : ∀ i j, target (i, j) = m * i + j)
    (entry : ∀ i j, value (i.val, j.val) = some (M i j)) : b = flat M := by
  apply eq_flat (filled.length.trans length)
  intro i j
  have cell := filled.written (i.val, j.val) ⟨i.isLt, j.isLt⟩
  rw [place, entry] at cell
  exact cell

end RowMajor
