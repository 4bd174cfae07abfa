import SuchaiFlight.Attitude
import Mathlib.Algebra.Order.Field.Basic
import Mathlib.Tactic.LinearCombination
import Mathlib.Analysis.SpecialFunctions.Trigonometric.Basic

/-!
`quat_from_dcm`, which computes a quaternion of a rotation matrix from its
largest component.
-/
namespace RotationRecovery
open Attitude

variable {K : Type}

section Maximum
variable [Field K] [LinearOrder K] {libm : Libm K} {q : Quat K}

theorem foldl_keepLarger (libm : Libm K) (q : Quat K) (indexes : List (Fin 4)) (best : K × Fin 4) :
    best.1 ≤ (indexes.foldl (keepLarger libm q) best).1 ∧
      (∀ i ∈ indexes, absDouble libm (q i) ≤ (indexes.foldl (keepLarger libm q) best).1) ∧
      (indexes.foldl (keepLarger libm q) best = best ∨
        (indexes.foldl (keepLarger libm q) best).1 =
          absDouble libm (q (indexes.foldl (keepLarger libm q) best).2)) := by
  induction indexes generalizing best with
  | nil => simp
  | cons i rest ih =>
    obtain ⟨above, all, named⟩ := ih (keepLarger libm q best i)
    have here : best.1 ≤ (keepLarger libm q best i).1 ∧
        absDouble libm (q i) ≤ (keepLarger libm q best i).1 ∧
        (keepLarger libm q best i = best ∨
          (keepLarger libm q best i).1 = absDouble libm (q (keepLarger libm q best i).2)) := by
      unfold keepLarger
      split
      · rename_i larger
        exact ⟨larger.le, le_refl _, .inr rfl⟩
      · rename_i smaller
        exact ⟨le_refl _, not_lt.mp smaller, .inl rfl⟩
    refine ⟨here.1.trans above, ?_, ?_⟩
    · intro j mem
      rcases List.mem_cons.mp mem with rfl | later
      · exact here.2.1.trans above
      · exact all j later
    · rw [List.foldl_cons]
      rcases named with same | value
      · rw [same]
        exact here.2.2
      · exact .inr value

theorem maximum_positive {i : Fin 4} (positive : 0 < absDouble libm (q i)) :
    0 < absDouble libm (q (maximum libm q).2) := by
  obtain ⟨-, all, named⟩ := foldl_keepLarger libm q [0, 1, 2, 3] (0, 0)
  have mem : i ∈ ([0, 1, 2, 3] : List (Fin 4)) := by
    fin_cases i <;> simp
  have above : 0 < (maximum libm q).1 := lt_of_lt_of_le positive (all i mem)
  rcases named with start | value
  · have zero : (maximum libm q).1 = 0 := congrArg Prod.fst start
    rw [zero] at above
    exact absurd above (lt_irrefl 0)
  · rw [maximum, value] at above
    exact above

end Maximum

section Recovery
variable [Field K] [LinearOrder K] {libm : Libm K} {q : Quat K}

theorem divide_eq {a b c : K} (real : b ≠ 0) (eq : a = c * b) : divide a b = some c := by
  rw [divide, if_neg real, eq, mul_div_cancel_right₀ c real]

variable [IsStrictOrderedRing K]

theorem squareRoot_double (root : ∀ x, libm.sqrt (x ^ 2) = |x|) {x y : K} (eq : y = (2 * x) ^ 2) :
    squareRoot libm y = some (2 * |x|) := by
  rw [squareRoot, eq, if_neg (not_lt.mpr (sq_nonneg _)), root, abs_mul, abs_two]

theorem divide_product {σ a x y : K} (sign : σ ^ 2 = 1) (size : |a| = σ * a) (real : a ≠ 0)
    (eq : y = 4 * (a * x)) : divide y (4 * |a|) = some (σ * x) := by
  apply divide_eq (mul_ne_zero four_ne_zero (abs_ne_zero.mpr real))
  linear_combination eq - 4 * σ * x * size - 4 * a * x * sign

omit [LinearOrder K] [IsStrictOrderedRing K] in
theorem quatToDcm_sums (q : Quat K) :
    quatToDcm q 0 1 + quatToDcm q 1 0 = 4 * (q 0 * q 1) ∧
      quatToDcm q 0 2 + quatToDcm q 2 0 = 4 * (q 0 * q 2) ∧
      quatToDcm q 1 2 + quatToDcm q 2 1 = 4 * (q 1 * q 2) := by
  simp only [quatToDcm, Matrix.of_apply, Matrix.cons_val]
  refine ⟨?_, ?_, ?_⟩ <;> ring

omit [LinearOrder K] [IsStrictOrderedRing K] in
theorem quatToDcm_differences (q : Quat K) :
    quatToDcm q 1 2 - quatToDcm q 2 1 = 4 * (q 0 * q 3) ∧
      quatToDcm q 2 0 - quatToDcm q 0 2 = 4 * (q 1 * q 3) ∧
      quatToDcm q 0 1 - quatToDcm q 1 0 = 4 * (q 2 * q 3) := by
  simp only [quatToDcm, Matrix.of_apply, Matrix.cons_val]
  refine ⟨?_, ?_, ?_⟩ <;> ring

omit [LinearOrder K] [IsStrictOrderedRing K] in
theorem quatToDcm_diagonals (unit : q 0 ^ 2 + q 1 ^ 2 + q 2 ^ 2 + q 3 ^ 2 = 1) :
    1 + quatToDcm q 0 0 - quatToDcm q 1 1 - quatToDcm q 2 2 = (2 * q 0) ^ 2 ∧
      1 - quatToDcm q 0 0 + quatToDcm q 1 1 - quatToDcm q 2 2 = (2 * q 1) ^ 2 ∧
      1 - quatToDcm q 0 0 - quatToDcm q 1 1 + quatToDcm q 2 2 = (2 * q 2) ^ 2 ∧
      1 + quatToDcm q 0 0 + quatToDcm q 1 1 + quatToDcm q 2 2 = (2 * q 3) ^ 2 := by
  simp only [quatToDcm, Matrix.of_apply, Matrix.cons_val]
  refine ⟨?_, ?_, ?_, ?_⟩ <;> linear_combination -unit

theorem rebuild_eq {σ : K} (sign : σ ^ 2 = 1) {k : Fin 4} (size : |q k| = σ * q k)
    (real : q k ≠ 0) : rebuild (quatToDcm q) (fun i => |q i|) k = some (σ • q) := by
  have signed : ![σ * q 0, σ * q 1, σ * q 2, σ * q 3] = σ • q := by
    funext i
    fin_cases i <;> rfl
  obtain ⟨sum01, sum02, sum12⟩ := quatToDcm_sums q
  obtain ⟨turn0, turn1, turn2⟩ := quatToDcm_differences q
  obtain rfl | rfl | rfl | rfl : k = 0 ∨ k = 1 ∨ k = 2 ∨ k = 3 := by
    fin_cases k <;> simp
  · rw [rebuild, divide_product sign size real sum01, divide_product sign size real sum02,
      divide_product sign size real turn0, size]
    exact congrArg some signed
  · rw [mul_comm (q 0)] at sum01
    rw [add_comm] at sum12
    rw [rebuild, divide_product sign size real sum01, divide_product sign size real sum12,
      divide_product sign size real turn1, size]
    exact congrArg some signed
  · rw [mul_comm (q 0), add_comm] at sum02
    rw [mul_comm (q 1), add_comm] at sum12
    rw [rebuild, divide_product sign size real sum02, divide_product sign size real sum12,
      divide_product sign size real turn2, size]
    exact congrArg some signed
  · rw [mul_comm (q 0)] at turn0
    rw [mul_comm (q 1)] at turn1
    rw [mul_comm (q 2)] at turn2
    rw [rebuild, divide_product sign size real turn0, divide_product sign size real turn1,
      divide_product sign size real turn2, size]
    exact congrArg some signed

theorem quatFromDcm_sizes (root : ∀ x, libm.sqrt (x ^ 2) = |x|)
    (unit : q 0 ^ 2 + q 1 ^ 2 + q 2 ^ 2 + q 3 ^ 2 = 1) :
    quatFromDcm libm (quatToDcm q) =
      rebuild (quatToDcm q) (fun i => |q i|) (maximum libm fun i => |q i|).2 := by
  obtain ⟨square0, square1, square2, square3⟩ := quatToDcm_diagonals unit
  have half : ∀ x : K, 2 * x / 2 = x := fun x => mul_div_cancel_left₀ x two_ne_zero
  have sizes : ![|q 0|, |q 1|, |q 2|, |q 3|] = fun i => |q i| := by
    funext i
    fin_cases i <;> rfl
  rw [quatFromDcm, squareRoot_double root square0, squareRoot_double root square1,
    squareRoot_double root square2, squareRoot_double root square3]
  simp only [Option.bind_eq_bind, Option.bind_some, half, sizes]

theorem quatFromDcm_quatToDcm (root : ∀ x, libm.sqrt (x ^ 2) = |x|)
    (unit : q 0 ^ 2 + q 1 ^ 2 + q 2 ^ 2 + q 3 ^ 2 = 1) :
    quatFromDcm libm (quatToDcm q) = some q ∨ quatFromDcm libm (quatToDcm q) = some (-q) := by
  have value : ∀ i, absDouble libm |q i| = |q i| := by
    intro i
    rw [absDouble, root, abs_abs]
  obtain ⟨i, nonzero⟩ : ∃ i, q i ≠ 0 := by
    by_contra zero
    simp only [not_exists, not_not] at zero
    simp [zero] at unit
  have positive : 0 < absDouble libm |q (maximum libm fun i => |q i|).2| :=
    maximum_positive (q := fun i => |q i|) (i := i) (by rw [value]; exact abs_pos.mpr nonzero)
  rw [value] at positive
  have real := abs_pos.mp positive
  rw [quatFromDcm_sizes root unit]
  rcases abs_choice (q (maximum libm fun i => |q i|).2) with same | negated
  · left
    rw [rebuild_eq (one_pow 2) (by rw [same, one_mul]) real, one_smul]
  · right
    rw [rebuild_eq (σ := -1) (by ring) (by rw [negated, neg_one_mul]) real, neg_one_smul]

end Recovery

theorem half_turn_recovered :
    let libm : Libm ℝ := ⟨Real.sqrt, Real.sin, Real.cos⟩
    quatFromDcm libm (quatToDcm ![1, 0, 0, 0]) = some ![1, 0, 0, 0] ∨
      quatFromDcm libm (quatToDcm ![1, 0, 0, 0]) = some (-![1, 0, 0, 0]) :=
  quatFromDcm_quatToDcm Real.sqrt_sq_eq_abs (by simp)

end RotationRecovery
