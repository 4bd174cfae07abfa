import Mathlib.Algebra.Order.Star.Real
import Mathlib.Analysis.Matrix.PosDef

/-!
The gain of a measurement `H` of a state with covariance `P`, with independent
noise of variance `r` in every component.
-/
namespace KalmanGain
open Matrix

variable {n k : Type*} [Fintype n] [Fintype k] [DecidableEq k] {P : Matrix n n ℝ}
  {H : Matrix k n ℝ} {r : ℝ}

def innovation (P : Matrix n n ℝ) (H : Matrix k n ℝ) (r : ℝ) : Matrix k k ℝ := H * P * Hᵀ + r • 1

noncomputable def gain (P : Matrix n n ℝ) (H : Matrix k n ℝ) (r : ℝ) : Matrix n k ℝ :=
  P * Hᵀ * (innovation P H r)⁻¹

omit [Fintype n] [DecidableEq k] in
theorem posSemidef_symm (valid : P.PosSemidef) : Pᵀ = P := by
  rw [← conjTranspose_eq_transpose_of_trivial]
  exact valid.isHermitian

omit [DecidableEq k] in
theorem measured_posSemidef (valid : P.PosSemidef) (H : Matrix k n ℝ) :
    (H * P * Hᵀ).PosSemidef := by
  rw [← conjTranspose_eq_transpose_of_trivial]
  exact valid.mul_mul_conjTranspose_same H

theorem innovation_posDef (valid : P.PosSemidef) (H : Matrix k n ℝ) (noisy : 0 < r) :
    (innovation P H r).PosDef :=
  PosDef.posSemidef_add (measured_posSemidef valid H) (PosDef.one.smul noisy)

theorem le_det_add_smul_one {A : Matrix k k ℝ} (valid : A.PosSemidef) (positive : 0 ≤ r) :
    r ^ Fintype.card k ≤ (A + r • 1).det := by
  have hermitian := valid.isHermitian
  have shifted : (A + r • 1).det = ∏ i, (r + hermitian.eigenvalues i) := by
    have root := congrArg (Polynomial.eval (-r)) hermitian.charpoly_eq
    rw [eval_charpoly, Polynomial.eval_prod] at root
    have negated : scalar k (-r) - A = -(A + r • 1) := by
      rw [scalar_apply, ← smul_one_eq_diagonal, neg_smul]
      abel
    have factor : ∀ i, -r - hermitian.eigenvalues i = -(r + hermitian.eigenvalues i) := by
      intro i
      ring
    simp only [negated, det_neg, Polynomial.eval_sub, Polynomial.eval_X, Polynomial.eval_C,
      RCLike.ofReal_real_eq_id, id_eq, factor] at root
    rw [Finset.prod_neg, Finset.card_univ] at root
    exact mul_left_cancel₀ (pow_ne_zero _ (neg_ne_zero.mpr one_ne_zero)) root
  rw [shifted, ← Finset.card_univ, ← Finset.prod_const]
  apply Finset.prod_le_prod
  · intro i _
    exact positive
  · intro i _
    exact le_add_of_nonneg_right (valid.eigenvalues_nonneg i)

omit [Fintype n] [DecidableEq k] in
theorem eq_zero_of_form {S : Matrix k k ℝ} (definite : S.PosDef) {X : Matrix n k ℝ}
    (form : X * S * Xᵀ = 0) : X = 0 := by
  ext i j
  have diagonal : star (X i) ⬝ᵥ (S *ᵥ X i) = 0 := by
    have entry := congrFun (congrFun form i) i
    rw [Matrix.mul_assoc, Matrix.mul_apply] at entry
    rw [star_trivial]
    exact entry
  by_contra nonzero
  have positive := definite.dotProduct_mulVec_pos (x := X i) fun zero => nonzero (congrFun zero j)
  exact positive.ne' diagonal

omit [DecidableEq k] in
theorem form_nonneg (valid : P.PosSemidef) (v : n → ℝ) : 0 ≤ v ⬝ᵥ (P *ᵥ v) := by
  have nonneg := valid.dotProduct_mulVec_nonneg v
  rw [star_trivial] at nonneg
  exact nonneg

omit [DecidableEq k] in
theorem form_eq_zero (valid : P.PosSemidef) {v : n → ℝ} (unseen : P *ᵥ v = 0) (w : n → ℝ) :
    v ⬝ᵥ (P *ᵥ w) = 0 := by
  rw [dotProduct_mulVec, ← mulVec_transpose, posSemidef_symm valid, unseen, zero_dotProduct]

theorem gain_mul_eq_zero_iff (valid : P.PosSemidef) (noisy : 0 < r) :
    gain P H r * H * P = 0 ↔ P * Hᵀ = 0 := by
  constructor
  · intro zero
    apply eq_zero_of_form (innovation_posDef valid H noisy).inv
    rw [transpose_mul, transpose_transpose, posSemidef_symm valid, ← Matrix.mul_assoc]
    exact zero
  · intro unseen
    rw [gain, unseen, Matrix.zero_mul, Matrix.zero_mul, Matrix.zero_mul]

theorem exists_weights (valid : P.PosSemidef) (H : Matrix k n ℝ) (noisy : 0 < r) (y : k → ℝ) :
    ∃ x : k → ℝ, gain P H r *ᵥ y = P *ᵥ (Hᵀ *ᵥ x) ∧
      ∀ i, H i ⬝ᵥ (gain P H r *ᵥ y) + r * x i = y i := by
  have unit : IsUnit (innovation P H r).det :=
    (isUnit_iff_isUnit_det _).mp (innovation_posDef valid H noisy).isUnit
  have solved : innovation P H r *ᵥ ((innovation P H r)⁻¹ *ᵥ y) = y := by
    rw [mulVec_mulVec, mul_nonsing_inv _ unit, one_mulVec]
  have weighted : gain P H r *ᵥ y = P *ᵥ (Hᵀ *ᵥ ((innovation P H r)⁻¹ *ᵥ y)) := by
    rw [gain, mulVec_mulVec, mulVec_mulVec]
  refine ⟨(innovation P H r)⁻¹ *ᵥ y, weighted, ?_⟩
  intro i
  rw [weighted]
  generalize (innovation P H r)⁻¹ *ᵥ y = x at solved
  rw [innovation, add_mulVec, Matrix.mul_assoc, ← mulVec_mulVec, ← mulVec_mulVec, smul_mulVec,
    one_mulVec] at solved
  exact congrFun solved i

end KalmanGain
