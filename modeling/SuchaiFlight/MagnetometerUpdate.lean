import SuchaiFlight.ErrorCovariance
import SuchaiFlight.Library.KalmanGain

/-!
`eskf_update_mag`, which corrects the estimate of the attitude filter from a
reading of the magnetometer.
-/
namespace MagnetometerUpdate
open CountedLoops RowMajor Attitude KalmanGain
open FlatMatrices (load_ofFn matTranspose_flat matMatMult_flat matSetDiag_flat
  matConsMult_inPlace matMatSum_flat)
open ErrorCovariance (Matrix6 stdRnMag)
open scoped Matrix

variable {K : Type}

abbrev Jacobian (K : Type) := Matrix (Fin 3) (Fin 6) K

structure Locals (K : Type) where
  magB : Vector3 K
  h : Jacobian K
  temp : Matrix3 K
  ht : Matrix (Fin 6) (Fin 3) K
  pht : Matrix (Fin 6) (Fin 3) K
  s1 : Matrix3 K
  s : Matrix3 K
  k : Matrix (Fin 6) (Fin 3) K
  dx : Fin 6 → K
  kh : Matrix6 K
  i6 : Matrix6 K
  ikh : Matrix6 K
  p1 : Matrix6 K

/-- What a call leaves behind its pointers. `q` is no number after a division by
    zero. -/
structure Estimate (K : Type) where
  P : List K
  R : Matrix3 K
  q : Option (Quat K)
  wb : Vector3 K

section Functions
variable [Field K] [LinearOrder K] (libm : Libm K)

def eskfUpdateMag (locals : Locals K) (magSensor magI : Vector3 K) (P : List K) (q : Quat K)
    (wb : Vector3 K) : Option (Estimate K) := do
  -- Magnetic Jacobian
  let magI := (vecNormalize libm magI none).2
  let rwb := quatToDcm q
  let magB ← matVecMult rwb magI locals.magB
  let temp := matSkew magB locals.temp
  let H ← FlatMatrices.matCopy (flat temp) (flat locals.h) 3 3 3 6 0 0
  let temp := matSetDiag 0 0 0
  let H ← FlatMatrices.matCopy (flat temp) H 3 3 3 6 0 3
  -- Kalman Gain
  let Ht ← FlatMatrices.matTranspose H (flat locals.ht) 3 6
  let PHt ← FlatMatrices.matMatMult P Ht (flat locals.pht) 6 6 3
  let S1 ← FlatMatrices.matMatMult H PHt (flat locals.s1) 3 6 3
  let rval := stdRnMag ^ 2
  let R := matSetDiag rval rval rval
  let S ← matMatSum (ofFlat 3 3 0 S1) R locals.s
  let SI ← matInverse S
  let k ← FlatMatrices.matMatMult PHt (flat SI) (flat locals.k) 6 3 3
  -- Error state update
  let y := vecSum magSensor (vecConsMult (-1) magB)
  let dx ← FlatMatrices.matMatMult k (List.ofFn y) (List.ofFn locals.dx) 6 3 1
  -- Error covariance update
  let I6 ← FlatMatrices.matSetDiag (flat locals.i6) 1 6 6
  let KH ← FlatMatrices.matMatMult k H (flat locals.kh) 6 3 6
  let KH ← FlatMatrices.matConsMult (-1) KH none 6 6
  let IKH ← FlatMatrices.matMatSum I6 KH (flat locals.ikh) 6 6
  let _P1 ← FlatMatrices.matMatMult IKH P (flat locals.p1) 6 6 6
  -- Auxiliar error state variables
  let dtheta := ![← load dx 0, ← load dx 1, ← load dx 2]
  let dwb := ![← load dx 3, ← load dx 4, ← load dx 5]
  let dq := vecToQuat libm dtheta
  -- Injection of the observed error to the nominal state
  some ⟨P, R, dq.map (quatMult q), vecSum wb dwb⟩

end Functions

/-! What a call is to compute. -/

section Purpose

def bodyField [Field K] (libm : Libm K) (q : Quat K) (magI : Vector3 K) : Vector3 K :=
  quatToDcm q *ᵥ ((1 / vecNorm libm magI) • magI)

def jacobian [CommRing K] (m : Vector3 K) : Jacobian K :=
  !![0, -m 2, m 1, 0, 0, 0;
     m 2, 0, -m 0, 0, 0, 0;
     -m 1, m 0, 0, 0, 0, 0]

def lower (x : Fin 6 → K) : Vector3 K := fun i => x (Fin.natAdd 3 i)

/-- The call is the Kalman update of the measurement. -/
def MeasurementUpdate (libm : Libm ℝ) (locals : Locals ℝ) (magSensor magI : Vector3 ℝ)
    (P : Matrix6 ℝ) (q : Quat ℝ) (wb : Vector3 ℝ) : Prop :=
  let m := bodyField libm q magI
  let k := gain P (jacobian m) (stdRnMag ^ 2)
  ∃ r, eskfUpdateMag libm locals magSensor magI (flat P) q wb = some r ∧
    r.P = flat ((1 - k * jacobian m) * P) ∧ r.wb = wb + lower (k *ᵥ (magSensor - m))

end Purpose

/-! What it computes. -/

section Call
variable {libm : Libm ℝ}

/-! The copies into `H` take its rows to be three long. -/

theorem matCopy_start (M : Matrix3 K) (h : Jacobian K) :
    FlatMatrices.matCopy (flat M) (flat h) 3 3 3 6 0 0 = some (flat
      !![M 0 0, M 0 1, M 0 2, M 1 0, M 1 1, M 1 2;
         M 2 0, M 2 1, M 2 2, h 1 3, h 1 4, h 1 5;
         h 2 0, h 2 1, h 2 2, h 2 3, h 2 4, h 2 5]) := rfl

theorem matCopy_behind (M : Matrix3 K) (h : Jacobian K) :
    FlatMatrices.matCopy (flat M) (flat h) 3 3 3 6 0 3 = some (flat
      !![h 0 0, h 0 1, h 0 2, M 0 0, M 0 1, M 0 2;
         M 1 0, M 1 1, M 1 2, M 2 0, M 2 1, M 2 2;
         h 2 0, h 2 1, h 2 2, h 2 3, h 2 4, h 2 5]) := rfl

/-- What `H` holds then: the first row of the skew matrix, with the diagonal that
    `temp` keeps, a row of zeros, and a row that is never written. -/
def written [CommRing K] (g : K) (m : Vector3 K) (last : Fin 6 → K) : Jacobian K :=
  !![g, -m 2, m 1, 0, 0, 0;
     0, 0, 0, 0, 0, 0;
     last 0, last 1, last 2, last 3, last 4, last 5]

theorem matCopy_jacobian (m : Vector3 ℝ) (temp : Matrix3 ℝ) (h : Jacobian ℝ) :
    ∃ H : Jacobian ℝ,
      FlatMatrices.matCopy (flat (matSkew m temp)) (flat h) 3 3 3 6 0 0 = some (flat H) ∧
      FlatMatrices.matCopy (flat (matSetDiag 0 0 0)) (flat H) 3 3 3 6 0 3 =
        some (flat (written (temp 0 0) m (h 2))) := by
  refine ⟨_, matCopy_start _ _, ?_⟩
  rw [matCopy_behind, written, ← neg_one_mul]
  rfl

theorem innovation_large {P : Matrix6 ℝ} (valid : P.PosSemidef) (H : Jacobian ℝ) :
    1 / 10 ^ 25 ≤ |(innovation P H (stdRnMag ^ 2)).det| := by
  have bound := le_det_add_smul_one (measured_posSemidef valid H) (sq_nonneg (stdRnMag : ℝ))
  calc (1 / 10 ^ 25 : ℝ) ≤ (stdRnMag ^ 2) ^ Fintype.card (Fin 3) := by norm_num [stdRnMag]
    _ ≤ (innovation P H (stdRnMag ^ 2)).det := bound
    _ ≤ |(innovation P H (stdRnMag ^ 2)).det| := le_abs_self _

theorem eskfUpdateMag_eq {P : Matrix6 ℝ} (valid : P.PosSemidef) {magI : Vector3 ℝ}
    (real : vecNorm libm magI ≠ 0) (locals : Locals ℝ) (magSensor : Vector3 ℝ) (q : Quat ℝ)
    (wb : Vector3 ℝ) :
    ∃ r, eskfUpdateMag libm locals magSensor magI (flat P) q wb = some r ∧ r.P = flat P ∧
      r.wb = wb + lower (gain P (written (locals.temp 0 0) (bodyField libm q magI) (locals.h 2))
        (stdRnMag ^ 2) *ᵥ (magSensor - bodyField libm q magI)) := by
  have column (A : Matrix (Fin 6) (Fin 3) ℝ) (v : Vector3 ℝ) :
      FlatMatrices.matMatMult (flat A) (List.ofFn v) (List.ofFn locals.dx) 6 3 1 =
        some (List.ofFn (A *ᵥ v)) := by
    rw [ofFn_eq_flat v, ofFn_eq_flat (A *ᵥ v), FlatMatrices.matMatMult_flat _ _ (by simp)
      (by decide) (by decide) (by decide), Matrix.replicateCol_mulVec]
  obtain ⟨H₀, first, second⟩ := matCopy_jacobian (bodyField libm q magI) locals.temp locals.h
  have body : matVecMult (quatToDcm q) (vecNormalize libm magI none).2 locals.magB =
      some (bodyField libm q magI) := by
    rw [vecNormalize_eq real, matVecMult_eq, bodyField]
  generalize bodyField libm q magI = m at *
  rw [eskfUpdateMag]
  dsimp only
  rw [bind_of_eq body, bind_of_eq first, bind_of_eq second]
  generalize written (locals.temp 0 0) m (locals.h 2) = H
  have sum : H * (P * Hᵀ) + matSetDiag (stdRnMag ^ 2) (stdRnMag ^ 2) (stdRnMag ^ 2) =
      innovation P H (stdRnMag ^ 2) := by
    rw [innovation, ErrorCovariance.matSetDiag_eq, Matrix.mul_assoc]
  have error : vecSum magSensor (vecConsMult (-1) m) = magSensor - m := by
    funext i
    simp [vecSum, vecConsMult, sub_eq_add_neg]
  rw [bind_of_eq (matTranspose_flat H (length_flat _) (by decide)),
    bind_of_eq (matMatMult_flat P Hᵀ (length_flat _) (by decide) (by decide) (by decide)),
    bind_of_eq (matMatMult_flat H _ (length_flat _) (by decide) (by decide) (by decide)),
    ofFlat_flat, bind_of_eq (matMatSum_eq _ _ _), sum,
    bind_of_eq (matInverse_eq (innovation_large valid H)),
    bind_of_eq (matMatMult_flat _ _ (length_flat _) (by decide) (by decide) (by decide)), ← gain,
    error, bind_of_eq (column _ _),
    bind_of_eq (matSetDiag_flat _ (length_flat _) (by decide)),
    bind_of_eq (matMatMult_flat _ H (length_flat _) (by decide) (by decide) (by decide)),
    bind_of_eq (matConsMult_inPlace _ _ (by decide)),
    bind_of_eq (matMatSum_flat _ _ (length_flat _) (by decide)),
    bind_of_eq (matMatMult_flat _ P (length_flat _) (by decide) (by decide) (by decide)),
    bind_of_eq (load_ofFn _ (by decide)), bind_of_eq (load_ofFn _ (by decide)),
    bind_of_eq (load_ofFn _ (by decide)), bind_of_eq (load_ofFn _ (by decide)),
    bind_of_eq (load_ofFn _ (by decide)), bind_of_eq (load_ofFn _ (by decide))]
  refine ⟨_, rfl, rfl, ?_⟩
  funext i
  fin_cases i <;> rfl

end Call

/-! When the drift stays what it is, whatever `H` holds. -/

section Drift
variable {P : Matrix6 ℝ} {m : Vector3 ℝ} {r : ℝ}

def lowerRows (P : Matrix6 ℝ) : Jacobian ℝ := P.submatrix (Fin.natAdd 3) id

theorem lower_mulVec (P : Matrix6 ℝ) (w : Fin 6 → ℝ) : lower (P *ᵥ w) = lowerRows P *ᵥ w := rfl

theorem mulVec_row {H : Jacobian ℝ} (unseen : P * Hᵀ = 0) (i : Fin 3) : P *ᵥ H i = 0 := by
  funext k
  exact congrFun (congrFun unseen k) i

theorem written_zero (g : ℝ) (m : Vector3 ℝ) (last : Fin 6 → ℝ) :
    written g m last 0 = g • Pi.single 0 1 + jacobian m 0 := by
  funext j
  fin_cases j <;> simp [written, jacobian]

theorem written_one (g : ℝ) (m : Vector3 ℝ) (last : Fin 6 → ℝ) : written g m last 1 = 0 := by
  funext j
  fin_cases j <;> rfl

theorem written_two (g : ℝ) (m : Vector3 ℝ) (last : Fin 6 → ℝ) : written g m last 2 = last := by
  funext j
  fin_cases j <;> rfl

theorem correction_weights (valid : P.PosSemidef) (noisy : 0 < r)
    (unseen : P * (jacobian m)ᵀ = 0) (g : ℝ) (last : Fin 6 → ℝ) (y : Vector3 ℝ) :
    ∃ a b : ℝ, ∃ u, gain P (written g m last) r *ᵥ y = u ∧
      u = P *ᵥ ((a * g) • Pi.single 0 1 + b • last) ∧ g * u 0 + r * a = y 0 ∧
      last ⬝ᵥ u + r * b = y 2 := by
  obtain ⟨x, state, rows⟩ := exists_weights valid (written g m last) noisy y
  have certain := mulVec_row unseen 0
  have combined : (written g m last)ᵀ *ᵥ x =
      ((x 0 * g) • Pi.single 0 1 + x 2 • last) + x 0 • jacobian m 0 := by
    rw [Matrix.mulVec_transpose, Matrix.vecMul_eq_sum, Fin.sum_univ_three, written_zero,
      written_one, written_two]
    module
  rw [combined, Matrix.mulVec_add, Matrix.mulVec_smul, certain, smul_zero, add_zero] at state
  have row := rows 0
  have row' := rows 2
  rw [written_zero, add_dotProduct, smul_dotProduct, single_one_dotProduct, state,
    form_eq_zero valid certain, add_zero, ← state] at row
  rw [written_two] at row'
  exact ⟨x 0, x 2, _, rfl, state, row, row'⟩

/-- The drift is known, or the last and the first component of the error are zero,
    where the first one may be ignored when the first angle is known. -/
def DriftSettled (P : Matrix6 ℝ) (y : Vector3 ℝ) : Prop :=
  (∀ (i : Fin 3) j, P (i.natAdd 3) j = 0) ∨ (y 2 = 0 ∧ (y 0 = 0 ∨ ∀ i, P i 0 = 0))

theorem lower_eq_zero (valid : P.PosSemidef) (noisy : 0 < r) (unseen : P * (jacobian m)ᵀ = 0)
    {y : Vector3 ℝ} (settled : DriftSettled P y) (g : ℝ) (last : Fin 6 → ℝ) :
    lower (gain P (written g m last) r *ᵥ y) = 0 := by
  obtain ⟨a, b, u, eq, state, row, row'⟩ := correction_weights valid noisy unseen g last y
  rw [eq]
  rcases settled with known | ⟨zero', zero | known⟩
  · have rows : lowerRows P = 0 := by
      ext i j
      exact known i j
    rw [state, lower_mulVec, rows, Matrix.zero_mulVec]
  · -- the form of the weights is not positive
    have form : ((a * g) • Pi.single 0 1 + b • last) ⬝ᵥ u = -(r * (a ^ 2 + b ^ 2)) := by
      rw [add_dotProduct, smul_dotProduct, smul_dotProduct, single_one_dotProduct, smul_eq_mul,
        smul_eq_mul]
      linear_combination a * row + b * row' + a * zero + b * zero'
    have nonneg := form_nonneg valid ((a * g) • Pi.single 0 1 + b • last)
    rw [← state, form] at nonneg
    have squares : a ^ 2 + b ^ 2 = 0 :=
      le_antisymm (nonpos_of_mul_nonpos_right (by linarith) noisy) (by positivity)
    obtain ⟨a0, b0⟩ := (add_eq_zero_iff_of_nonneg (sq_nonneg a) (sq_nonneg b)).mp squares
    rw [sq_eq_zero_iff] at a0 b0
    rw [state, a0, b0, zero_mul, zero_smul, zero_smul, add_zero, Matrix.mulVec_zero]
    rfl
  · have first : P *ᵥ Pi.single 0 1 = 0 := by
      rw [Matrix.mulVec_single_one]
      funext i
      exact known i
    rw [Matrix.mulVec_add, Matrix.mulVec_smul, first, smul_zero, zero_add, Matrix.mulVec_smul]
      at state
    have nonneg := form_nonneg valid last
    rw [state, dotProduct_smul, smul_eq_mul, zero'] at row'
    have b0 : b = 0 := by
      have product : b * (last ⬝ᵥ (P *ᵥ last) + r) = 0 := by linear_combination row'
      exact (mul_eq_zero.mp product).resolve_right (by positivity)
    rw [state, b0, zero_smul]
    rfl

theorem zero_of_product {L : Jacobian ℝ} {p : Fin 6 → ℝ}
    (product : ∀ v, L *ᵥ v = 0 ∨ v ⬝ᵥ p = 0) : L = 0 ∨ p = 0 := by
  by_contra neither
  rw [not_or] at neither
  obtain ⟨i, hi⟩ : ∃ i, L *ᵥ Pi.single i 1 ≠ 0 := by
    by_contra none
    simp only [not_exists, not_not] at none
    apply neither.1
    ext k j
    have column := congrFun (none j) k
    rw [Matrix.mulVec_single_one] at column
    exact column
  obtain ⟨j, hj⟩ := Function.ne_iff.mp neither.2
  have left : Pi.single i 1 ⬝ᵥ p = 0 := (product _).resolve_left hi
  have right : L *ᵥ Pi.single j 1 = 0 := by
    apply (product _).resolve_right
    rw [single_one_dotProduct]
    exact hj
  rcases product (Pi.single i 1 + Pi.single j 1) with zero | zero
  · rw [Matrix.mulVec_add, right, add_zero] at zero
    exact hi zero
  · rw [add_dotProduct, left, zero_add, single_one_dotProduct] at zero
    exact hj zero

/-! Rows chosen so that the drift would move. -/

section Kept
variable {y : Vector3 ℝ} (valid : P.PosSemidef) (noisy : 0 < r) (unseen : P * (jacobian m)ᵀ = 0)
  (kept : ∀ g last, lower (gain P (written g m last) r *ᵥ y) = 0)
include valid noisy unseen kept

theorem last_error_zero (unknown : lowerRows P ≠ 0) : y 2 = 0 := by
  by_contra other
  apply unknown
  ext i j
  obtain ⟨a, b, u, eq, state, -, row'⟩ := correction_weights valid noisy unseen 0 (Pi.single j 1) y
  rw [mul_zero, zero_smul, zero_add] at state
  have b0 : b ≠ 0 := by
    rintro rfl
    rw [state, zero_smul, Matrix.mulVec_zero, dotProduct_zero, mul_zero, add_zero] at row'
    exact other row'.symm
  have still := kept 0 (Pi.single j 1)
  rw [eq, state, lower_mulVec, Matrix.mulVec_smul, smul_eq_zero_iff_right b0,
    Matrix.mulVec_single_one] at still
  exact congrFun still i

theorem drift_of_first (error : y 0 ≠ 0) : lowerRows P *ᵥ Pi.single 0 1 = 0 := by
  obtain ⟨a, b, u, eq, state, row, -⟩ := correction_weights valid noisy unseen 1 0 y
  have still := kept 1 0
  rw [eq, state, lower_mulVec, mul_one, smul_zero, add_zero, Matrix.mulVec_smul, smul_eq_zero]
    at still
  rcases still with rfl | still
  · rw [zero_mul, zero_smul, smul_zero, add_zero, Matrix.mulVec_zero] at state
    rw [state] at row
    exact absurd (by simpa using row.symm) error
  · exact still

theorem drift_or_first (last_zero : y 2 = 0) (error : y 0 ≠ 0) (last : Fin 6 → ℝ) :
    lowerRows P *ᵥ last = 0 ∨ last ⬝ᵥ (P *ᵥ Pi.single 0 1) = 0 := by
  obtain ⟨a, b, u, eq, state, row, row'⟩ := correction_weights valid noisy unseen 1 last y
  have still := kept 1 last
  rw [eq, state, lower_mulVec, mul_one, Matrix.mulVec_add, Matrix.mulVec_smul,
    drift_of_first valid noisy unseen kept error, smul_zero, zero_add, Matrix.mulVec_smul,
    smul_eq_zero] at still
  rcases still with rfl | still
  · right
    rw [zero_smul, add_zero, mul_one, Matrix.mulVec_smul] at state
    rw [state, dotProduct_smul, mul_zero, add_zero, last_zero, smul_eq_mul, mul_eq_zero] at row'
    rcases row' with rfl | apart
    · rw [state, zero_smul] at row
      exact absurd (by simpa using row.symm) error
    · exact apart
  · exact .inl still

theorem settled_of_lower : DriftSettled P y := by
  by_cases known : lowerRows P = 0
  · exact .inl fun i j => congrFun (congrFun known i) j
  have last_zero := last_error_zero valid noisy unseen kept known
  refine .inr ⟨last_zero, ?_⟩
  by_cases error : y 0 = 0
  · exact .inl error
  right
  have column := (zero_of_product
    (drift_or_first valid noisy unseen kept last_zero error)).resolve_left known
  rw [Matrix.mulVec_single_one] at column
  exact congrFun column

end Kept

end Drift

section Update
variable {libm : Libm ℝ} {P : Matrix6 ℝ} {magSensor magI : Vector3 ℝ} {q : Quat ℝ}
  {wb : Vector3 ℝ}

theorem noise_positive : (0 : ℝ) < stdRnMag ^ 2 := by
  rw [stdRnMag]
  positivity

theorem unseen_of_update (valid : P.PosSemidef) (real : vecNorm libm magI ≠ 0)
    {locals : Locals ℝ} (update : MeasurementUpdate libm locals magSensor magI P q wb) :
    P * (jacobian (bodyField libm q magI))ᵀ = 0 := by
  obtain ⟨r, call, covariance, -⟩ := update
  obtain ⟨r', call', covariance', -⟩ := eskfUpdateMag_eq valid real locals magSensor q wb
  obtain rfl := Option.some.inj (call.symm.trans call')
  have same := flat_injective (covariance.symm.trans covariance')
  rw [← gain_mul_eq_zero_iff valid noise_positive]
  rw [Matrix.sub_mul, Matrix.one_mul, sub_eq_self] at same
  exact same

/-- The call is the Kalman update, whatever its local arrays hold, when the
    measured directions are certain and the drift is settled. -/
theorem measurement_update_iff (root : ∀ x, 0 < x → 0 < libm.sqrt x) (valid : P.PosSemidef)
    (field : magI ≠ 0) :
    (∀ locals, MeasurementUpdate libm locals magSensor magI P q wb) ↔
      P * (jacobian (bodyField libm q magI))ᵀ = 0 ∧
        DriftSettled P (magSensor - bodyField libm q magI) := by
  have real := ErrorCovariance.vecNorm_ne_zero root field
  have certain (unseen : P * (jacobian (bodyField libm q magI))ᵀ = 0) :
      gain P (jacobian (bodyField libm q magI)) (stdRnMag ^ 2) = 0 := by
    rw [gain, unseen, Matrix.zero_mul]
  constructor
  · intro update
    have unseen := unseen_of_update valid real (update ⟨0, 0, 0, 0, 0, 0, 0, 0, 0, 0, 0, 0, 0⟩)
    refine ⟨unseen, settled_of_lower valid noise_positive unseen ?_⟩
    intro g last
    obtain ⟨r, call, -, drift⟩ :=
      update ⟨0, fun _ => last, fun _ _ => g, 0, 0, 0, 0, 0, 0, 0, 0, 0, 0⟩
    obtain ⟨r', call', -, drift'⟩ := eskfUpdateMag_eq valid real
      ⟨0, fun _ => last, fun _ _ => g, 0, 0, 0, 0, 0, 0, 0, 0, 0, 0⟩ magSensor q wb
    obtain rfl := Option.some.inj (call.symm.trans call')
    have same := add_left_cancel (drift.symm.trans drift')
    rw [certain unseen, Matrix.zero_mulVec] at same
    exact same.symm
  · rintro ⟨unseen, settled⟩ locals
    obtain ⟨r, call, covariance, drift⟩ := eskfUpdateMag_eq valid real locals magSensor q wb
    refine ⟨r, call, ?_, ?_⟩
    · rw [covariance, certain unseen, Matrix.zero_mul, sub_zero, Matrix.one_mul]
    · rw [drift, certain unseen, Matrix.zero_mulVec,
        lower_eq_zero valid noise_positive unseen settled]
      rfl

end Update

/-! The body turned as the frame of the field, which points along the third axis. -/

section Axis
open ErrorCovariance (realLibm)

theorem vecNorm_axis : vecNorm realLibm ![0, 0, 1] = 1 := by
  simp [vecNorm, realLibm]

theorem bodyField_axis : bodyField realLibm ![0, 0, 0, 1] ![0, 0, 1] = ![0, 0, 1] := by
  rw [bodyField, vecNorm_axis, quatToDcm_mulVec]
  funext i
  fin_cases i <;> simp [quatFrameConv, quatMult, quatConjugate]

theorem certain_field_updated :
    MeasurementUpdate realLibm ⟨0, fun _ _ => 7, fun _ _ => 5, 0, 0, 0, 0, 0, 0, 0, 0, 0, 0⟩
      ![0, 1, 1] ![0, 0, 1] (Matrix.diagonal ![0, 0, 1, 0, 0, 0]) ![0, 0, 0, 1] 0 := by
  apply (measurement_update_iff (fun x positive => Real.sqrt_pos.mpr positive) ?_ ?_).mpr
  · rw [bodyField_axis]
    constructor
    · ext i j
      fin_cases i <;> fin_cases j <;> simp [jacobian]
    · left
      intro i j
      rw [Matrix.diagonal_apply]
      fin_cases i <;> simp
  · rw [Matrix.posSemidef_diagonal_iff]
    intro i
    fin_cases i <;> simp
  · intro zero
    have component := congrFun zero 2
    simp at component

theorem identity_not_updated : (1 : Matrix6 ℝ).PosSemidef ∧
    ∀ locals, ¬ MeasurementUpdate realLibm locals ![0, 0, 1] ![0, 0, 1] 1 ![0, 0, 0, 1] 0 := by
  refine ⟨Matrix.PosSemidef.one, ?_⟩
  intro locals update
  have real : vecNorm realLibm ![0, 0, 1] ≠ 0 := by
    rw [vecNorm_axis]
    exact one_ne_zero
  have unseen := unseen_of_update Matrix.PosSemidef.one real update
  rw [bodyField_axis, Matrix.one_mul] at unseen
  have entry := congrFun (congrFun unseen 0) 1
  simp [jacobian] at entry

end Axis

end MagnetometerUpdate
