import SuchaiFlight.FlatMatrices
import Mathlib.Algebra.Quaternion
import Mathlib.LinearAlgebra.Matrix.NonsingularInverse
import Mathlib.Algebra.Order.Field.Basic
import Mathlib.Tactic.FinCases

/-!
Vectors, quaternions and rotation matrices of `math_utils.c`, with exact numbers.
A quaternion is `q[0] i + q[1] j + q[2] k + q[3]`.
-/
namespace Attitude
open RowMajor FlatMatrices
open scoped Quaternion Matrix

variable {K : Type}

abbrev Vector3 (K : Type) := Fin 3 → K
abbrev Quat (K : Type) := Fin 4 → K
abbrev Matrix3 (K : Type) := Matrix (Fin 3) (Fin 3) K

instance axes : NeZero 3 := ⟨by decide⟩

structure Libm (K : Type) where
  sqrt : K → K
  sin : K → K
  cos : K → K

/-- A division by zero gives no number. -/
def divide [Field K] [DecidableEq K] (a b : K) : Option K := if b = 0 then none else some (a / b)

section Functions
variable [CommRing K]

def quatMult (lhs rhs : Quat K) : Quat K :=
  ![lhs 3 * rhs 0 - lhs 2 * rhs 1 + lhs 1 * rhs 2 + lhs 0 * rhs 3,
    lhs 2 * rhs 0 + lhs 3 * rhs 1 - lhs 0 * rhs 2 + lhs 1 * rhs 3,
    -lhs 1 * rhs 0 + lhs 0 * rhs 1 + lhs 3 * rhs 2 + lhs 2 * rhs 3,
    -lhs 0 * rhs 0 - lhs 1 * rhs 1 - lhs 2 * rhs 2 + lhs 3 * rhs 3]

def quatConjugate (q : Quat K) : Quat K := ![-q 0, -q 1, -q 2, q 3]

def quatFrameConv (qRotA2b : Quat K) (vA : Vector3 K) : Vector3 K :=
  let qConj := quatConjugate qRotA2b
  let vecAsQuat := ![vA 0, vA 1, vA 2, 0]
  let temp := quatMult qConj vecAsQuat
  let resVec := quatMult temp qRotA2b
  ![resVec 0, resVec 1, resVec 2]

def quatToDcm (q : Quat K) : Matrix3 K :=
  let q1 := q 0
  let q2 := q 1
  let q3 := q 2
  let q4 := q 3
  !![q1 ^ 2 - q2 ^ 2 - q3 ^ 2 + q4 ^ 2, 2 * (q1 * q2 + q3 * q4), 2 * (q1 * q3 - q2 * q4);
     2 * (q1 * q2 - q3 * q4), -1 * q1 ^ 2 + q2 ^ 2 - q3 ^ 2 + q4 ^ 2, 2 * (q2 * q3 + q1 * q4);
     2 * (q1 * q3 + q2 * q4), 2 * (q2 * q3 - q1 * q4), -1 * q1 ^ 2 - q2 ^ 2 + q3 ^ 2 + q4 ^ 2]

def vecSum (lhs rhs : Vector3 K) : Vector3 K := fun i => lhs i + rhs i

def vecConsMult (a : K) (vec : Vector3 K) : Vector3 K := fun i => vec i * a

def matSetDiag (a b c : K) : Matrix3 K := !![a, 0, 0; 0, b, 0; 0, 0, c]

/-- The diagonal of the result keeps what it holds. -/
def matSkew (vec : Vector3 K) (res : Matrix3 K) : Matrix3 K :=
  !![res 0 0, -1 * vec 2, vec 1;
     vec 2, res 1 1, -1 * vec 0;
     -1 * vec 1, vec 0, res 2 2]

/-! The functions on 3 x 3 matrices call those on flat arrays. `res` is what the
result holds before. -/

def matVecMult (mat : Matrix3 K) (vec res : Vector3 K) : Option (Vector3 K) := do
  let res ← FlatMatrices.matVecMult (flat mat) (List.ofFn vec) (List.ofFn res) 3 3
  some fun i => res.getD i 0

def matMatMult (lhs rhs res : Matrix3 K) : Option (Matrix3 K) :=
  (FlatMatrices.matMatMult (flat lhs) (flat rhs) (flat res) 3 3 3).map (ofFlat 3 3 0)

def matMatSum (lhs rhs res : Matrix3 K) : Option (Matrix3 K) :=
  (FlatMatrices.matMatSum (flat lhs) (flat rhs) (flat res) 3 3).map (ofFlat 3 3 0)

def matTranspose (mat res : Matrix3 K) : Option (Matrix3 K) :=
  (FlatMatrices.matTranspose (flat mat) (flat res) 3 3).map (ofFlat 3 3 0)

end Functions

section Rotations
variable [Field K] (libm : Libm K)

def vecNorm (vec : Vector3 K) : K := libm.sqrt (0 + vec 0 ^ 2 + vec 1 ^ 2 + vec 2 ^ 2)

/-- What it returns, and the vector that it writes, which is `vec` for `res == NULL`. -/
def vecNormalize [DecidableEq K] (vec : Vector3 K) (res : Option (Vector3 K)) :
    Nat × Vector3 K :=
  let n := vecNorm libm vec
  if n = 0 then (0, res.getD vec)
  else
    let n := 1 / n
    (1, fun i => vec i * n)

def axisRotationToQuat (axis : Vector3 K) (rot : K) : Quat K :=
  let rot := rot * (1 / 2)
  ![axis 0 * libm.sin rot, axis 1 * libm.sin rot, axis 2 * libm.sin rot, libm.cos rot]

def vecToQuat [DecidableEq K] (axis : Vector3 K) : Option (Quat K) := do
  let rot := vecNorm libm axis
  let u := vecConsMult (← divide 1 rot) axis
  some (axisRotationToQuat libm u rot)

end Rotations

section Ordered
variable [Field K] [LinearOrder K] (libm : Libm K)

def matInverse (mat : Matrix3 K) : Option (Matrix3 K) :=
  let a := mat 0 0
  let b := mat 0 1
  let c := mat 0 2
  let d := mat 1 0
  let e := mat 1 1
  let f := mat 1 2
  let g := mat 2 0
  let h := mat 2 1
  let i := mat 2 2
  let A := e * i - f * h
  let B := -1 * (d * i - f * g)
  let C := d * h - e * g
  let D := -1 * (b * i - c * h)
  let E := a * i - c * g
  let F := -1 * (a * h - b * g)
  let G := b * f - c * e
  let H := -1 * (a * f - c * d)
  let I := a * e - b * d
  let detmat := a * A + b * B + c * C
  if 1 / 10 ^ 25 ≤ |detmat| then
    some !![A / detmat, D / detmat, G / detmat;
            B / detmat, E / detmat, H / detmat;
            C / detmat, F / detmat, I / detmat]
  else none

def squareRoot (x : K) : Option K := if x < 0 then none else some (libm.sqrt x)

def absDouble (x : K) : K := libm.sqrt (x ^ 2)

def keepLarger (q : Quat K) (best : K × Fin 4) (i : Fin 4) : K × Fin 4 :=
  if best.1 < absDouble libm (q i) then (absDouble libm (q i), i) else best

def maximum (q : Quat K) : K × Fin 4 := [0, 1, 2, 3].foldl (keepLarger libm q) (0, 0)

def rebuild (dcm : Matrix3 K) (q : Quat K) : Fin 4 → Option (Quat K)
  | 0 => do
    let q1 ← divide (dcm 0 1 + dcm 1 0) (4 * q 0)
    let q2 ← divide (dcm 0 2 + dcm 2 0) (4 * q 0)
    let q3 ← divide (dcm 1 2 - dcm 2 1) (4 * q 0)
    some ![q 0, q1, q2, q3]
  | 1 => do
    let q0 ← divide (dcm 0 1 + dcm 1 0) (4 * q 1)
    let q2 ← divide (dcm 2 1 + dcm 1 2) (4 * q 1)
    let q3 ← divide (dcm 2 0 - dcm 0 2) (4 * q 1)
    some ![q0, q 1, q2, q3]
  | 2 => do
    let q0 ← divide (dcm 2 0 + dcm 0 2) (4 * q 2)
    let q1 ← divide (dcm 2 1 + dcm 1 2) (4 * q 2)
    let q3 ← divide (dcm 0 1 - dcm 1 0) (4 * q 2)
    some ![q0, q1, q 2, q3]
  | 3 => do
    let q0 ← divide (dcm 1 2 - dcm 2 1) (4 * q 3)
    let q1 ← divide (dcm 2 0 - dcm 0 2) (4 * q 3)
    let q2 ← divide (dcm 0 1 - dcm 1 0) (4 * q 3)
    some ![q0, q1, q2, q 3]

def quatFromDcm (dcm : Matrix3 K) : Option (Quat K) := do
  let root0 ← squareRoot libm (1 + dcm 0 0 - dcm 1 1 - dcm 2 2)
  let root1 ← squareRoot libm (1 - dcm 0 0 + dcm 1 1 - dcm 2 2)
  let root2 ← squareRoot libm (1 - dcm 0 0 - dcm 1 1 + dcm 2 2)
  let root3 ← squareRoot libm (1 + dcm 0 0 + dcm 1 1 + dcm 2 2)
  let q : Quat K := ![root0 / 2, root1 / 2, root2 / 2, root3 / 2]
  rebuild dcm q (maximum libm q).2

end Ordered

/-! The 3 x 3 functions are those of matrices. -/

section Matrices
variable [CommRing K]

theorem indexable_three : Indexable 3 3 := by decide

theorem matVecMult_eq (mat : Matrix3 K) (vec res : Vector3 K) :
    matVecMult mat vec res = some (mat *ᵥ vec) := by
  rw [matVecMult, matVecMult_flat mat vec List.length_ofFn indexable_three]
  simp only [Option.bind_eq_bind, Option.bind_some, Option.some.injEq]
  funext i
  rw [List.getD_eq_getElem?_getD, List.getElem?_ofFn, dif_pos i.isLt]
  rfl

theorem matMatMult_eq (lhs rhs res : Matrix3 K) : matMatMult lhs rhs res = some (lhs * rhs) := by
  rw [matMatMult, matMatMult_flat lhs rhs (length_flat res) indexable_three indexable_three
    indexable_three, Option.map_some, ofFlat_flat]

theorem matMatSum_eq (lhs rhs res : Matrix3 K) : matMatSum lhs rhs res = some (lhs + rhs) := by
  rw [matMatSum, matMatSum_flat lhs rhs (length_flat res) (by decide), Option.map_some, ofFlat_flat]

theorem matTranspose_eq (mat res : Matrix3 K) : matTranspose mat res = some matᵀ := by
  rw [matTranspose, matTranspose_flat mat (length_flat res) indexable_three, Option.map_some,
    ofFlat_flat]

end Matrices

section Inverses
variable [Field K] {libm : Libm K}

theorem vecNormalize_eq [DecidableEq K] {vec : Vector3 K} (real : vecNorm libm vec ≠ 0) :
    (vecNormalize libm vec none).2 = (1 / vecNorm libm vec) • vec := by
  rw [vecNormalize, if_neg real]
  funext i
  exact mul_comm _ _

theorem matInverse_eq [LinearOrder K] {S : Matrix3 K} (large : 1 / 10 ^ 25 ≤ |S.det|) :
    matInverse S = some S⁻¹ := by
  have det : S 0 0 * (S 1 1 * S 2 2 - S 1 2 * S 2 1) +
      S 0 1 * (-1 * (S 1 0 * S 2 2 - S 1 2 * S 2 0)) +
      S 0 2 * (S 1 0 * S 2 1 - S 1 1 * S 2 0) = S.det := by
    rw [Matrix.det_fin_three]
    ring
  rw [matInverse]
  simp only [det, if_pos large, Matrix.inv_def, Ring.inverse_eq_inv', Matrix.adjugate_fin_three]
  congr 1
  ext i j
  fin_cases i <;> fin_cases j <;> simp <;> ring

end Inverses

/-! The quaternions of `math_utils.c` are Hamilton's. -/

section Hamilton
variable [CommRing K]

def hamilton (q : Quat K) : ℍ[K] := ⟨q 3, q 0, q 1, q 2⟩

def pureQuat (v : Vector3 K) : ℍ[K] := ⟨0, v 0, v 1, v 2⟩

@[simp] theorem hamilton_re (q : Quat K) : (hamilton q).re = q 3 := rfl
@[simp] theorem hamilton_imI (q : Quat K) : (hamilton q).imI = q 0 := rfl
@[simp] theorem hamilton_imJ (q : Quat K) : (hamilton q).imJ = q 1 := rfl
@[simp] theorem hamilton_imK (q : Quat K) : (hamilton q).imK = q 2 := rfl

@[simp] theorem pureQuat_re (v : Vector3 K) : (pureQuat v).re = 0 := rfl
@[simp] theorem pureQuat_imI (v : Vector3 K) : (pureQuat v).imI = v 0 := rfl
@[simp] theorem pureQuat_imJ (v : Vector3 K) : (pureQuat v).imJ = v 1 := rfl
@[simp] theorem pureQuat_imK (v : Vector3 K) : (pureQuat v).imK = v 2 := rfl

theorem pureQuat_injective : Function.Injective (pureQuat (K := K)) := by
  intro v w same
  funext i
  fin_cases i
  · exact congrArg QuaternionAlgebra.imI same
  · exact congrArg QuaternionAlgebra.imJ same
  · exact congrArg QuaternionAlgebra.imK same

theorem hamilton_quatMult (p q : Quat K) : hamilton (quatMult p q) = hamilton p * hamilton q := by
  apply Quaternion.ext
  · simp [quatMult]
    ring
  · simp [quatMult]
    ring
  · simp [quatMult]
    ring
  · simp [quatMult]
    ring

theorem hamilton_quatConjugate (q : Quat K) : hamilton (quatConjugate q) = star (hamilton q) := by
  apply Quaternion.ext <;> simp [quatConjugate]

theorem pureQuat_quatFrameConv (q : Quat K) (v : Vector3 K) :
    pureQuat (quatFrameConv q v) = star (hamilton q) * pureQuat v * hamilton q := by
  have vector : hamilton ![v 0, v 1, v 2, 0] = pureQuat v := rfl
  rw [← hamilton_quatConjugate, ← vector, ← hamilton_quatMult, ← hamilton_quatMult]
  apply Quaternion.ext
  · simp [quatMult, quatConjugate]
    ring
  · rfl
  · rfl
  · rfl

theorem quatFrameConv_quatMult (p q : Quat K) (v : Vector3 K) :
    quatFrameConv (quatMult p q) v = quatFrameConv q (quatFrameConv p v) := by
  apply pureQuat_injective
  simp only [pureQuat_quatFrameConv, hamilton_quatMult, star_mul, mul_assoc]

theorem quatToDcm_mulVec (q : Quat K) (v : Vector3 K) :
    quatToDcm q *ᵥ v = quatFrameConv q v := by
  funext i
  fin_cases i <;>
    simp [quatToDcm, quatFrameConv, quatMult, quatConjugate, Matrix.mulVec, dotProduct,
      Fin.sum_univ_three] <;> ring

theorem quatToDcm_mul_transpose (q : Quat K) :
    quatToDcm q * (quatToDcm q)ᵀ = (q 0 ^ 2 + q 1 ^ 2 + q 2 ^ 2 + q 3 ^ 2) ^ 2 • 1 := by
  ext i j
  fin_cases i <;> fin_cases j <;>
    simp [quatToDcm, Matrix.mul_apply, Fin.sum_univ_three] <;> ring

theorem frame_conversions_agree (p q : Quat K) (v res : Vector3 K) (res₁ res₂ : Matrix3 K) :
    matVecMult (quatToDcm q) v res = some (quatFrameConv q v) ∧
      quatFrameConv (quatMult p q) v = quatFrameConv q (quatFrameConv p v) ∧
      ((matTranspose (quatToDcm q) res₁).bind fun t => matMatMult (quatToDcm q) t res₂) =
        some ((q 0 ^ 2 + q 1 ^ 2 + q 2 ^ 2 + q 3 ^ 2) ^ 2 • 1) := by
  refine ⟨?_, quatFrameConv_quatMult p q v, ?_⟩
  · rw [matVecMult_eq, quatToDcm_mulVec]
  · rw [matTranspose_eq, Option.bind_some, matMatMult_eq, quatToDcm_mul_transpose]

end Hamilton

end Attitude
