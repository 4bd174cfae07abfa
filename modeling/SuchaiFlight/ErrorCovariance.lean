import SuchaiFlight.Attitude
import SuchaiFlight.MatrixBlocks
import SuchaiFlight.Library.Runs
import Mathlib.LinearAlgebra.Matrix.PosDef
import Mathlib.Algebra.Order.Star.Real
import Mathlib.Analysis.SpecialFunctions.Trigonometric.Basic

/-!
`eskf_compute_error`, which propagates the error covariance of the attitude
filter from one reading of the gyroscope to the next.
-/
namespace ErrorCovariance
open CountedLoops RowMajor MatrixBlocks Attitude Runs
open FlatMatrices (matCopy)
open scoped Matrix

variable {K : Type}

abbrev Matrix6 (K : Type) := Matrix (Fin 6) (Fin 6) K

/-- What the local arrays hold before they are written. -/
structure Locals (K : Type) where
  temp : Matrix3 K
  f : Matrix6 K
  ft : Matrix6 K
  fp : Matrix6 K
  fpft : Matrix6 K

section Functions
variable [Field K]

def stdRwW : K := 1 / 1000
def stdRnW : K := 1 / 1000
def stdRnMag : K := 1 / 1000

def updateQ (dt : K) (Q : List K) : Option (List K) :=
  upTo 2 (fun i => upTo 2 fun j Q =>
    if i = 0 ∧ j = 0 then
      let val := stdRnW ^ 2 * dt ^ 2
      matCopy (flat (matSetDiag val val val)) Q 3 3 6 6 0 0
    else if i = 1 ∧ j = 1 then
      let val := stdRwW ^ 2 * dt
      matCopy (flat (matSetDiag val val val)) Q 3 3 6 6 3 3
    else matCopy (flat (matSetDiag 0 0 0)) Q 3 3 6 6 (i * 3) (j * 3)) Q

variable [DecidableEq K] (libm : Libm K)

def eskfComputeError (locals : Locals K) (omega : Vector3 K) (dt : K) (P Q : List K) :
    Option (List K × List K) := do
  let omegaDt := vecConsMult dt omega
  let dqOmegadt ← vecToQuat libm omegaDt
  let rwb := quatToDcm dqOmegadt
  let temp ← matTranspose rwb locals.temp
  let F ← matCopy (flat temp) (flat locals.f) 3 3 6 6 0 0
  let diagVal := -1 * dt
  let F ← matCopy (flat (matSetDiag diagVal diagVal diagVal)) F 3 3 6 6 0 3
  let F ← matCopy (flat (matSetDiag 0 0 0)) F 3 3 6 6 3 0
  let F ← matCopy (flat (matSetDiag 1 1 1)) F 3 3 6 6 3 3
  let Q ← updateQ dt Q
  let Ft ← FlatMatrices.matTranspose F (flat locals.ft) 6 6
  let FP ← FlatMatrices.matMatMult F P (flat locals.fp) 6 6 6
  let FPFt ← FlatMatrices.matMatMult FP Ft (flat locals.fpft) 6 6 6
  let P ← FlatMatrices.matMatSum FPFt Q P 6 6
  some (P, Q)

end Functions

/-! What a call is to compute. -/

section Propagation
variable [Field K] (libm : Libm K)

def halves : Fin 3 ⊕ Fin 3 ≃ Fin 6 := finSumFinEquiv

def blocks (A B C D : Matrix3 K) : Matrix6 K :=
  Matrix.reindex halves halves (Matrix.fromBlocks A B C D)

def rotation (v : Vector3 K) : Quat K :=
  axisRotationToQuat libm ((1 / vecNorm libm v) • v) (vecNorm libm v)

/-- `[[Cᵀ, -dt I], [0, I]]` for the rotation matrix `C` of `omega * dt`. -/
def transition (omega : Vector3 K) (dt : K) : Matrix6 K :=
  blocks (quatToDcm (rotation libm (dt • omega)))ᵀ (-dt • 1) 0 1

def noise (dt : K) : Matrix6 K :=
  Matrix.diagonal fun i => if i.val < 3 then stdRnW ^ 2 * dt ^ 2 else stdRwW ^ 2 * dt

def propagated (omega : Vector3 K) (dt : K) (P : Matrix6 K) : Matrix6 K :=
  transition libm omega dt * P * (transition libm omega dt)ᵀ + noise dt

end Propagation

section Call
variable [Field K] {libm : Libm K}

@[simp] theorem halves_inl (i : Fin 3) : (halves (.inl i)).val = i := rfl
@[simp] theorem halves_inr (i : Fin 3) : (halves (.inr i)).val = 3 + i := rfl

theorem matSetDiag_eq (a : K) : matSetDiag a a a = a • 1 := by
  ext i j
  fin_cases i <;> fin_cases j <;> simp [matSetDiag]

theorem copyBlock {K : Type} (M : Matrix3 K) (R : Matrix6 K) {a b : Nat} (row : a ≤ 3)
    (column : b ≤ 3) :
    matCopy (flat M) (flat R) 3 3 6 6 a b = some (flat (withBlock M R a b)) := by
  apply matCopy_flat M R (.inr ⟨.inr rfl, rfl, by omega⟩) (by omega) (by omega) (by decide)

theorem withBlock_blocks {K : Type} (A B C D : Matrix3 K) (R : Matrix6 K) :
    withBlock D (withBlock C (withBlock B (withBlock A R 0 0) 0 3) 3 0) 3 3 = blocks A B C D := by
  ext r c
  obtain ⟨r, rfl⟩ := halves.surjective r
  obtain ⟨c, rfl⟩ := halves.surjective c
  have low : ∀ i : Fin 3, ¬ 3 ≤ i.val := by omega
  have high : ∀ i : Fin 3, 3 + i.val < 6 := by omega
  rcases r with r | r <;> rcases c with c | c <;> simp [withBlock, blocks, low, high]

theorem blocks_diagonal (a b : K) :
    blocks (a • 1) 0 0 (b • 1) = Matrix.diagonal fun i => if i.val < 3 then a else b := by
  ext r c
  obtain ⟨r, rfl⟩ := halves.surjective r
  obtain ⟨c, rfl⟩ := halves.surjective c
  rcases r with r | r <;> rcases c with c | c <;>
    simp [blocks, Matrix.diagonal_apply, Matrix.one_apply, Fin.ext_iff]

theorem updateQ_eq (dt : K) (Q : Matrix6 K) : updateQ dt (flat Q) = some (flat (noise dt)) := by
  rw [noise, ← blocks_diagonal, ← withBlock_blocks _ _ _ _ Q]
  simp [updateQ, upTo, matSetDiag_eq, copyBlock]

variable [DecidableEq K]

theorem vecToQuat_eq {v : Vector3 K} (real : vecNorm libm v ≠ 0) :
    vecToQuat libm v = some (rotation libm v) := by
  rw [vecToQuat, divide, if_neg real, rotation]
  simp only [Option.bind_eq_bind, Option.bind_some]
  congr 2
  funext i
  simp [vecConsMult, mul_comm]

theorem eskfComputeError_eq {omega : Vector3 K} {dt : K}
    (real : vecNorm libm (dt • omega) ≠ 0) (locals : Locals K) (P Q : Matrix6 K) :
    eskfComputeError libm locals omega dt (flat P) (flat Q) =
      some (flat (propagated libm omega dt P), flat (noise dt)) := by
  have scaled : vecConsMult dt omega = dt • omega := by
    funext i
    simp [vecConsMult, mul_comm]
  have filled : ∀ R : Matrix6 K, withBlock ((1 : K) • (1 : Matrix3 K))
      (withBlock ((0 : K) • (1 : Matrix3 K)) (withBlock ((-1 * dt) • (1 : Matrix3 K)) (withBlock
        (quatToDcm (rotation libm (dt • omega)))ᵀ R 0 0) 0 3) 3 0) 3 3 = transition libm omega dt := by
    intro R
    rw [withBlock_blocks, one_smul, zero_smul, neg_one_mul]
    rfl
  have square : FlatMatrices.Indexable 6 6 := by decide
  rw [eskfComputeError, scaled]
  dsimp only
  rw [bind_of_eq (vecToQuat_eq real), bind_of_eq (matTranspose_eq _ _), matSetDiag_eq,
    matSetDiag_eq, matSetDiag_eq, bind_of_eq (copyBlock _ _ (by decide) (by decide)),
    bind_of_eq (copyBlock _ _ (by decide) (by decide)),
    bind_of_eq (copyBlock _ _ (by decide) (by decide)),
    bind_of_eq (copyBlock _ _ (by decide) (by decide)), filled, bind_of_eq (updateQ_eq _ _),
    bind_of_eq (FlatMatrices.matTranspose_flat _ (length_flat _) square),
    bind_of_eq (FlatMatrices.matMatMult_flat _ _ (length_flat _) square square square),
    bind_of_eq (FlatMatrices.matMatMult_flat _ _ (length_flat _) square square square),
    bind_of_eq (FlatMatrices.matMatSum_flat _ _ (length_flat _) (by decide))]
  rfl

end Call

/-! Runs of calls. -/

structure Call (K : Type) where
  omega : Vector3 K
  dt : K
  locals : Locals K

def step [Field K] [DecidableEq K] (libm : Libm K) (s : List K × List K) (call : Call K) :
    Option (List K × List K) :=
  eskfComputeError libm call.locals call.omega call.dt s.1 s.2

def Proper [Field K] [LinearOrder K] (call : Call K) : Prop :=
  0 ≤ call.dt ∧ call.dt • call.omega ≠ 0

def HoldsCovariance (s : List ℝ × List ℝ) : Prop :=
  ∃ P Q : Matrix6 ℝ, s = (flat P, flat Q) ∧ P.PosSemidef

section Runs
variable {libm : Libm ℝ}

theorem vecNorm_ne_zero (root : ∀ x, 0 < x → 0 < libm.sqrt x) {v : Vector3 ℝ} (real : v ≠ 0) :
    vecNorm libm v ≠ 0 := by
  obtain ⟨i, component⟩ := Function.ne_iff.mp real
  have nonzero : v i ≠ 0 := component
  have positive : 0 < v i ^ 2 := by positivity
  have sum : 0 < 0 + v 0 ^ 2 + v 1 ^ 2 + v 2 ^ 2 := by
    fin_cases i <;> simp only [Fin.zero_eta, Fin.mk_one, Fin.reduceFinMk] at positive <;> positivity
  exact (root _ sum).ne'

theorem noise_posSemidef {dt : ℝ} (forward : 0 ≤ dt) : (noise dt).PosSemidef := by
  rw [noise, Matrix.posSemidef_diagonal_iff]
  intro i
  split
  · positivity
  · positivity

theorem propagated_posSemidef (omega : Vector3 ℝ) {dt : ℝ} (forward : 0 ≤ dt) {P : Matrix6 ℝ}
    (valid : P.PosSemidef) : (propagated libm omega dt P).PosSemidef := by
  have moved := valid.mul_mul_conjTranspose_same (transition libm omega dt)
  rw [Matrix.conjTranspose_eq_transpose_of_trivial] at moved
  exact moved.add (noise_posSemidef forward)

theorem step_eq (root : ∀ x, 0 < x → 0 < libm.sqrt x) {call : Call ℝ} (proper : Proper call)
    (P Q : Matrix6 ℝ) : step libm (flat P, flat Q) call =
      some (flat (propagated libm call.omega call.dt P), flat (noise call.dt)) :=
  eskfComputeError_eq (vecNorm_ne_zero root proper.2) call.locals P Q

theorem step_covariance (root : ∀ x, 0 < x → 0 < libm.sqrt x) {call : Call ℝ}
    (proper : Proper call) {s : List ℝ × List ℝ} (holds : HoldsCovariance s) :
    ∃ t, step libm s call = some t ∧ HoldsCovariance t := by
  obtain ⟨P, Q, rfl, valid⟩ := holds
  exact ⟨_, step_eq root proper P Q, _, _, rfl,
    propagated_posSemidef call.omega proper.1 valid⟩

theorem run_covariance (root : ∀ x, 0 < x → 0 < libm.sqrt x) {calls : List (Call ℝ)}
    (proper : ∀ call ∈ calls, Proper call) {s : List ℝ × List ℝ} (holds : HoldsCovariance s) :
    ∃ t, run (step libm) s calls = some t ∧ HoldsCovariance t :=
  run_total (fun _ _ held proper => step_covariance root proper held) holds proper

/-- Every run has a result, `P` is a covariance throughout, and every call
    propagates it. -/
theorem covariance_kept (root : ∀ x, 0 < x → 0 < libm.sqrt x) {P Q : Matrix6 ℝ}
    (valid : P.PosSemidef) {calls : List (Call ℝ)} (proper : ∀ call ∈ calls, Proper call) :
    (∃ t, run (step libm) (flat P, flat Q) calls = some t) ∧
      Throughout (step libm) HoldsCovariance (flat P, flat Q) calls ∧
      Along (step libm) (fun s call => ∃ P Q : Matrix6 ℝ, s = (flat P, flat Q) ∧
        step libm s call =
          some (flat (propagated libm call.omega call.dt P), flat (noise call.dt)))
        (flat P, flat Q) calls := by
  have start : HoldsCovariance (flat P, flat Q) := ⟨P, Q, rfl, valid⟩
  have reached : ∀ done t, (∀ call ∈ done, Proper call) →
      run (step libm) (flat P, flat Q) done = some t → HoldsCovariance t := by
    intro done t among run
    obtain ⟨u, run', kept⟩ := run_covariance root among start
    obtain rfl := Option.some.inj (run.symm.trans run')
    exact kept
  refine ⟨?_, ?_, ?_⟩
  · obtain ⟨t, run, -⟩ := run_covariance root proper start
    exact ⟨t, run⟩
  · rintro done rest t rfl run
    exact reached done t (fun call mem => proper call (List.mem_append_left _ mem)) run
  · rintro done call rest t rfl run
    obtain ⟨P', Q', rfl, -⟩ :=
      reached done t (fun call mem => proper call (List.mem_append_left _ mem)) run
    exact ⟨P', Q', rfl, step_eq root (proper call (by simp)) P' Q'⟩

end Runs

noncomputable def realLibm : Libm ℝ := ⟨Real.sqrt, Real.sin, Real.cos⟩

noncomputable def turns : List (Call ℝ) :=
  [⟨![1, 0, 0], 1, ⟨0, 0, 0, 0, 0⟩⟩, ⟨![0, 1, 0], 1, ⟨0, 0, 0, 0, 0⟩⟩,
    ⟨![0, 1, 1], 1, ⟨0, 0, 0, 0, 0⟩⟩]

theorem turns_covariance_kept :
    (∃ t, run (step realLibm) (flat (1 : Matrix6 ℝ), flat (0 : Matrix6 ℝ)) turns = some t) ∧
      Throughout (step realLibm) HoldsCovariance (flat (1 : Matrix6 ℝ), flat (0 : Matrix6 ℝ))
        turns ∧
      Along (step realLibm) (fun s call => ∃ P Q : Matrix6 ℝ, s = (flat P, flat Q) ∧
        step realLibm s call =
          some (flat (propagated realLibm call.omega call.dt P), flat (noise call.dt)))
        (flat (1 : Matrix6 ℝ), flat (0 : Matrix6 ℝ)) turns := by
  apply covariance_kept (fun x positive => Real.sqrt_pos.mpr positive) Matrix.PosSemidef.one
  intro call mem
  simp only [turns, List.mem_cons, List.not_mem_nil, or_false] at mem
  rcases mem with rfl | rfl | rfl
  · exact ⟨zero_le_one, fun still => by simpa using congrFun still 0⟩
  · exact ⟨zero_le_one, fun still => by simpa using congrFun still 1⟩
  · exact ⟨zero_le_one, fun still => by simpa using congrFun still 1⟩

end ErrorCovariance
