import SuchaiFlight.Library.RowMajor
import Mathlib.Algebra.BigOperators.Fin
import Mathlib.Data.Matrix.Basic
import Mathlib.LinearAlgebra.Matrix.Notation

/-!
The functions of `math_utils.c` on flat arrays, whose names begin with `_mat`.
A number is an exact one; an index is an `int`, and a function has no result
when it leaves an array or when an index overflows.
-/
namespace FlatMatrices
open CountedLoops RowMajor Matrix

variable {K : Type}

/-- The value of an `int` expression without negative parts. -/
def index (value : Nat) : Option Nat := if value < 2147483648 then some value else none

section Functions
variable [CommRing K]

/-- The result is the array that is written, which is `mat` for `res == NULL`. -/
def matConsMult (a : K) (mat : List K) (res : Option (List K)) (nX nY : Nat) :
    Option (List K) := do
  let size ← index (nX * nY)
  match res with
  | some res => upTo size (fun i res => do store res i ((← load mat i) * a)) res
  | none => upTo size (fun i mat => do store mat i ((← load mat i) * a)) mat

def productRow (mat vec : List K) (nY i : Nat) (res : List K) : Option (List K) := do
  let res ← store res i 0
  upTo nY (fun j res => do
    let mati ← index (i * nY + j)
    store res i ((← load res i) + (← load mat mati) * (← load vec j))) res

def matVecMult (mat vec res : List K) (nX nY : Nat) : Option (List K) :=
  upTo nX (productRow mat vec nY) res

def productCell (lhs rhs : List K) (nY nZ i k : Nat) (res : List K) : Option (List K) := do
  let ires ← index (i * nZ + k)
  let res ← store res ires 0
  upTo nY (fun j res => do
    let il ← index (i * nY + j)
    let ir ← index (j * nZ + k)
    store res ires ((← load res ires) + (← load lhs il) * (← load rhs ir))) res

def matMatMult (lhs rhs res : List K) (nX nY nZ : Nat) : Option (List K) :=
  upTo nX (fun i => upTo nZ (productCell lhs rhs nY nZ i)) res

def matMatSum (lhs rhs res : List K) (nX nY : Nat) : Option (List K) := do
  let size ← index (nX * nY)
  upTo size (fun i res => do store res i ((← load lhs i) + (← load rhs i))) res

def matSetDiag (m : List K) (val : K) (nX nY : Nat) : Option (List K) :=
  upTo nX (fun i => upTo nY fun j m => do
    let mi ← index (i * nY + j)
    if i = j then store m mi val else store m mi 0) m

end Functions

def matTranspose (mat res : List K) (nX nY : Nat) : Option (List K) :=
  upTo nX (fun i => upTo nY fun j res => do
    let index₁ ← index (nY * i + j)
    let indexT ← index (nX * j + i)
    store res indexT (← load mat index₁)) res

def matCopy (mat res : List K) (matx maty resx _resy pI pJ : Nat) : Option (List K) :=
  upTo matx (fun i => upTo maty fun j res => do
    let iMat ← index (matx * i + j)
    let iRes ← index (resx * (i + pI) + j + pJ)
    store res iRes (← load mat iMat)) res

def Indexable (n m : Nat) : Prop := n * m ≤ 2147483648

instance (n m : Nat) : Decidable (Indexable n m) :=
  inferInstanceAs (Decidable (n * m ≤ 2147483648))

theorem Indexable.symm {n m : Nat} (indexable : Indexable n m) : Indexable m n := by
  rw [Indexable, Nat.mul_comm]
  exact indexable

theorem index_eq {value : Nat} (small : value < 2147483648) : index value = some value := by
  rw [index, if_pos small]

theorem index_cell {n m i j : Nat} (indexable : Indexable n m) (row : i < n) (column : j < m) :
    index (m * i + j) = some (m * i + j) :=
  index_eq (lt_of_lt_of_le (cell_lt row column) indexable)

theorem index_eq_some {value i : Nat} (found : index value = some i) :
    value < 2147483648 ∧ i = value := by
  unfold index at found
  split at found
  · rename_i small
    exact ⟨small, (Option.some.inj found).symm⟩
  · cases found

theorem load_flat {n m i j : Nat} (M : Matrix (Fin n) (Fin m) K) (row : i < n) (column : j < m) :
    load (flat M) (m * i + j) = some (M ⟨i, row⟩ ⟨j, column⟩) := flat_cell M row column

theorem load_ofFn {n : Nat} (v : Fin n → K) {i : Nat} (below : i < n) :
    load (List.ofFn v) i = some (v ⟨i, below⟩) := by
  rw [load, List.getElem?_ofFn, dif_pos below]

theorem load_set_self {a : List K} {cell : Nat} (inside : cell < a.length) (x : K) :
    load (a.set cell x) cell = some x := List.getElem?_set_self inside

theorem store_set {a : List K} {cell : Nat} (inside : cell < a.length) (x y : K) :
    store (a.set cell x) cell y = some (a.set cell y) := by
  rw [store_inside (by rw [List.length_set]; exact inside), List.set_set]

theorem upTo_cells {n m : Nat} {body : Nat → List K → Option (List K)} (M : Matrix (Fin n) (Fin m) K)
    {a : List K} (length : a.length = n * m)
    (pass : ∀ (i : Fin n) (j : Fin m) (b : List K), b[m * i.val + j.val]? = a[m * i.val + j.val]? →
      body (m * i + j) b = store b (m * i + j) (M i j)) :
    upTo (n * m) body a = some (flat M) := by
  obtain ⟨b, run, filled⟩ := upTo_fill (n := n * m) (a := a) body id
    (fun k => (flat M)[k]?) (fun k below => by rw [length]; exact below)
    (fun k _ k' _ same => same)
    (by
      intro k below b same untouched
      let i : Fin n := Fin.divNat (⟨k, below⟩ : Fin (n * m))
      let j : Fin m := Fin.modNat (⟨k, below⟩ : Fin (n * m))
      have place : k = m * i.val + j.val := (Nat.div_add_mod k m).symm
      have inside : m * i.val + j.val < b.length := by
        rw [same, length, ← place]
        exact below
      rw [id_eq, place] at untouched
      rw [id_eq, place, flat_cell M i.isLt j.isLt, pass i j b untouched]
      exact ⟨_, rfl, store_inside inside _⟩)
  rw [run]
  congr 1
  apply eq_flat (filled.length.trans length)
  intro i j
  rw [← flat_cell M i.isLt j.isLt]
  exact filled.written _ (cell_lt i.isLt j.isLt)

/-! What the functions compute. -/

section Product
variable [CommRing K] {n m l : Nat}

theorem upTo_sum {a : List K} {cell : Nat} (term : Nat → K)
    {body : Nat → List K → Option (List K)}
    (pass : ∀ j < m, ∀ sum, body j (a.set cell sum) = some (a.set cell (sum + term j))) :
    upTo m body (a.set cell 0) = some (a.set cell (∑ j ∈ Finset.range m, term j)) := by
  induction m with
  | zero => rfl
  | succ m ih =>
    rw [upTo, ih fun j below => pass j (by omega), Option.bind_some, pass m (by omega),
      Finset.sum_range_succ]

def term (lhs rhs : List K) (m l i k j : Nat) : K := lhs.getD (m * i + j) 0 * rhs.getD (l * j + k) 0

theorem term_flat (A : Matrix (Fin n) (Fin m) K) (B : Matrix (Fin m) (Fin l) K) {i j k : Nat}
    (row : i < n) (inner : j < m) (column : k < l) :
    term (flat A) (flat B) m l i k j = A ⟨i, row⟩ ⟨j, inner⟩ * B ⟨j, inner⟩ ⟨k, column⟩ := by
  rw [term, List.getD_eq_getElem?_getD, List.getD_eq_getElem?_getD, flat_cell A row inner,
    flat_cell B inner column]
  rfl

theorem sum_term (A : Matrix (Fin n) (Fin m) K) (B : Matrix (Fin m) (Fin l) K) (i : Fin n)
    (k : Fin l) : ∑ j ∈ Finset.range m, term (flat A) (flat B) m l i k j = (A * B) i k := by
  rw [Matrix.mul_apply, Finset.sum_range]
  apply Finset.sum_congr rfl
  intro j _
  exact term_flat A B i.isLt j.isLt k.isLt

theorem productCell_eq (A : Matrix (Fin n) (Fin m) K) (B : Matrix (Fin m) (Fin l) K) {b : List K}
    (length : b.length = n * l) (left : Indexable n m) (right : Indexable m l)
    (product : Indexable n l) {i k : Nat} (row : i < n) (column : k < l) :
    productCell (flat A) (flat B) m l i k b = some (b.set (l * i + k)
      (∑ j ∈ Finset.range m, term (flat A) (flat B) m l i k j)) := by
  have inside := cell_inside length row column
  rw [productCell, Nat.mul_comm i l, index_cell product row column]
  simp only [Option.bind_eq_bind, Option.bind_some, store_inside inside]
  apply upTo_sum
  intro j below sum
  rw [Nat.mul_comm i m, Nat.mul_comm j l, index_cell left row below, index_cell right below column]
  simp only [Option.bind_some, load_set_self inside, load_flat A row below,
    load_flat B below column, store_set inside, term_flat A B row below column]

theorem matMatMult_flat (A : Matrix (Fin n) (Fin m) K) (B : Matrix (Fin m) (Fin l) K)
    {res : List K} (length : res.length = n * l) (left : Indexable n m) (right : Indexable m l)
    (product : Indexable n l) :
    matMatMult (flat A) (flat B) res n m l = some (flat (A * B)) := by
  obtain ⟨b, run, filled⟩ := upTo_fill₂ (a := res) (productCell (flat A) (flat B) m l)
    (fun x => l * x.1 + x.2)
    (fun x => some (∑ j ∈ Finset.range m, term (flat A) (flat B) m l x.1 x.2 j))
    (fun i row k column => cell_inside length row column)
    (fun i _ k column i' _ k' column' same => cell_injective column column' same)
    (fun i row k column b same _ =>
      ⟨_, rfl, productCell_eq A B (same.trans length) left right product row column⟩)
  rw [matMatMult, run, eq_flat_of_filled length filled (fun _ _ => rfl)
    fun i k => congrArg some (sum_term A B i k)]

theorem productRow_eq (A : Matrix (Fin n) (Fin m) K) (v : Fin m → K) {b : List K}
    (length : b.length = n) (indexable : Indexable n m) (i : Fin n) :
    productRow (flat A) (List.ofFn v) m i b = some (b.set i ((A *ᵥ v) i)) := by
  have inside : i.val < b.length := by
    rw [length]
    exact i.isLt
  have sum : ∑ j ∈ Finset.range m, term (flat A) (List.ofFn v) m 1 i 0 j = (A *ᵥ v) i := by
    rw [ofFn_eq_flat]
    exact sum_term A (replicateCol (Fin 1) v) i 0
  rw [productRow, store_inside inside, ← sum]
  apply upTo_sum
  intro j below sum
  have product : term (flat A) (List.ofFn v) m 1 i 0 j = A i ⟨j, below⟩ * v ⟨j, below⟩ := by
    rw [ofFn_eq_flat]
    exact term_flat A (replicateCol (Fin 1) v) i.isLt below (by decide)
  rw [Nat.mul_comm i.val m, index_cell indexable i.isLt below]
  simp only [Option.bind_eq_bind, Option.bind_some, load_set_self inside, load_ofFn v below,
    load_flat A i.isLt below, store_set inside, product]

theorem matVecMult_flat (A : Matrix (Fin n) (Fin m) K) (v : Fin m → K) {res : List K}
    (length : res.length = n) (indexable : Indexable n m) :
    matVecMult (flat A) (List.ofFn v) res n m = some (List.ofFn (A *ᵥ v)) := by
  obtain ⟨b, run, filled⟩ := upTo_fill (a := res) (productRow (flat A) (List.ofFn v) m) id
    (fun i => (List.ofFn (A *ᵥ v))[i]?)
    (fun i below => by rw [length]; exact below) (fun i _ j _ same => same)
    (fun i below b same _ => ⟨(A *ᵥ v) ⟨i, below⟩, load_ofFn (A *ᵥ v) below,
      productRow_eq A v (same.trans length) indexable ⟨i, below⟩⟩)
  rw [matVecMult, run]
  congr 1
  apply List.ext_getElem?
  intro i
  by_cases below : i < n
  · exact filled.written i below
  · rw [List.getElem?_eq_none (by rw [filled.length]; omega),
      List.getElem?_eq_none (by rw [List.length_ofFn]; omega)]

theorem matMatSum_flat (A B : Matrix (Fin n) (Fin m) K) {res : List K}
    (length : res.length = n * m) (small : n * m < 2147483648) :
    matMatSum (flat A) (flat B) res n m = some (flat (A + B)) := by
  rw [matMatSum, index_eq small]
  apply upTo_cells (A + B) length
  intro i j b _
  rw [load_flat A i.isLt j.isLt, load_flat B i.isLt j.isLt]
  rfl

theorem matConsMult_flat (a : K) (A : Matrix (Fin n) (Fin m) K) {res : List K}
    (length : res.length = n * m) (small : n * m < 2147483648) :
    matConsMult a (flat A) (some res) n m = some (flat (a • A)) := by
  rw [matConsMult, index_eq small]
  apply upTo_cells (a • A) length
  intro i j b _
  rw [load_flat A i.isLt j.isLt, Matrix.smul_apply, smul_eq_mul, mul_comm a]
  rfl

/-- `res == NULL` multiplies in place. -/
theorem matConsMult_inPlace (a : K) (A : Matrix (Fin n) (Fin m) K) (small : n * m < 2147483648) :
    matConsMult a (flat A) none n m = some (flat (a • A)) := by
  rw [matConsMult, index_eq small]
  apply upTo_cells (a • A) (length_flat A)
  intro i j b untouched
  have entry : load b (m * i + j) = some (A i j) := untouched.trans (flat_cell A i.isLt j.isLt)
  rw [entry, Matrix.smul_apply, smul_eq_mul, mul_comm a]
  rfl

theorem matSetDiag_flat (val : K) {a : List K} (length : a.length = n * n)
    (indexable : Indexable n n) :
    matSetDiag a val n n = some (flat (Matrix.diagonal fun _ : Fin n => val)) := by
  obtain ⟨b, run, filled⟩ := upTo_fill₂ (n := n) (m := n) (a := a)
    (fun i j m => do
      let mi ← index (i * n + j)
      if i = j then store m mi val else store m mi 0)
    (fun x => n * x.1 + x.2) (fun x => some (if x.1 = x.2 then val else 0))
    (fun i row k column => cell_inside length row column)
    (fun i _ k column i' _ k' column' same => cell_injective column column' same)
    (by
      intro i row j column b same _
      have inside := cell_inside (same.trans length) row column
      refine ⟨_, rfl, ?_⟩
      rw [Nat.mul_comm i n, index_cell indexable row column]
      simp only [Option.bind_eq_bind, Option.bind_some, store_inside inside]
      split <;> rfl)
  rw [matSetDiag, run, eq_flat_of_filled length filled (fun _ _ => rfl)]
  intro i j
  simp only [Matrix.diagonal_apply, Fin.ext_iff]

end Product

/-! Transposition and copies. -/

section Copies
variable {n m : Nat}

theorem matTranspose_flat (A : Matrix (Fin n) (Fin m) K) {res : List K}
    (length : res.length = m * n) (indexable : Indexable n m) :
    matTranspose (flat A) res n m = some (flat Aᵀ) := by
  obtain ⟨b, run, filled⟩ := upTo_fill₂ (n := n) (m := m) (a := res)
    (fun i j res => do
      let index₁ ← index (m * i + j)
      let indexT ← index (n * j + i)
      store res indexT (← load (flat A) index₁))
    (fun x => n * x.2 + x.1) (fun x => (flat A)[m * x.1 + x.2]?)
    (fun i row j column => cell_inside length column row)
    (fun i row j _ i' row' j' _ same => (cell_injective row row' same).symm)
    (by
      intro i row j column b same _
      have inside := cell_inside (same.trans length) column row
      refine ⟨_, flat_cell A row column, ?_⟩
      rw [index_cell indexable row column, index_cell indexable.symm column row]
      simp only [Option.bind_eq_bind, Option.bind_some, load_flat A row column,
        store_inside inside])
  rw [matTranspose, run]
  congr 1
  apply eq_flat (filled.length.trans length)
  intro j i
  have cell := filled.written (i.val, j.val) ⟨i.isLt, j.isLt⟩
  rw [flat_cell A i.isLt j.isLt] at cell
  exact cell

theorem matCopy_filled {mat res : List K} {matx maty resx pI pJ : Nat} (resy : Nat)
    (source : ∀ i < matx, ∀ j < maty, matx * i + j < mat.length ∧ matx * i + j < 2147483648)
    (target : ∀ i < matx, ∀ j < maty,
      resx * (i + pI) + j + pJ < res.length ∧ resx * (i + pI) + j + pJ < 2147483648)
    (apart : ∀ i < matx, ∀ j < maty, ∀ i' < matx, ∀ j' < maty,
      resx * (i + pI) + j + pJ = resx * (i' + pI) + j' + pJ → i = i' ∧ j = j') :
    ∃ b, matCopy mat res matx maty resx resy pI pJ = some b ∧
      Filled (fun x : Nat × Nat => x.1 < matx ∧ x.2 < maty)
        (fun x => resx * (x.1 + pI) + x.2 + pJ)
        (fun x => mat[matx * x.1 + x.2]?) res b := by
  apply upTo_fill₂ _ _ _ (fun i row j column => (target i row j column).1) apart
  intro i row j column b same _
  obtain ⟨inMat, small⟩ := source i row j column
  obtain ⟨inRes, small'⟩ := target i row j column
  have entry := List.getElem?_eq_getElem inMat
  refine ⟨_, entry, ?_⟩
  rw [index_eq small, index_eq small']
  simp only [Option.bind_eq_bind, Option.bind_some, load, entry]
  exact store_inside (by rw [same]; exact inRes) _

end Copies

/-! The laws of products and transposed matrices. -/

/-- The laws on arrays of these shapes, whatever the arrays of the results hold. -/
structure MatrixLaws (K : Type) [CommRing K] (nX nY nZ : Nat) : Prop where
  product : ∀ lhs rhs res : List K, lhs.length = nX * nY → rhs.length = nY * nZ →
    res.length = nX * nZ → ∃ product, matMatMult lhs rhs res nX nY nZ = some product ∧
      product.length = nX * nZ ∧ ∀ i < nX, ∀ k < nZ, product[i * nZ + k]? =
        some (∑ j ∈ Finset.range nY, lhs.getD (i * nY + j) 0 * rhs.getD (j * nZ + k) 0)
  transposed : ∀ lhs rhs res res₁ res₂ res₃ res₄ : List K, lhs.length = nX * nY →
    rhs.length = nY * nZ → res.length = nX * nZ → res₁.length = nZ * nX →
    res₂.length = nZ * nY → res₃.length = nY * nX → res₄.length = nZ * nX →
    ∃ product t rhsT lhsT, matMatMult lhs rhs res nX nY nZ = some product ∧
      matTranspose product res₁ nX nZ = some t ∧ matTranspose rhs res₂ nY nZ = some rhsT ∧
      matTranspose lhs res₃ nX nY = some lhsT ∧ matMatMult rhsT lhsT res₄ nZ nY nX = some t
  twice : ∀ mat res res₁ : List K, mat.length = nX * nY → res.length = nY * nX →
    res₁.length = nX * nY →
    ∃ t, matTranspose mat res nX nY = some t ∧ matTranspose t res₁ nY nX = some mat

section Laws
variable [CommRing K] {nX nY nZ : Nat}

theorem indexable_of_product {lhs rhs res product : List K} (hx : 1 ≤ nX) (hy : 1 ≤ nY)
    (hz : 1 ≤ nZ) (run : matMatMult lhs rhs res nX nY nZ = some product) :
    Indexable nX nY ∧ Indexable nY nZ ∧ Indexable nX nZ := by
  obtain ⟨u, v, row⟩ := upTo_passes run (i := nX - 1) (by omega)
  obtain ⟨u, v, cell⟩ := upTo_passes row (i := nZ - 1) (by omega)
  obtain ⟨ires, found, cell⟩ := Option.bind_eq_some_iff.mp cell
  obtain ⟨u, -, sum⟩ := Option.bind_eq_some_iff.mp cell
  obtain ⟨u, v, last⟩ := upTo_passes sum (i := nY - 1) (by omega)
  obtain ⟨il, left, last⟩ := Option.bind_eq_some_iff.mp last
  obtain ⟨ir, right, -⟩ := Option.bind_eq_some_iff.mp last
  -- the last index is one below the size
  have size : ∀ {n m i : Nat}, 1 ≤ n → 1 ≤ m → index ((n - 1) * m + (m - 1)) = some i →
      Indexable n m := by
    intro n m i hn hm found
    have small := (index_eq_some found).1
    obtain ⟨n, rfl⟩ := Nat.exists_eq_add_of_le hn
    rw [Nat.add_sub_cancel_left] at small
    rw [Indexable, Nat.add_mul, Nat.one_mul]
    omega
  exact ⟨size hx hy left, size hy hz right, size hx hz found⟩

/-- The laws hold for the shapes whose arrays are all indexed by an `int`. -/
theorem matrix_laws_iff (hx : 1 ≤ nX) (hy : 1 ≤ nY) (hz : 1 ≤ nZ) :
    MatrixLaws K nX nY nZ ↔ Indexable nX nY ∧ Indexable nY nZ ∧ Indexable nX nZ := by
  constructor
  · intro laws
    obtain ⟨product, run, -⟩ := laws.product (List.replicate (nX * nY) 0)
      (List.replicate (nY * nZ) 0) (List.replicate (nX * nZ) 0) List.length_replicate
      List.length_replicate List.length_replicate
    exact indexable_of_product hx hy hz run
  · rintro ⟨left, right, result⟩
    constructor
    · intro lhs rhs res hl hr hres
      obtain ⟨A, rfl⟩ := exists_flat hl
      obtain ⟨B, rfl⟩ := exists_flat hr
      refine ⟨flat (A * B), matMatMult_flat A B hres left right result, length_flat _, ?_⟩
      intro i row k column
      rw [Nat.mul_comm i nZ, flat_cell _ row column, ← sum_term]
      simp only [term, Nat.mul_comm]
    · intro lhs rhs res res₁ res₂ res₃ res₄ hl hr hres h₁ h₂ h₃ h₄
      obtain ⟨A, rfl⟩ := exists_flat hl
      obtain ⟨B, rfl⟩ := exists_flat hr
      refine ⟨flat (A * B), flat (A * B)ᵀ, flat Bᵀ, flat Aᵀ,
        matMatMult_flat A B hres left right result, matTranspose_flat _ h₁ result,
        matTranspose_flat B h₂ right, matTranspose_flat A h₃ left, ?_⟩
      rw [Matrix.transpose_mul]
      exact matMatMult_flat Bᵀ Aᵀ h₄ right.symm left.symm result.symm
    · intro mat res res₁ hm h₁ h₂
      obtain ⟨A, rfl⟩ := exists_flat hm
      refine ⟨flat Aᵀ, matTranspose_flat A h₁ left, ?_⟩
      exact matTranspose_flat Aᵀ h₂ left.symm

end Laws

theorem gain_laws : MatrixLaws ℚ 6 6 3 :=
  (matrix_laws_iff (by decide) (by decide) (by decide)).mpr
    ⟨by decide, by decide, by decide⟩

/-- A column times a row with 65536 elements each: `i * n_z + k` overflows. -/
theorem large_product_overflows :
    (∀ lhs rhs res : List ℚ, matMatMult lhs rhs res 65536 1 65536 = none) ∧
      ¬ ∀ nX nY nZ : Nat, 1 ≤ nX → 1 ≤ nY → 1 ≤ nZ → MatrixLaws ℚ nX nY nZ := by
  have wide : ¬ Indexable 65536 65536 := by
    rw [Indexable]
    omega
  constructor
  · intro lhs rhs res
    rw [← Option.not_isSome_iff_eq_none, Option.isSome_iff_exists]
    rintro ⟨product, run⟩
    have sizes := indexable_of_product (by decide) (by decide) (by decide) run
    exact wide sizes.2.2
  · intro all
    obtain ⟨product, run, -⟩ := (all 65536 1 65536 (by decide) (by decide) (by decide)).product
      (List.replicate (65536 * 1) 0) (List.replicate (1 * 65536) 0)
      (List.replicate (65536 * 65536) 0) List.length_replicate List.length_replicate
      List.length_replicate
    have sizes := indexable_of_product (by decide) (by decide) (by decide) run
    exact wide sizes.2.2

end FlatMatrices
