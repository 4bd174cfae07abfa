import Mathlib.Tactic.Common

/-!
Words of 32 bits that are read as signed numbers, as C does between `uint32_t`
and `int`.
-/
namespace SignedWord

theorem toInt_toInt32 (word : UInt32) :
    word.toInt32.toInt =
      if word.toNat < 2147483648 then (word.toNat : Int) else word.toNat - 4294967296 := by
  show BitVec.toInt word.toBitVec = _
  rw [BitVec.toInt_eq_toNat_cond]
  have same : word.toBitVec.toNat = word.toNat := rfl
  have half : 2 * word.toNat < 2 ^ 32 ↔ word.toNat < 2147483648 := by omega
  simp only [same, half]
  rfl

theorem toInt_toInt32_of_lt {word : UInt32} (small : word.toNat < 2147483648) :
    word.toInt32.toInt = word.toNat := by
  rw [toInt_toInt32, if_pos small]

theorem toNat_toUInt32_ofNat {n : Nat} (small : n < 2147483648) :
    (Int32.ofNat n).toUInt32.toNat = n := by
  have value : (Int32.ofNat n).toInt = n := Int32.toInt_ofNat_of_lt small
  have nonneg : (0 : Int32) ≤ Int32.ofNat n := by
    rw [Int32.le_iff_toInt_le, value]
    exact Int.natCast_nonneg n
  rw [Int32.toNat_toUInt32_of_le nonneg, ← Int32.toNat_toInt, value, Int.toNat_natCast]

/-- The sum of two `int`s, which has no result outside of them. -/
def checkedAdd (a b : Int32) : Option Int32 :=
  if -2147483648 ≤ a.toInt + b.toInt ∧ a.toInt + b.toInt < 2147483648 then some (a + b) else none

theorem checkedAdd_inside {a b : Int32} (low : -2147483648 ≤ a.toInt + b.toInt)
    (high : a.toInt + b.toInt < 2147483648) : checkedAdd a b = some (a + b) :=
  if_pos ⟨low, high⟩

theorem checkedAdd_beyond {a b : Int32} (beyond : 2147483648 ≤ a.toInt + b.toInt) :
    checkedAdd a b = none :=
  if_neg fun inside => by omega

theorem ofNat_add_one (k : Nat) : Int32.ofNat k + 1 = Int32.ofNat (k + 1) := by
  rw [Int32.ofNat_add]
  rfl

theorem checkedAdd_one {k : Nat} (small : k + 1 < 2147483648) :
    checkedAdd (Int32.ofNat k) 1 = some (Int32.ofNat (k + 1)) := by
  have count : (Int32.ofNat k).toInt = k := Int32.toInt_ofNat_of_lt (by omega)
  have one : (1 : Int32).toInt = 1 := rfl
  rw [checkedAdd_inside (by omega) (by omega), ofNat_add_one]

theorem checkedAdd_eq_some {a b sum : Int32} (added : checkedAdd a b = some sum) : a + b = sum := by
  unfold checkedAdd at added
  split at added
  · exact Option.some.inj added
  · cases added

theorem checkedAdd_of_nonneg {a b : Int32} (pos : 0 < b) (nonneg : 0 ≤ a + b) :
    checkedAdd a b = some (a + b) := by
  have more : 0 < b.toInt := by simpa using Int32.lt_iff_toInt_lt.mp pos
  have sum : 0 ≤ (a + b).toInt := by simpa using Int32.le_iff_toInt_le.mp nonneg
  have low := a.le_toInt
  have high := a.toInt_lt
  have high' := b.toInt_lt
  rw [Int32.toInt_add, Int.bmod_def] at sum
  exact checkedAdd_inside (by omega) (by omega)

end SignedWord
