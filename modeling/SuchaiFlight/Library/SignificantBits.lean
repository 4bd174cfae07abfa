import Mathlib.Tactic.Common
import Mathlib.Algebra.Order.Ring.Nat
import Mathlib.Data.Nat.Log

/-!
Natural numbers with at most `p` significant bits, and the rounding to the
nearest of them, ties to the even one.
-/
namespace SignificantBits

variable {p n w : Nat}

def Representable (p n : Nat) : Prop := ∃ m e, m < 2 ^ p ∧ n = m * 2 ^ e

def ulp (p n : Nat) : Nat := 2 ^ (n.log2 + 1 - p)

def roundEven (p n : Nat) : Nat :=
  let low := n / ulp p n
  let rest := n % ulp p n
  if 2 * rest < ulp p n ∨ (2 * rest = ulp p n ∧ low % 2 = 0) then low * ulp p n
  else (low + 1) * ulp p n

theorem ulp_pos (p n : Nat) : 0 < ulp p n := Nat.two_pow_pos _

theorem div_ulp_lt (p n : Nat) : n / ulp p n < 2 ^ p := by
  rw [Nat.div_lt_iff_lt_mul (ulp_pos p n), ulp, ← Nat.pow_add]
  have top : n < 2 ^ (n.log2 + 1) := Nat.lt_log2_self
  exact lt_of_lt_of_le top (Nat.pow_le_pow_right (by decide) (by omega))

theorem representable_iff : Representable p n ↔ ulp p n ∣ n := by
  constructor
  · rintro ⟨m, e, small, rfl⟩
    by_cases zero : m = 0
    · simp [zero]
    · have real : m * 2 ^ e ≠ 0 := Nat.mul_ne_zero zero (Nat.two_pow_pos e).ne'
      have top : m * 2 ^ e < 2 ^ (p + e) := by
        rw [Nat.pow_add]
        exact Nat.mul_lt_mul_of_pos_right small (Nat.two_pow_pos e)
      have bits : (m * 2 ^ e).log2 < p + e := (Nat.log2_lt real).mpr top
      have unit : ulp p (m * 2 ^ e) ∣ 2 ^ e := Nat.pow_dvd_pow 2 (by omega)
      exact unit.mul_left m
  · rintro whole
    exact ⟨n / ulp p n, n.log2 + 1 - p, div_ulp_lt p n, (Nat.div_mul_cancel whole).symm⟩

theorem representable_apart (bits : 0 < p) (held : Representable p w) (n : Nat) :
    w ≤ n / ulp p n * ulp p n ∨ (n / ulp p n + 1) * ulp p n ≤ w := by
  by_cases whole : ulp p n ∣ w
  · obtain ⟨k, rfl⟩ := whole
    rw [Nat.mul_comm (ulp p n) k]
    rcases Nat.lt_or_ge (n / ulp p n) k with above | below
    · exact .inr (Nat.mul_le_mul_right _ above)
    · exact .inl (Nat.mul_le_mul_right _ below)
  · left
    obtain ⟨m, e, small, rfl⟩ := held
    have low : e < n.log2 + 1 - p := by
      by_contra high
      have unit : ulp p n ∣ 2 ^ e := Nat.pow_dvd_pow 2 (by omega)
      exact whole (unit.mul_left m)
    have real : n ≠ 0 := by
      rintro rfl
      rw [Nat.log2_zero] at low
      omega
    have filled : 2 ^ (p - 1) ≤ n / ulp p n := by
      rw [Nat.le_div_iff_mul_le (ulp_pos p n), ulp, ← Nat.pow_add]
      exact le_trans (Nat.pow_le_pow_right (by decide) (by omega)) (Nat.log2_self_le real)
    calc m * 2 ^ e ≤ 2 ^ p * 2 ^ e := Nat.mul_le_mul_right _ small.le
      _ = 2 ^ (p + e) := (Nat.pow_add 2 p e).symm
      _ ≤ 2 ^ (p - 1 + (n.log2 + 1 - p)) := Nat.pow_le_pow_right (by decide) (by omega)
      _ = 2 ^ (p - 1) * ulp p n := Nat.pow_add 2 _ _
      _ ≤ n / ulp p n * ulp p n := Nat.mul_le_mul_right _ filled

theorem roundEven_eq_iff : roundEven p n = n ↔ Representable p n := by
  rw [representable_iff]
  have split := Nat.div_add_mod n (ulp p n)
  have rest := Nat.mod_lt n (ulp_pos p n)
  rw [Nat.mul_comm] at split
  constructor
  · intro same
    unfold roundEven at same
    dsimp only at same
    split at same
    · exact ⟨_, same.symm.trans (Nat.mul_comm _ _)⟩
    · rw [Nat.add_mul] at same
      omega
  · intro whole
    have none : n % ulp p n = 0 := Nat.mod_eq_zero_of_dvd whole
    have pos := ulp_pos p n
    unfold roundEven
    dsimp only
    rw [if_pos (.inl (by omega))]
    omega

theorem roundEven_representable (bits : 0 < p) (n : Nat) : Representable p (roundEven p n) := by
  have low := div_ulp_lt p n
  unfold roundEven
  dsimp only
  split
  · exact ⟨_, _, low, rfl⟩
  · by_cases full : n / ulp p n + 1 < 2 ^ p
    · exact ⟨_, _, full, rfl⟩
    · -- the carry leaves one bit
      have carry : n / ulp p n + 1 = 2 ^ p := by omega
      refine ⟨1, p + (n.log2 + 1 - p), Nat.one_lt_two_pow bits.ne', ?_⟩
      rw [carry, Nat.pow_add, Nat.one_mul]
      rfl

theorem roundEven_nearest (bits : 0 < p) (held : Representable p w) (n : Nat) :
    ((roundEven p n : Int) - n).natAbs ≤ ((w : Int) - n).natAbs := by
  have split := Nat.div_add_mod n (ulp p n)
  have rest := Nat.mod_lt n (ulp_pos p n)
  have apart := representable_apart bits held n
  rw [Nat.mul_comm] at split
  unfold roundEven
  dsimp only
  split
  · rw [Nat.add_mul] at apart
    omega
  · rw [Nat.add_mul] at apart ⊢
    omega

end SignificantBits
