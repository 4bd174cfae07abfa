import Mathlib.Data.List.Basic
import Mathlib.Tactic.Common
import Mathlib.Tactic.IntervalCases

/-!
Decimal texts of natural numbers and integers, as `printf` writes them with
`%d`, and the value of a text of digits.
-/
namespace DecimalText

def digit (b : UInt8) : Bool := 48 ≤ b && b ≤ 57

def minus : UInt8 := 45

def decimal (n : Nat) : List UInt8 := (Nat.toDigits 10 n).map fun c => UInt8.ofNat c.toNat

def decimalInt (i : Int) : List UInt8 :=
  if i < 0 then minus :: decimal i.natAbs else decimal i.natAbs

def value (digits : List UInt8) : Nat := digits.foldl (fun v b => 10 * v + (b.toNat - 48)) 0

theorem digitChar_byte {d : Nat} (small : d < 10) :
    (UInt8.ofNat (Nat.digitChar d).toNat).toNat = 48 + d := by
  interval_cases d <;> rfl

theorem value_append (digits : List UInt8) (b : UInt8) :
    value (digits ++ [b]) = 10 * value digits + (b.toNat - 48) := by
  simp [value]

theorem decimal_step (n : Nat) :
    decimal n = (if n < 10 then [] else decimal (n / 10)) ++
      [UInt8.ofNat (Nat.digitChar (n % 10)).toNat] := by
  rw [decimal, Nat.toDigits_eq_if (by decide)]
  split
  · rename_i small
    simp [Nat.mod_eq_of_lt small]
  · simp [decimal]

theorem value_decimal (n : Nat) : value (decimal n) = n := by
  induction n using Nat.strongRecOn with
  | ind n ih =>
    rw [decimal_step, value_append, digitChar_byte (Nat.mod_lt n (by decide))]
    split
    · simp only [value, List.foldl_nil]
      omega
    · rw [ih (n / 10) (by omega)]
      omega

theorem decimal_injective {m n : Nat} (same : decimal m = decimal n) : m = n := by
  rw [← value_decimal m, same, value_decimal]

theorem digit_of_mem_decimal {n : Nat} {b : UInt8} (mem : b ∈ decimal n) : digit b := by
  induction n using Nat.strongRecOn with
  | ind n ih =>
    rw [decimal_step, List.mem_append, List.mem_singleton] at mem
    rcases mem with before | rfl
    · split at before
      · cases before
      · exact ih (n / 10) (by omega) before
    · have toNat := digitChar_byte (Nat.mod_lt n (show 0 < 10 by decide))
      have bound := Nat.mod_lt n (show 0 < 10 by decide)
      simp only [digit, Bool.and_eq_true, decide_eq_true_eq, UInt8.le_iff_toNat_le, toNat,
        UInt8.reduceToNat]
      omega

theorem decimal_ne_nil (n : Nat) : decimal n ≠ [] := by
  rw [decimal_step]
  simp

theorem decimal_length_one : ∀ m < 10 * 1, (decimal m).length ≤ 0 + 1 := by
  intro m small
  rw [decimal_step, if_pos (by omega)]
  simp

theorem decimal_length_step {b k : Nat} (bound : ∀ m < b, (decimal m).length ≤ k) :
    ∀ n < 10 * b, (decimal n).length ≤ k + 1 := by
  intro n small
  rw [decimal_step, List.length_append, List.length_singleton]
  split
  · simp
  · have := bound (n / 10) (by omega)
    omega

theorem takeWhile_decimal (n : Nat) {b : UInt8} (other : digit b = false) (rest : List UInt8) :
    (decimal n ++ b :: rest).takeWhile digit = decimal n := by
  rw [List.takeWhile_append_of_pos fun _ mem => digit_of_mem_decimal mem]
  simp [other]

end DecimalText
