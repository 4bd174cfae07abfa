import Mathlib.Data.List.Basic
import Mathlib.Data.List.TakeWhile
import Mathlib.Tactic.Common

/-!
NUL-terminated strings and the fixed character arrays that hold them. A
`CString` is the text before the terminator, so it contains no NUL.
-/
namespace CStrings

structure CString where
  chars : List UInt8
  noNul : (0 : UInt8) ∉ chars
  deriving DecidableEq

def strlen (s : CString) : Nat := s.chars.length

/-- `memset(field, 0, n)` followed by `strncpy(field, s, n)`. The array has no
    terminator when the text fills it. -/
def charArray (n : Nat) (s : CString) : List UInt8 :=
  s.chars.take n ++ List.replicate (n - strlen s) 0

/-- The string that starts at the first byte, or `none` when the bytes end
    before a terminator is met. -/
def stringAt (bs : List UInt8) : Option CString :=
  if (0 : UInt8) ∈ bs then
    some ⟨bs.takeWhile (· != 0), fun nul => by simpa using List.mem_takeWhile_imp nul⟩
  else none

@[simp] theorem charArray_length (n : Nat) (s : CString) : (charArray n s).length = n := by
  simp only [charArray, strlen, List.length_append, List.length_take, List.length_replicate]
  omega

theorem takeWhile_text (s : CString) (rest : List UInt8) :
    (s.chars ++ 0 :: rest).takeWhile (· != 0) = s.chars := by
  rw [List.takeWhile_append_of_pos]
  · simp
  · intro c mem
    have nonzero : c ≠ 0 := fun eq => s.noNul (eq ▸ mem)
    simpa using nonzero

theorem stringAt_terminated (s : CString) (rest : List UInt8) :
    stringAt (s.chars ++ 0 :: rest) = some s := by
  have nul : (0 : UInt8) ∈ s.chars ++ 0 :: rest := by simp
  simp only [stringAt, nul, ↓reduceIte, Option.some.injEq]
  cases s with
  | mk chars noNul =>
    simp only [CString.mk.injEq]
    exact takeWhile_text ⟨chars, noNul⟩ rest

theorem stringAt_eq_some {bytes : List UInt8} {text : CString} :
    stringAt bytes = some text ↔ ∃ rest, bytes = text.chars ++ 0 :: rest := by
  constructor
  · intro read
    have nul : (0 : UInt8) ∈ bytes := by
      by_contra missing
      simp [stringAt, missing] at read
    obtain ⟨before, rest, rfl, first⟩ := List.eq_append_cons_of_mem nul
    have same : (⟨before, first⟩ : CString) = text :=
      Option.some.inj ((stringAt_terminated ⟨before, first⟩ rest).symm.trans read)
    exact ⟨rest, by rw [← same]⟩
  · rintro ⟨rest, rfl⟩
    exact stringAt_terminated text rest

theorem stringAt_charArray (n : Nat) (s : CString) (rest : List UInt8) (fits : strlen s < n) :
    stringAt (charArray n s ++ rest) = some s := by
  obtain ⟨k, hk⟩ : ∃ k, n - strlen s = k + 1 := ⟨n - strlen s - 1, by omega⟩
  have whole : s.chars.take n = s.chars :=
    List.take_of_length_le (by simp only [strlen] at fits; omega)
  have shape : charArray n s ++ rest = s.chars ++ 0 :: (List.replicate k 0 ++ rest) := by
    simp [charArray, whole, hk, List.replicate_succ]
  rw [shape]
  exact stringAt_terminated s _

end CStrings
