import SuchaiFlight.Library.CString
import SuchaiFlight.Library.Decimal
import Mathlib.Data.List.DropRight
import Mathlib.Data.List.Infix

/-!
Scanning of NUL-terminated strings as the C library does it: `strtok` with one
delimiter, `sscanf` with `%d`, `%s`, `%n`, white space and other characters, in
the "C" locale, and `fnmatch` with `*`.
-/
namespace TextScan
open CStrings DecimalText

theorem CString.ext {s t : CString} (same : s.chars = t.chars) : s = t := by
  cases s
  cases t
  cases same
  rfl

instance : Append CString where
  append s t := ⟨s.chars ++ t.chars, by simp [s.noNul, t.noNul]⟩

@[simp] theorem chars_append (s t : CString) : (s ++ t).chars = s.chars ++ t.chars := rfl

theorem append_assoc (s t u : CString) : (s ++ t) ++ u = s ++ (t ++ u) :=
  CString.ext (List.append_assoc s.chars t.chars u.chars)

def after (n : Nat) (s : CString) : CString :=
  ⟨s.chars.drop n, fun nul => s.noNul (List.mem_of_mem_drop nul)⟩

def leading (p : UInt8 → Bool) (s : CString) : CString :=
  ⟨s.chars.takeWhile p, fun nul => s.noNul (List.takeWhile_subset p nul)⟩

def beyond (p : UInt8 → Bool) (s : CString) : CString :=
  ⟨s.chars.dropWhile p, fun nul => s.noNul (List.dropWhile_subset p nul)⟩

def Stops (p : UInt8 → Bool) (s : CString) : Prop := ∀ b ∈ s.chars.head?, p b = false

instance (p : UInt8 → Bool) (s : CString) : Decidable (Stops p s) :=
  match start : s.chars.head? with
  | none => isTrue (by simp [Stops, start])
  | some b => decidable_of_iff (p b = false) (by simp [Stops, start])

@[simp] theorem chars_after (n : Nat) (s : CString) : (after n s).chars = s.chars.drop n := rfl

@[simp] theorem chars_leading (p : UInt8 → Bool) (s : CString) :
    (leading p s).chars = s.chars.takeWhile p := rfl

@[simp] theorem chars_beyond (p : UInt8 → Bool) (s : CString) :
    (beyond p s).chars = s.chars.dropWhile p := rfl

theorem Stops.takeWhile {p : UInt8 → Bool} {s : CString} (stops : Stops p s) :
    s.chars.takeWhile p = [] := by
  cases text : s.chars with
  | nil => rfl
  | cons b rest =>
    have fails : p b = false := stops b (by simp [text])
    simp [fails]

theorem Stops.dropWhile {p : UInt8 → Bool} {s : CString} (stops : Stops p s) :
    s.chars.dropWhile p = s.chars := by
  have whole := List.takeWhile_append_dropWhile (p := p) (l := s.chars)
  rwa [stops.takeWhile, List.nil_append] at whole

theorem leading_append {p : UInt8 → Bool} {s t : CString} (all : ∀ b ∈ s.chars, p b)
    (stops : Stops p t) : leading p (s ++ t) = s := by
  apply CString.ext
  rw [chars_leading, chars_append, List.takeWhile_append_of_pos all, stops.takeWhile,
    List.append_nil]

theorem beyond_append {p : UInt8 → Bool} {s t : CString} (all : ∀ b ∈ s.chars, p b)
    (stops : Stops p t) : beyond p (s ++ t) = t := by
  apply CString.ext
  rw [chars_beyond, chars_append, List.dropWhile_append_of_pos all, stops.dropWhile]

theorem after_append (s t : CString) : after (strlen s) (s ++ t) = t :=
  CString.ext (by simp [after, strlen])

/-! Tokens. -/

/-- `strtok` on the saved text, with the token and the text saved for the next call. -/
def strtok (delim : UInt8) (saved : CString) : Option (CString × CString) :=
  let str := beyond (· == delim) saved
  if strlen str = 0 then none
  else some (leading (· != delim) str, after 1 (beyond (· != delim) str))

theorem strtok_shorter {delim : UInt8} {saved token rest : CString}
    (found : strtok delim saved = some (token, rest)) : strlen rest < strlen saved := by
  simp only [strtok] at found
  split at found
  · cases found
  · rename_i some_left
    cases found
    have skip := (List.dropWhile_suffix (l := saved.chars) (· == delim)).length_le
    have word := (List.dropWhile_suffix
      (l := saved.chars.dropWhile (· == delim)) (· != delim)).length_le
    simp only [strlen, after, beyond, List.length_drop] at some_left ⊢
    omega

theorem mem_of_mem_splitOn {delim b : UInt8} {cs seg : List UInt8} (mem : seg ∈ cs.splitOn delim)
    (inside : b ∈ seg) : b ∈ cs := by
  induction cs generalizing seg with
  | nil =>
    have empty : seg = [] := by simpa using mem
    simp [empty] at inside
  | cons c cs ih =>
    rw [List.splitOn_cons_eq_if_modifyHead] at mem
    split at mem
    · rcases List.mem_cons.mp mem with rfl | later
      · cases inside
      · exact List.mem_cons_of_mem c (ih later inside)
    · cases split : cs.splitOn delim with
      | nil => exact absurd split (List.splitOn_ne_nil delim cs)
      | cons head tail =>
        rw [split, List.modifyHead_cons] at mem
        rcases List.mem_cons.mp mem with rfl | later
        · rcases List.mem_cons.mp inside with rfl | further
          · exact List.mem_cons_self
          · exact List.mem_cons_of_mem c (ih (by simp [split]) further)
        · exact List.mem_cons_of_mem c (ih (by simp [split, later]) inside)

def segments (delim : UInt8) (s : CString) : List CString :=
  ((s.chars.splitOn delim).filter (· ≠ [])).attach.map fun seg =>
    ⟨seg.1, fun nul => s.noNul (mem_of_mem_splitOn (List.mem_of_mem_filter seg.2) nul)⟩

theorem map_chars_segments (delim : UInt8) (s : CString) :
    (segments delim s).map CString.chars = (s.chars.splitOn delim).filter (· ≠ []) := by
  simp [segments, Function.comp_def]

theorem map_chars_injective : Function.Injective (List.map CString.chars) :=
  List.map_injective_iff.mpr fun _ _ => CString.ext

theorem segments_beyond (delim : UInt8) (s : CString) :
    segments delim (beyond (· == delim) s) = segments delim s := by
  apply map_chars_injective
  rw [map_chars_segments, map_chars_segments, chars_beyond]
  generalize s.chars = cs
  induction cs with
  | nil => rfl
  | cons c cs ih =>
    by_cases same : c = delim
    · rw [List.dropWhile_cons_of_pos (by simpa using same), ih,
        List.splitOn_cons_eq_if_modifyHead, if_pos (by simpa using same)]
      simp
    · rw [List.dropWhile_cons_of_neg (by simpa using same)]

theorem splitOn_eq_takeWhile (delim : UInt8) (cs : List UInt8) :
    (cs.splitOn delim).filter (· ≠ []) =
      (cs.takeWhile (· != delim) :: ((cs.dropWhile (· != delim)).drop 1).splitOn delim).filter
        (· ≠ []) := by
  have whole := List.takeWhile_append_dropWhile (p := (· != delim)) (l := cs)
  have clean : delim ∉ cs.takeWhile (· != delim) := fun mem => by
    simpa using List.mem_takeWhile_imp mem
  cases rest : cs.dropWhile (· != delim) with
  | nil =>
    rw [rest, List.append_nil] at whole
    rw [whole] at clean ⊢
    rw [List.splitOn_eq_singleton clean]
    simp [List.filter_cons]
  | cons c rest' =>
    have stop : c = delim := by
      have fails := List.head?_dropWhile_not (· != delim) cs
      simpa [rest] using fails
    rw [rest, stop] at whole
    nth_rewrite 1 [← whole]
    rw [List.splitOn_append_cons_self_of_not_mem clean, List.drop_one, List.tail_cons]

theorem segments_of_strtok_none {delim : UInt8} {saved : CString}
    (last : strtok delim saved = none) : segments delim saved = [] := by
  simp only [strtok] at last
  split at last
  · rename_i empty
    rw [← segments_beyond]
    apply map_chars_injective
    rw [map_chars_segments, List.eq_nil_of_length_eq_zero empty]
    simp
  · cases last

theorem segments_of_strtok_some {delim : UInt8} {saved token rest : CString}
    (found : strtok delim saved = some (token, rest)) :
    segments delim saved = token :: segments delim rest := by
  simp only [strtok] at found
  split at found
  · cases found
  · rename_i some_left
    cases found
    have start : (beyond (· == delim) saved).chars.takeWhile (· != delim) ≠ [] := by
      have fails := List.head?_dropWhile_not (· == delim) saved.chars
      cases text : saved.chars.dropWhile (· == delim) with
      | nil => simp [strlen, text] at some_left
      | cons b more =>
        rw [text] at fails
        simp_all
    rw [← segments_beyond]
    apply map_chars_injective
    rw [List.map_cons, map_chars_segments, map_chars_segments, splitOn_eq_takeWhile,
      List.filter_cons_of_pos (by simpa using start)]
    simp only [chars_leading, chars_after, chars_beyond]

def joined (delim : UInt8) (real : delim ≠ 0) (parts : List CString) : CString :=
  ⟨[delim].intercalate (parts.map CString.chars), by
    induction parts with
    | nil => simp
    | cons s parts ih =>
      cases parts with
      | nil => simpa using s.noNul
      | cons t parts => simpa [real.symm, s.noNul] using ih⟩

theorem segments_joined {delim : UInt8} (real : delim ≠ 0) {parts : List CString}
    (clean : ∀ s ∈ parts, delim ∉ s.chars) (filled : ∀ s ∈ parts, s.chars ≠ []) :
    segments delim (joined delim real parts) = parts := by
  apply map_chars_injective
  rw [map_chars_segments]
  cases parts with
  | nil => rfl
  | cons s parts =>
    have apart : ∀ l ∈ (s :: parts).map CString.chars, delim ∉ l := by simpa using clean
    unfold joined
    rw [List.splitOn_intercalate delim apart (by simp), List.filter_eq_self]
    intro l mem
    obtain ⟨t, inside, rfl⟩ := List.mem_map.mp mem
    simpa using filled t inside

/-! Formats. -/

def isSpace (b : UInt8) : Bool := b == 32 || (9 ≤ b && b ≤ 13)

def wordChar (b : UInt8) : Bool := !isSpace b

inductive Directive where
  | int
  | word
  | space
  | count
  | char (b : UInt8)

inductive Item where
  | int (value : Int)
  | word (text : CString)
  | count (position : Nat)
  deriving DecidableEq

def scanInt (s : CString) : Option (Int × CString) :=
  let unsigned := if s.chars.head? = some minus ∨ s.chars.head? = some 43 then after 1 s else s
  let digits := leading digit unsigned
  if strlen digits = 0 then none
  else
    some (if s.chars.head? = some minus then -(value digits.chars : Int) else value digits.chars,
      beyond digit unsigned)

def scanFrom (len : Nat) : List Directive → CString → List Item
  | [], _ => []
  | .space :: ds, s => scanFrom len ds (beyond isSpace s)
  | .count :: ds, s => .count (len - strlen s) :: scanFrom len ds s
  | .word :: ds, s =>
    let start := beyond isSpace s
    let text := leading wordChar start
    if strlen text = 0 then []
    else .word text :: scanFrom len ds (beyond wordChar start)
  | .int :: ds, s =>
    match scanInt (beyond isSpace s) with
    | none => []
    | some (value, rest) => .int value :: scanFrom len ds rest
  | .char b :: ds, s => if s.chars.head? = some b then scanFrom len ds (after 1 s) else []

def sscanf (fmt : List Directive) (s : CString) : List Item := scanFrom (strlen s) fmt s

def scanEnd : List Directive → CString → Option CString
  | [], s => some s
  | .space :: ds, s => scanEnd ds (beyond isSpace s)
  | .count :: ds, s => scanEnd ds s
  | .word :: ds, s =>
    let start := beyond isSpace s
    if strlen (leading wordChar start) = 0 then none else scanEnd ds (beyond wordChar start)
  | .int :: ds, s =>
    match scanInt (beyond isSpace s) with
    | none => none
    | some (_, rest) => scanEnd ds rest
  | .char b :: ds, s => if s.chars.head? = some b then scanEnd ds (after 1 s) else none

def decimalText (i : Int) : CString :=
  ⟨decimalInt i, fun nul => by
    unfold decimalInt at nul
    split at nul
    · rcases List.mem_cons.mp nul with sign | mem
      · cases sign
      · exact absurd (digit_of_mem_decimal mem) (by decide)
    · exact absurd (digit_of_mem_decimal nul) (by decide)⟩

def blank : CString := ⟨[32], by decide⟩

theorem blank_isSpace : ∀ b ∈ blank.chars, isSpace b := by
  intro b mem
  rw [List.mem_singleton.mp mem]
  rfl

/-- A non-empty text without white space. -/
structure Word (s : CString) : Prop where
  filled : s.chars ≠ []
  chars : ∀ b ∈ s.chars, wordChar b

theorem stops_append {p : UInt8 → Bool} {s t : CString} (filled : s.chars ≠ [])
    (stops : Stops p s) : Stops p (s ++ t) := by
  intro b mem
  cases text : s.chars with
  | nil => exact absurd text filled
  | cons c rest =>
    have same : c = b := by simpa [text] using mem
    exact stops b (by simp [text, same])

theorem Word.stops {s : CString} (word : Word s) (t : CString) : Stops isSpace (s ++ t) := by
  apply stops_append word.filled
  intro b mem
  simpa [wordChar] using word.chars b (List.mem_of_mem_head? mem)

theorem spaceless_of_all {s : CString} (all : s.chars.all wordChar) :
    ∀ b ∈ s.chars, isSpace b = false := by
  intro b mem
  simpa [wordChar] using List.all_eq_true.mp all b mem

theorem blank_stops_word (s : CString) : Stops wordChar (blank ++ s) :=
  stops_append (List.cons_ne_nil _ _) (by decide)

theorem blank_stops_digit (s : CString) : Stops digit (blank ++ s) :=
  stops_append (List.cons_ne_nil _ _) (by decide)

theorem decimalText_ne_nil (i : Int) : (decimalText i).chars ≠ [] := by
  unfold decimalText decimalInt
  split
  · simp
  · exact decimal_ne_nil _

theorem decimalText_stops (i : Int) (t : CString) : Stops isSpace (decimalText i ++ t) := by
  apply stops_append (decimalText_ne_nil i)
  intro b mem
  have shown : b = minus ∨ digit b := by
    have inside := List.mem_of_mem_head? mem
    unfold decimalText decimalInt at inside
    split at inside
    · rcases List.mem_cons.mp inside with sign | more
      · exact .inl sign
      · exact .inr (digit_of_mem_decimal more)
    · exact .inr (digit_of_mem_decimal inside)
  rcases shown with rfl | isDigit
  · decide
  · simp only [digit, Bool.and_eq_true, decide_eq_true_eq, UInt8.le_iff_toNat_le,
      UInt8.reduceToNat] at isDigit
    simp only [isSpace, Bool.or_eq_false_iff, Bool.and_eq_false_iff, beq_eq_false_iff_ne,
      decide_eq_false_iff_not, UInt8.le_iff_toNat_le, UInt8.reduceToNat, ne_eq,
      ← UInt8.toNat_inj]
    omega

def digitsText (n : Nat) : CString :=
  ⟨decimal n, fun nul => absurd (digit_of_mem_decimal nul) (by decide)⟩

theorem digitsText_head (n : Nat) (t : CString) {sign : UInt8} (other : digit sign = false) :
    (digitsText n ++ t).chars.head? ≠ some sign := by
  intro first
  cases text : decimal n with
  | nil => exact decimal_ne_nil n text
  | cons b rest =>
    have isDigit : digit b := digit_of_mem_decimal (n := n) (by simp [text])
    have same : b = sign := by simpa [digitsText, text] using first
    rw [same, other] at isDigit
    cases isDigit

theorem scanInt_decimal (i : Int) {t : CString} (stops : Stops digit t) :
    scanInt (decimalText i ++ t) = some (i, t) := by
  have all : ∀ b ∈ (digitsText i.natAbs).chars, digit b := fun _ => digit_of_mem_decimal
  have digits := leading_append all stops
  have rest := beyond_append all stops
  have read : value (digitsText i.natAbs).chars = i.natAbs := value_decimal i.natAbs
  have pos : strlen (digitsText i.natAbs) ≠ 0 := fun zero =>
    decimal_ne_nil _ (List.eq_nil_of_length_eq_zero zero)
  by_cases neg : i < 0
  · have text : (decimalText i ++ t).chars = minus :: (digitsText i.natAbs ++ t).chars := by
      simp [decimalText, decimalInt, neg, digitsText]
    have unsigned : after 1 (decimalText i ++ t) = digitsText i.natAbs ++ t :=
      CString.ext (by rw [chars_after, text, List.drop_one, List.tail_cons])
    have sign : (decimalText i ++ t).chars.head? = some minus := by rw [text, List.head?_cons]
    simp only [scanInt, sign, true_or, if_true, unsigned, digits, rest, pos, if_false, read,
      Option.some.injEq, Prod.mk.injEq, and_true]
    omega
  · have text : decimalText i ++ t = digitsText i.natAbs ++ t :=
      CString.ext (by simp [decimalText, decimalInt, neg, digitsText])
    have noMinus : (digitsText i.natAbs ++ t).chars.head? ≠ some minus :=
      digitsText_head i.natAbs t (by decide)
    have noPlus : (digitsText i.natAbs ++ t).chars.head? ≠ some 43 :=
      digitsText_head i.natAbs t (by decide)
    simp only [scanInt, text, noMinus, noPlus, or_self, if_false, digits, rest, pos, read,
      Option.some.injEq, Prod.mk.injEq, and_true]
    omega

theorem scanFrom_int (len : Nat) (ds : List Directive) (i : Int) {t : CString}
    (stops : Stops digit t) :
    scanFrom len (.int :: ds) (decimalText i ++ t) = .int i :: scanFrom len ds t := by
  have start : beyond isSpace (decimalText i ++ t) = decimalText i ++ t :=
    CString.ext (decimalText_stops i t).dropWhile
  simp only [scanFrom, start, scanInt_decimal i stops]

theorem scanFrom_word (len : Nat) (ds : List Directive) {s t : CString} (word : Word s)
    (stops : Stops wordChar t) :
    scanFrom len (.word :: ds) (s ++ t) = .word s :: scanFrom len ds t := by
  have start : beyond isSpace (s ++ t) = s ++ t := CString.ext (word.stops t).dropWhile
  have pos : strlen s ≠ 0 := fun zero => word.filled (List.eq_nil_of_length_eq_zero zero)
  simp only [scanFrom, start, leading_append word.chars stops, beyond_append word.chars stops,
    if_neg pos]

theorem scanEnd_int (ds : List Directive) (i : Int) {t : CString} (stops : Stops digit t) :
    scanEnd (.int :: ds) (decimalText i ++ t) = scanEnd ds t := by
  have start : beyond isSpace (decimalText i ++ t) = decimalText i ++ t :=
    CString.ext (decimalText_stops i t).dropWhile
  simp only [scanEnd, start, scanInt_decimal i stops]

theorem scanEnd_word (ds : List Directive) {s t : CString} (word : Word s)
    (stops : Stops wordChar t) : scanEnd (.word :: ds) (s ++ t) = scanEnd ds t := by
  have start : beyond isSpace (s ++ t) = s ++ t := CString.ext (word.stops t).dropWhile
  have pos : strlen s ≠ 0 := fun zero => word.filled (List.eq_nil_of_length_eq_zero zero)
  simp only [scanEnd, start, leading_append word.chars stops, beyond_append word.chars stops,
    if_neg pos]

theorem word_of_scanFrom {len : Nat} {ds : List Directive} {s text : CString} {items : List Item}
    (scanned : scanFrom len (.word :: ds) s = .word text :: items) : Word text := by
  simp only [scanFrom] at scanned
  split at scanned
  · cases scanned
  · rename_i filled
    obtain ⟨same, -⟩ := List.cons.inj scanned
    obtain rfl := Item.word.inj same
    exact ⟨fun empty => filled (congrArg List.length empty), fun b mem => List.mem_takeWhile_imp mem⟩

theorem beyond_beyond (p : UInt8 → Bool) (s : CString) : beyond p (beyond p s) = beyond p s := by
  apply CString.ext
  rw [chars_beyond, chars_beyond]
  exact List.dropWhile_idempotent p s.chars

theorem beyond_blank (t : CString) : beyond isSpace (blank ++ t) = beyond isSpace t := by
  apply CString.ext
  rw [chars_beyond, chars_append, List.dropWhile_append_of_pos blank_isSpace]
  rfl

theorem scanFrom_space (len : Nat) (ds : List Directive) {t : CString} (stops : Stops isSpace t) :
    scanFrom len (.space :: ds) (blank ++ t) = scanFrom len ds t := by
  simp only [scanFrom, beyond_append blank_isSpace stops]

def oneChar (b : UInt8) (real : b ≠ 0) : CString := ⟨[b], by simpa using real.symm⟩

theorem scanFrom_char (len : Nat) (ds : List Directive) {b : UInt8} (real : b ≠ 0) (t : CString) :
    scanFrom len (.char b :: ds) (oneChar b real ++ t) = scanFrom len ds t := by
  have rest : after 1 (oneChar b real ++ t) = t := after_append (oneChar b real) t
  rw [scanFrom, if_pos (by simp [oneChar]), rest]

theorem scanFrom_chars (len : Nat) (bs : List UInt8) (s : CString) :
    scanFrom len (bs.map .char) s = [] := by
  induction bs generalizing s with
  | nil => rfl
  | cons b bs ih =>
    rw [List.map_cons, scanFrom]
    split
    · exact ih _
    · rfl

theorem digitsText_eq (n : Nat) : digitsText n = decimalText n :=
  CString.ext (by simp [digitsText, decimalText, decimalInt])

/-! Patterns. -/

def asterisk : UInt8 := 42

def fnmatch : List UInt8 → List UInt8 → Bool
  | [], text => text.isEmpty
  | p :: ps, text =>
    if p = asterisk then text.tails.any (fnmatch ps)
    else text.head? == some p && fnmatch ps text.tail

theorem fnmatch_star {ps text : List UInt8} :
    fnmatch (asterisk :: ps) text ↔ ∃ before rest, text = before ++ rest ∧ fnmatch ps rest := by
  rw [fnmatch, if_pos rfl, List.any_eq_true]
  simp only [List.mem_tails]
  constructor
  · rintro ⟨rest, ⟨before, rfl⟩, hit⟩
    exact ⟨before, rest, rfl, hit⟩
  · rintro ⟨before, rest, rfl, hit⟩
    exact ⟨rest, List.suffix_append before rest, hit⟩

theorem fnmatch_append {lit ps text : List UInt8} (plain : asterisk ∉ lit) :
    fnmatch (lit ++ ps) text ↔ ∃ rest, text = lit ++ rest ∧ fnmatch ps rest := by
  induction lit generalizing text with
  | nil => simp
  | cons c lit ih =>
    rw [List.mem_cons, not_or] at plain
    rw [List.cons_append, fnmatch, if_neg (Ne.symm plain.1), Bool.and_eq_true, beq_iff_eq,
      ih plain.2, List.head?_eq_some_iff]
    constructor
    · rintro ⟨⟨tail, rfl⟩, rest, same, hit⟩
      exact ⟨rest, congrArg (c :: ·) same, hit⟩
    · rintro ⟨rest, rfl, hit⟩
      exact ⟨⟨lit ++ rest, rfl⟩, rest, rfl, hit⟩

theorem fnmatch_between {front back text : List UInt8} (plain : asterisk ∉ front)
    (plain' : asterisk ∉ back) :
    fnmatch (front ++ asterisk :: back) text ↔ ∃ middle, text = front ++ (middle ++ back) := by
  rw [fnmatch_append plain]
  constructor
  · rintro ⟨rest, rfl, hit⟩
    obtain ⟨middle, tail, rfl, later⟩ := fnmatch_star.mp hit
    rw [← List.append_nil back] at later
    obtain ⟨last, rfl, ended⟩ := (fnmatch_append plain').mp later
    have empty : last = [] := by simpa [fnmatch] using ended
    exact ⟨middle, by rw [empty, List.append_nil]⟩
  · rintro ⟨middle, rfl⟩
    refine ⟨middle ++ back, rfl, fnmatch_star.mpr ⟨middle, back, rfl, ?_⟩⟩
    rw [← List.append_nil back, fnmatch_append plain']
    exact ⟨[], rfl, rfl⟩

end TextScan
