import SuchaiFlight.FileParts
import SuchaiFlight.Library.Scan

/-!
The names of part files: `tm_parse_file` writes them with `snprintf`,
`_filter_file_part_name` reads them with `sscanf`, and `tm_merge_file` looks for
them with `find`.
-/
namespace PartNames
open CStrings TextScan DecimalText FileFrames FileReceiver FileParts

def partFormat : List Directive :=
  [.int, .char underscore, .int, .char underscore, .int] ++ partSuffix.map .char

def scanPartName (dName : CString) : Option (Int × Int × Int) :=
  match sscanf partFormat dName with
  | [.int id, .int frame, .int max] => some (id, frame, max)
  | _ => none

def filterFilePartName (mergingFileId : Int32) (dName : CString) : Bool :=
  match scanPartName dName with
  | some (id, _, _) => id == mergingFileId.toInt
  | none => false

def findPattern (fileId : Int32) : List UInt8 :=
  decimalInt fileId.toInt ++ [underscore, asterisk] ++ partSuffix

theorem underscore_ne_zero : underscore ≠ 0 := by decide

def underscoreText : CString := oneChar underscore underscore_ne_zero

def numbers (fileid nframe total : UInt16) : CString :=
  digitsText fileid.toNat ++ (underscoreText ++ (digitsText nframe.toNat ++
    (underscoreText ++ digitsText total.toNat)))

def tailText (room : Nat) : CString :=
  ⟨partSuffix.take room, fun nul => absurd (List.mem_of_mem_take nul) (by decide)⟩

def partName (fileid nframe total : UInt16) : CString :=
  numbers fileid nframe total ++ tailText (19 - strlen (numbers fileid nframe total))

theorem strlen_numbers (fileid nframe total : UInt16) :
    strlen (numbers fileid nframe total) = (decimal fileid.toNat).length +
      (decimal nframe.toNat).length + (decimal total.toNat).length + 2 := by
  simp only [numbers, underscoreText, oneChar, digitsText, strlen, chars_append,
    List.length_append, List.length_singleton]
  omega

theorem strlen_numbers_le (fileid nframe total : UInt16) :
    strlen (numbers fileid nframe total) ≤ 17 := by
  have one := decimal_length_le fileid.toNat_lt
  have two := decimal_length_le nframe.toNat_lt
  have three := decimal_length_le total.toNat_lt
  rw [strlen_numbers]
  omega

theorem partPath_eq (fileid nframe total : UInt16) :
    partPath fileid nframe total = bname ++ (partName fileid nframe total).chars := by
  have small := strlen_numbers_le fileid nframe total
  have whole : bname ++ decimal fileid.toNat ++ [underscore] ++ decimal nframe.toNat ++
      [underscore] ++ decimal total.toNat ++ partSuffix =
      bname ++ ((numbers fileid nframe total).chars ++ partSuffix) := by
    simp only [numbers, underscoreText, oneChar, digitsText, chars_append, List.append_assoc]
  have room : bname.length + 20 - 1 = bname.length + 19 := rfl
  rw [partPath, whole, room, List.take_length_add_append, List.take_append,
    List.take_of_length_le (show (numbers fileid nframe total).chars.length ≤ 19 by
      simp only [strlen] at small; omega)]
  rfl

theorem underscore_stops_digit (s : CString) : Stops digit (underscoreText ++ s) :=
  stops_append (List.cons_ne_nil _ _) (by decide)

theorem scanFrom_underscore (len : Nat) (ds : List Directive) (s : CString) :
    scanFrom len (.char underscore :: ds) (underscoreText ++ s) = scanFrom len ds s :=
  scanFrom_char len ds underscore_ne_zero s

theorem tailText_stops_digit (room : Nat) : Stops digit (tailText room) := by
  intro b mem
  cases room with
  | zero => cases mem
  | succ room =>
    obtain rfl : 46 = b := Option.some.inj mem
    decide

theorem scanPartName_partName (fileid nframe total : UInt16) :
    scanPartName (partName fileid nframe total) =
      some ((fileid.toNat : Int), (nframe.toNat : Int), (total.toNat : Int)) := by
  have text : partName fileid nframe total =
      decimalText fileid.toNat ++ (underscoreText ++ (decimalText nframe.toNat ++
        (underscoreText ++ (decimalText total.toNat ++
          tailText (19 - strlen (numbers fileid nframe total)))))) := by
    simp only [partName, numbers, append_assoc, digitsText_eq]
  have scanned : sscanf partFormat (partName fileid nframe total) =
      [.int fileid.toNat, .int nframe.toNat, .int total.toNat] := by
    rw [sscanf, partFormat]
    generalize strlen (partName fileid nframe total) = len
    simp only [text, List.cons_append, List.nil_append]
    rw [scanFrom_int _ _ _ (underscore_stops_digit _), scanFrom_underscore,
      scanFrom_int _ _ _ (underscore_stops_digit _), scanFrom_underscore,
      scanFrom_int _ _ _ (tailText_stops_digit _), scanFrom_chars]
  rw [scanPartName, scanned]

theorem partName_injective {fileid nframe total fileid' nframe' total' : UInt16}
    (same : partName fileid nframe total = partName fileid' nframe' total') :
    fileid = fileid' ∧ nframe = nframe' ∧ total = total' := by
  have numbers := (scanPartName_partName fileid nframe total).symm.trans
    ((congrArg scanPartName same).trans (scanPartName_partName fileid' nframe' total'))
  simpa only [Option.some.injEq, Prod.mk.injEq, Nat.cast_inj, UInt16.toNat_inj] using numbers

theorem filterFilePartName_iff (mergingFileId : Int32) (fileid nframe total : UInt16) :
    filterFilePartName mergingFileId (partName fileid nframe total) ↔
      mergingFileId.toInt = fileid.toNat := by
  rw [filterFilePartName, scanPartName_partName]
  simp only [beq_iff_eq]
  exact eq_comm

/-- The suffix is whole when the numbers have at most 12 digits. -/
def ShortNumbers (fileid nframe total : UInt16) : Prop :=
  (decimal fileid.toNat).length + (decimal nframe.toNat).length +
    (decimal total.toNat).length ≤ 12

theorem star_not_mem_decimal (n : Nat) : asterisk ∉ decimal n := fun mem =>
  absurd (digit_of_mem_decimal mem) (by decide)

theorem findPattern_eq {fileId : Int32} {fileid : UInt16} (own : fileId.toInt = fileid.toNat) :
    findPattern fileId = (decimal fileid.toNat ++ [underscore]) ++ asterisk :: partSuffix := by
  have text : decimalInt fileId.toInt = decimal fileid.toNat := by
    rw [own, decimalInt, if_neg (by omega), Int.natAbs_natCast]
  simp [findPattern, text]

theorem tailText_getLast {room : Nat} (low : 2 ≤ room) (cut : room < 5) :
    ∃ b, (tailText room).chars.getLast? = some b ∧ b ≠ 116 := by
  interval_cases room
  · exact ⟨112, rfl, by decide⟩
  · exact ⟨97, rfl, by decide⟩
  · exact ⟨114, rfl, by decide⟩

/-- `find` sees a name exactly when its suffix is whole. -/
theorem findPattern_iff {fileId : Int32} {fileid : UInt16} (nframe total : UInt16)
    (own : fileId.toInt = fileid.toNat) :
    fnmatch (findPattern fileId) (partName fileid nframe total).chars ↔
      ShortNumbers fileid nframe total := by
  have plain : asterisk ∉ decimal fileid.toNat ++ [underscore] := by
    rw [List.mem_append, List.mem_singleton, not_or]
    exact ⟨star_not_mem_decimal _, by decide⟩
  have plain' : asterisk ∉ partSuffix := by decide
  have length := strlen_numbers fileid nframe total
  have small := strlen_numbers_le fileid nframe total
  rw [findPattern_eq own, fnmatch_between plain plain', ShortNumbers]
  constructor
  · rintro ⟨middle, text⟩
    by_contra long
    obtain ⟨b, last, other⟩ := tailText_getLast
      (show 2 ≤ 19 - strlen (numbers fileid nframe total) by omega) (by omega)
    have ends := congrArg List.getLast? text
    rw [partName, chars_append, List.getLast?_append, last, ← List.append_assoc,
      List.getLast?_append] at ends
    exact other (Option.some.inj ends)
  · intro short
    have whole : (tailText (19 - strlen (numbers fileid nframe total))).chars = partSuffix :=
      List.take_of_length_le (show partSuffix.length ≤ _ by
        rw [show partSuffix.length = 5 from rfl]
        omega)
    refine ⟨decimal nframe.toNat ++ [underscore] ++ decimal total.toNat, ?_⟩
    rw [partName, chars_append, whole]
    simp [numbers, underscoreText, oneChar, digitsText]

structure NamesAgree (fileid nframe total : UInt16) : Prop where
  distinct : ∀ fileid' nframe' total',
    partPath fileid nframe total = partPath fileid' nframe' total' →
      fileid = fileid' ∧ nframe = nframe' ∧ total = total'
  accepted : ∀ mergingFileId, filterFilePartName mergingFileId (partName fileid nframe total) ↔
    mergingFileId.toInt = fileid.toNat
  parsed : scanPartName (partName fileid nframe total) =
    some ((fileid.toNat : Int), (nframe.toNat : Int), (total.toNat : Int))
  merged : ∀ fileId, filterFilePartName fileId (partName fileid nframe total) →
    fnmatch (findPattern fileId) (partName fileid nframe total).chars

theorem partPath_injective {fileid nframe total fileid' nframe' total' : UInt16}
    (same : partPath fileid nframe total = partPath fileid' nframe' total') :
    fileid = fileid' ∧ nframe = nframe' ∧ total = total' := by
  rw [partPath_eq, partPath_eq, List.append_right_inj] at same
  exact partName_injective (CString.ext same)

/-- Only the search depends on the cut of the name. -/
theorem names_agree_iff (fileid nframe total : UInt16) :
    NamesAgree fileid nframe total ↔ ShortNumbers fileid nframe total := by
  have own : (Int32.ofNat fileid.toNat).toInt = fileid.toNat :=
    Int32.toInt_ofNat_of_lt (by have := fileid.toNat_lt; omega)
  constructor
  · intro agree
    have seen := agree.merged _ ((filterFilePartName_iff _ fileid nframe total).mpr own)
    exact (findPattern_iff nframe total own).mp seen
  · intro short
    refine ⟨fun _ _ _ => partPath_injective, fun id => filterFilePartName_iff id _ _ _,
      scanPartName_partName fileid nframe total, fun fileId accepted => ?_⟩
    have own' := (filterFilePartName_iff fileId fileid nframe total).mp accepted
    exact (findPattern_iff nframe total own').mpr short

theorem long_name_disagrees :
    filterFilePartName 100 (partName 100 10000 10001) = true ∧
      fnmatch (findPattern 100) (partName 100 10000 10001).chars = false ∧
      ¬ NamesAgree 100 10000 10001 := by
  refine ⟨by decide, by decide, fun agree => ?_⟩
  have seen := agree.merged 100 (by decide)
  exact absurd seen (by decide)

end PartNames
