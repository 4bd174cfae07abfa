import SuchaiFlight.Library.DelimitedText
import SuchaiFlight.PayloadDownlink
import SuchaiFlight.SqliteSamples
import SuchaiFlight.StatusCommands

/-!
The dump of a payload: `tm_dump` of `cmdTM.c` writes a line with the names of the
fields and, with `dat_fprint_payload_struct` of `repoData.c`, a line for each
sample. The types in `data_order` say how its bytes are printed.
-/
namespace PayloadDump
open ByteMemory ByteOrder CStrings TextScan DecimalText DelimitedText StorageApi RepoData
open RepoCommand PayloadData PayloadCalls SqlitePayload SqliteSamples

def schStStrSize : Nat := 128
def comma : UInt8 := 44
def newline : UInt8 := 10

/-- What `fprintf` writes for one value. A second conversion has no value. -/
def formatted (type : CString) (value : List UInt8) : Option (List UInt8) :=
  match type.chars with
  | 37 :: _ :: rest => if 37 ∈ rest then none else some (value ++ rest)
  | chars => if 37 ∈ chars then none else some chars

/-- `strndup` of memory that ends with `data`. -/
def strndup (data : List UInt8) (n : Nat) : Option (List UInt8) :=
  if n ≤ data.length ∨ 0 ∈ data then some ((data.take n).takeWhile (· != 0)) else none

def fieldStep (type : CString) : Nat :=
  let c := conversion type
  if c = 102 ∨ c = 117 ∨ c = 105 ∨ c = 100 then 4
  else if c = 104 then 2
  else if c = 115 then schStStrSize
  else 1

section Source
variable (endian : Endian) (printFloat : UInt32 → List UInt8)

/-- The switch. `printFloat` is the text of `%f`. -/
def fprintField (type : CString) (data : List UInt8) : Option (List UInt8) :=
  let c := conversion type
  let word := bytesWord endian (data.take 4)
  if c = 102 then if 4 ≤ data.length then formatted type (printFloat word) else none
  else if c = 117 then if 4 ≤ data.length then formatted type (decimal word.toNat) else none
  else if c = 105 ∨ c = 100 then
    if 4 ≤ data.length then formatted type (decimalInt word.toInt32.toInt) else none
  else if c = 104 then
    if 2 ≤ data.length then some (decimalInt (bytesHalf endian (data.take 2)).toInt16.toInt)
    else none
  else if c = 115 then (strndup data schStStrSize).bind (formatted type)
  else some []

def fprintFields : List CString → List UInt8 → Option (List (List UInt8))
  | [], _ => some []
  | type :: types, data => do
    let text ← fprintField endian printFloat type data
    let texts ← fprintFields types (data.drop (fieldStep type))
    return text :: texts

/-- A comma stands behind each text. -/
def datFprintPayloadStruct (m : SqliteMap) (data : List UInt8) (payload : Nat) :
    Option (List UInt8) := do
  let texts ← fprintFields endian printFloat (tokens (m.dataOrder payload)) data
  return join comma texts ++ [newline]

section Dump
variable {σ : Type} (S : PayloadStorage σ) (c : Config) (m : SqliteMap)

/-- A sample that is not read has no line. -/
def dumpSample (payload : Nat) : Except Int32 (List UInt8) → Option (List UInt8)
  | .ok buff => datFprintPayloadStruct endian printFloat m buff payload
  | .error _ => some []

def dumpSamples (s : σ) (payload : Nat) : Nat → Nat → Option (List UInt8)
  | 0, _ => some []
  | left + 1, i => do
    let ret ← S.storagePayloadGetData s payload (Int32.ofNat i) (m.size payload)
    let line ← dumpSample endian printFloat m payload ret
    let lines ← dumpSamples s payload left (i + 1)
    return line ++ lines

/-- The return code and the content of the file. The parameters are the number
    that `sscanf` reads, and whether the named file is opened. -/
def tmDump (s : σ) (params : Option (Int32 × Bool)) : Option (Int32 × Option (List UInt8)) :=
  match params with
  | none => some (cmdSyntaxError, none)
  | some (_, false) => some (cmdError, none)
  | some (payloadId, true) =>
    if 0 ≤ payloadId.toInt ∧ payloadId.toInt < m.lastSensor then do
      let payload := payloadId.toInt.toNat
      let header := (m.varNames payload).chars.map fun b => if b = 32 then comma else b
      let payloadLen ← datGetSystemVar S.toStorage c s (m.sysIndex payload)
      let lines ← dumpSamples endian printFloat S m s payload payloadLen.toInt.toNat 0
      return (cmdOk, some (header ++ [comma, newline] ++ lines))
    else none

end Dump
end Source

/-! The file as a table. -/

def nameFields (names : CString) : List (List UInt8) := names.chars.splitOn 32

theorem join_splitOn (chars : List UInt8) :
    join comma (chars.splitOn 32) =
      (chars.map fun b => if b = 32 then comma else b) ++ [comma] := by
  induction chars with
  | nil => rfl
  | cons b chars ih =>
    rw [List.splitOn_cons_eq_if_modifyHead]
    by_cases space : b = 32
    · rw [if_pos (by simpa using space), List.map_cons, if_pos space, List.cons_append, ← ih]
      rfl
    · rw [if_neg (by simpa using space), List.map_cons, if_neg space, List.cons_append, ← ih]
      cases split : chars.splitOn 32 with
      | nil => exact absurd split (List.splitOn_ne_nil 32 chars)
      | cons first rest => rfl

section Table
open TelemetryFrames
variable {σ : Type} {S : PayloadStorage σ} {c : Config} {m : SqliteMap} {p : Nat} {s : σ}
  {stored : List (List UInt8)}

def fieldRows (endian : Endian) (printFloat : UInt32 → List UInt8) (types : List CString)
    (stored : List (List UInt8)) : Option (List (List (List UInt8))) :=
  stored.mapM (fprintFields endian printFloat types)

theorem dumpSamples_eq (holds : Holds S c m.toDataMap p s stored) (endian : Endian)
    (printFloat : UInt32 → List UInt8) {left i : Nat} (all : i + left = stored.length) :
    dumpSamples endian printFloat S m s p left i =
      (fieldRows endian printFloat (tokens (m.dataOrder p)) (stored.drop i)).map
        (writeTable comma newline) := by
  induction left generalizing i with
  | zero =>
    rw [List.drop_of_length_le (by omega)]
    rfl
  | succ left ih =>
    have here : i < stored.length := by omega
    have sample : S.storagePayloadGetData s p (Int32.ofNat i) (m.size p) = some (.ok stored[i]) :=
      holds.samples i here
    rw [dumpSamples, sample, ih (i := i + 1) (by omega), List.drop_eq_getElem_cons here]
    simp only [fieldRows, List.mapM_cons, dumpSample, datFprintPayloadStruct, Option.bind_eq_bind,
      Option.bind_some, Option.pure_def]
    generalize fprintFields endian printFloat (tokens (m.dataOrder p)) = fields
    cases fields stored[i] with
    | none => rfl
    | some texts =>
      cases (stored.drop (i + 1)).mapM fields with
      | none => rfl
      | some rows => simp [writeTable, join]

theorem tmDump_eq (holds : Holds S c m.toDataMap p s stored) (known : p < m.lastSensor)
    (small : p < 2147483648) (endian : Endian) (printFloat : UInt32 → List UInt8) :
    tmDump endian printFloat S c m s (some (Int32.ofNat p, true)) =
      (fieldRows endian printFloat (tokens (m.dataOrder p)) stored).map fun rows =>
        (cmdOk, some (writeTable comma newline (nameFields (m.varNames p) :: rows))) := by
  have number : (Int32.ofNat p).toInt = p := Int32.toInt_ofNat_of_lt small
  have inside : 0 ≤ (p : Int) ∧ (p : Int) < m.lastSensor := by omega
  have index : datGetSystemVar S.toStorage c s (m.sysIndex p) =
      some (Int32.ofNat stored.length) := holds.index
  have count : (Int32.ofNat stored.length).toInt = stored.length :=
    Int32.toInt_ofNat_of_lt holds.counted
  have lines := dumpSamples_eq holds endian printFloat (Nat.zero_add stored.length)
  rw [List.drop_zero] at lines
  rw [tmDump, number, if_pos inside]
  simp only [Int.toNat_natCast, index, Option.bind_eq_bind, Option.bind_some, count, lines]
  cases fieldRows endian printFloat (tokens (m.dataOrder p)) stored with
  | none => rfl
  | some rows =>
    have header : writeTable comma newline (nameFields (m.varNames p) :: rows) =
        join comma ((m.varNames p).chars.splitOn 32) ++ [newline] ++
          writeTable comma newline rows := rfl
    simp only [Option.map_some, Option.bind_some, Option.pure_def, header, join_splitOn,
      List.append_assoc, List.singleton_append]

end Table

/-! The texts of the fields. -/

section Fields
variable (endian : Endian) (printFloat : UInt32 → List UInt8)

def Plain (type : CString) : Prop :=
  type.chars ∈ [[37, 102], [37, 117], [37, 105], [37, 100], [37, 104], [37, 115]]

instance (type : CString) : Decidable (Plain type) :=
  inferInstanceAs (Decidable (type.chars ∈ _))

def dumpSize (types : List CString) : Nat := (types.map fieldStep).sum

def stringText (data : List UInt8) : List UInt8 := (data.take schStStrSize).takeWhile (· != 0)

def fieldText (type : CString) (data : List UInt8) : List UInt8 :=
  let c := conversion type
  let word := bytesWord endian (data.take 4)
  if c = 102 then printFloat word
  else if c = 117 then decimal word.toNat
  else if c = 105 ∨ c = 100 then decimalInt word.toInt32.toInt
  else if c = 104 then decimalInt (bytesHalf endian (data.take 2)).toInt16.toInt
  else stringText data

def fieldTexts : List CString → List UInt8 → List (List UInt8)
  | [], _ => []
  | type :: types, data =>
    fieldText endian printFloat type data :: fieldTexts types (data.drop (fieldStep type))

def strings : List CString → List UInt8 → List (List UInt8)
  | [], _ => []
  | type :: types, data =>
    if conversion type = 115 then stringText data :: strings types (data.drop (fieldStep type))
    else strings types (data.drop (fieldStep type))

def Clean (text : List UInt8) : Prop := comma ∉ text ∧ newline ∉ text

instance (text : List UInt8) : Decidable (Clean text) :=
  inferInstanceAs (Decidable (_ ∧ _))

variable {type : CString} {types : List CString} {data : List UInt8}

theorem fprintField_plain (plain : Plain type) (inside : fieldStep type ≤ data.length) :
    fprintField endian printFloat type data = some (fieldText endian printFloat type data) := by
  simp only [Plain, List.mem_cons, List.not_mem_nil, or_false] at plain
  rcases plain with text | text | text | text | text | text <;>
    simp [fieldStep, conversion, text, schStStrSize] at inside <;>
    simp [fprintField, fieldText, formatted, strndup, stringText, conversion, text, inside,
      schStStrSize]

theorem fprintFields_plain (plain : ∀ type ∈ types, Plain type)
    (inside : dumpSize types ≤ data.length) :
    fprintFields endian printFloat types data =
      some (fieldTexts endian printFloat types data) := by
  induction types generalizing data with
  | nil => rfl
  | cons type types ih =>
    have size : dumpSize (type :: types) = fieldStep type + dumpSize types := rfl
    have first := fprintField_plain endian printFloat (plain type List.mem_cons_self)
      (show fieldStep type ≤ data.length by omega)
    have shorter : dumpSize types ≤ (data.drop (fieldStep type)).length := by
      rw [List.length_drop]
      omega
    have rest := ih (fun later mem => plain later (List.mem_cons_of_mem type mem)) shorter
    simp only [fprintFields, first, rest, Option.bind_eq_bind, Option.bind_some, Option.pure_def,
      fieldTexts]

theorem fieldRows_plain (plain : ∀ type ∈ types, Plain type) {stored : List (List UInt8)}
    (inside : ∀ sample ∈ stored, dumpSize types ≤ sample.length) :
    fieldRows endian printFloat types stored =
      some (stored.map (fieldTexts endian printFloat types)) := by
  induction stored with
  | nil => rfl
  | cons sample stored ih =>
    have first := fprintFields_plain endian printFloat plain
      (inside sample List.mem_cons_self)
    have rest := ih fun later mem => inside later (List.mem_cons_of_mem sample mem)
    unfold fieldRows at rest ⊢
    simp only [List.mapM_cons, first, rest, Option.bind_eq_bind, Option.bind_some, Option.pure_def,
      List.map_cons]

/-! Texts without separators. -/

variable {endian : Endian} {printFloat : UInt32 → List UInt8}

theorem clean_decimal (n : Nat) : Clean (decimal n) :=
  ⟨fun mem => absurd (digit_of_mem_decimal mem) (by decide),
    fun mem => absurd (digit_of_mem_decimal mem) (by decide)⟩

theorem clean_decimalInt (i : Int) : Clean (decimalInt i) := by
  obtain ⟨noComma, noNewline⟩ := clean_decimal i.natAbs
  unfold decimalInt
  split
  · exact ⟨by simpa [comma, minus] using noComma, by simpa [newline, minus] using noNewline⟩
  · exact ⟨noComma, noNewline⟩

theorem clean_fieldText (plain : Plain type) (other : conversion type ≠ 115)
    (float : ∀ word, Clean (printFloat word)) : Clean (fieldText endian printFloat type data) := by
  simp only [Plain, List.mem_cons, List.not_mem_nil, or_false] at plain
  rcases plain with text | text | text | text | text | text <;>
    simp [fieldText, conversion, text, float, clean_decimal, clean_decimalInt] at other ⊢

theorem fieldTexts_clean_iff (plain : ∀ type ∈ types, Plain type)
    (float : ∀ word, Clean (printFloat word)) :
    (∀ text ∈ fieldTexts endian printFloat types data, Clean text) ↔
      ∀ text ∈ strings types data, Clean text := by
  induction types generalizing data with
  | nil => rfl
  | cons type types ih =>
    rw [fieldTexts, List.forall_mem_cons,
      ih fun later mem => plain later (List.mem_cons_of_mem type mem), strings]
    by_cases string : conversion type = 115
    · have text : fieldText endian printFloat type data = stringText data := by
        simp [fieldText, string]
      rw [if_pos string, List.forall_mem_cons, text]
    · rw [if_neg string]
      exact and_iff_right (clean_fieldText (plain type List.mem_cons_self) string float)

theorem mem_splitOn_of_ne {chars : List UInt8} {b : UInt8} (mem : b ∈ chars) (other : b ≠ 32) :
    ∃ field ∈ chars.splitOn 32, b ∈ field := by
  induction chars with
  | nil => cases mem
  | cons d chars ih =>
    rw [List.splitOn_cons_eq_if_modifyHead]
    rcases List.mem_cons.mp mem with rfl | later
    · rw [if_neg (by simpa using other)]
      cases split : chars.splitOn 32 with
      | nil => exact absurd split (List.splitOn_ne_nil 32 chars)
      | cons first rest => exact ⟨b :: first, List.mem_cons_self, List.mem_cons_self⟩
    · obtain ⟨field, among, inside⟩ := ih later
      by_cases space : d = 32
      · rw [if_pos (by simpa using space)]
        exact ⟨field, List.mem_cons_of_mem _ among, inside⟩
      · rw [if_neg (by simpa using space)]
        cases split : chars.splitOn 32 with
        | nil => exact absurd split (List.splitOn_ne_nil 32 chars)
        | cons first rest =>
          rw [split] at among
          rcases List.mem_cons.mp among with rfl | further
          · exact ⟨d :: field, List.mem_cons_self, List.mem_cons_of_mem d inside⟩
          · exact ⟨field, List.mem_cons_of_mem _ further, inside⟩

theorem nameFields_clean_iff (names : CString) :
    (∀ field ∈ nameFields names, Clean field) ↔ Clean names.chars := by
  constructor
  · intro clean
    constructor
    · intro mem
      obtain ⟨field, among, inside⟩ := mem_splitOn_of_ne mem (by decide)
      exact (clean field among).1 inside
    · intro mem
      obtain ⟨field, among, inside⟩ := mem_splitOn_of_ne mem (by decide)
      exact (clean field among).2 inside
  · intro clean field among
    exact ⟨fun mem => clean.1 (mem_of_mem_splitOn among mem),
      fun mem => clean.2 (mem_of_mem_splitOn among mem)⟩

end Fields

section Readable
open TelemetryFrames
variable {σ : Type} {S : PayloadStorage σ} {c : Config} {m : SqliteMap} {p : Nat} {s : σ}
  {stored : List (List UInt8)}

/-- The types are known, and their fields lie inside of a sample. -/
structure Printable (m : SqliteMap) (p : Nat) : Prop where
  known : p < m.lastSensor
  small : p < 2147483648
  plain : ∀ type ∈ tokens (m.dataOrder p), Plain type
  inside : dumpSize (tokens (m.dataOrder p)) ≤ m.size p

def dumpRows (endian : Endian) (printFloat : UInt32 → List UInt8) (m : SqliteMap) (p : Nat)
    (stored : List (List UInt8)) : List (List (List UInt8)) :=
  nameFields (m.varNames p) ::
    stored.map (fieldTexts endian printFloat (tokens (m.dataOrder p)))

theorem tmDump_printable (printable : Printable m p) (holds : Holds S c m.toDataMap p s stored)
    (endian : Endian) (printFloat : UInt32 → List UInt8) :
    tmDump endian printFloat S c m s (some (Int32.ofNat p, true)) =
      some (cmdOk, some (writeTable comma newline (dumpRows endian printFloat m p stored))) := by
  have inside : ∀ sample ∈ stored, dumpSize (tokens (m.dataOrder p)) ≤ sample.length := by
    intro sample mem
    rw [holds.sizes sample mem]
    exact printable.inside
  rw [tmDump_eq holds printable.known printable.small, fieldRows_plain endian printFloat
    printable.plain inside]
  rfl

theorem dumpRows_clean_iff (printable : Printable m p) (endian : Endian)
    {printFloat : UInt32 → List UInt8} (float : ∀ word, Clean (printFloat word)) :
    readTable comma newline (writeTable comma newline (dumpRows endian printFloat m p stored)) =
        dumpRows endian printFloat m p stored ↔
      Clean (m.varNames p).chars ∧
        ∀ sample ∈ stored, ∀ text ∈ strings (tokens (m.dataOrder p)) sample, Clean text := by
  rw [readTable_writeTable_iff (by decide), dumpRows, List.forall_mem_cons, List.forall_mem_map]
  apply and_congr (nameFields_clean_iff (m.varNames p))
  exact forall₂_congr fun sample _ => fieldTexts_clean_iff printable.plain float

/-- The file has a line for each sample, and is read back as the names and the
    texts of the fields exactly when no name and no string has a separator. -/
theorem dump_readable_iff (printable : Printable m p) (holds : Holds S c m.toDataMap p s stored)
    (endian : Endian) {printFloat : UInt32 → List UInt8}
    (float : ∀ word, Clean (printFloat word)) :
    ∃ file, tmDump endian printFloat S c m s (some (Int32.ofNat p, true)) =
        some (cmdOk, some file) ∧
      (readTable comma newline file = dumpRows endian printFloat m p stored ↔
        Clean (m.varNames p).chars ∧
          ∀ sample ∈ stored, ∀ text ∈ strings (tokens (m.dataOrder p)) sample, Clean text) :=
  ⟨_, tmDump_printable printable holds endian printFloat,
    dumpRows_clean_iff printable endian float⟩

end Readable

/-! Numbers are read back as the bytes that were printed. -/

section Numbers
variable {endian : Endian} {printFloat : UInt32 → List UInt8} {type : CString}
  {types : List CString} {data : List UInt8}

def number (text : List UInt8) : Int :=
  if text.head? = some minus then -(value text.tail : Int) else value text

theorem numeric_plain (numeric : Numeric type) : Plain type := by
  rcases numeric with text | text | text | text <;> simp [Plain, text]

theorem numeric_fieldStep (numeric : Numeric type) : fieldStep type = fieldSize type := by
  rcases numeric with text | text | text | text <;>
    simp [fieldStep, fieldSize, getSizeofType, conversion, text]

end Numbers

/-! The dumps of both nodes. -/

section Downlink
open FileFrames TelemetryFrames TelemetryTransfer AcknowledgedSamples CumulativeAck PayloadDownlink
open Runs

/-- A sample of numbers without gaps, and names without a separator. -/
structure NumberSample (m : SqliteMap) (p : Nat) : Prop where
  numeric : ∀ type ∈ tokens (m.dataOrder p), Numeric type
  packed : m.size p = sampleSize (tokens (m.dataOrder p))
  names : Clean (m.varNames p).chars

theorem NumberSample.printable {m : SqliteMap} {p : Nat} (numbers : NumberSample m p)
    (known : p < m.lastSensor) (small : p < 2147483648) : Printable m p where
  known := known
  small := small
  plain type mem := numeric_plain (numbers.numeric type mem)
  inside := by
    rw [numbers.packed]
    refine Nat.le_of_eq (congrArg List.sum (List.map_congr_left fun type mem => ?_))
    exact numeric_fieldStep (numbers.numeric type mem)

section Restore
variable {σ : Type} {S : PayloadStorage σ} {c : Config} {m : SqliteMap} {p : Nat} {s : σ}
  {stored : List (List UInt8)}

end Restore

section Simple
open RamStorage RamPayload RamSamples StatusCommands FileTransfer

def tempMap : SqliteMap where
  toPayloadMap := tempSamples
  table _ := ⟨ascii "temp_data", by decide⟩
  dataOrder _ := ⟨ascii "%u %u %f", by decide⟩
  varNames _ := ⟨ascii "sat_index timestamp obc_temp_1", by decide⟩
  table_lt _ := by decide

theorem temp_types (p : Nat) : tokens (tempMap.dataOrder p) =
    [⟨[37, 117], by decide⟩, ⟨[37, 117], by decide⟩, ⟨[37, 102], by decide⟩] := rfl

theorem temp_printable : Printable tempMap 0 where
  known := by decide
  small := by decide
  plain := by rw [temp_types]; decide
  inside := by rw [temp_types]; decide

def zeroText (_ : UInt32) : List UInt8 := ascii "0.000000"

theorem zeros_readable :
    ∃ s file, Holds (ramPayloadStorage simpleConfig) simpleConfig tempMap.toDataMap 0 s
        [List.replicate 12 0] ∧
      tmDump .little zeroText (ramPayloadStorage simpleConfig) simpleConfig tempMap s
        (some (0, true)) = some (cmdOk, some file) ∧
      readTable comma newline file =
        [[ascii "sat_index", ascii "timestamp", ascii "obc_temp_1"],
          [ascii "0", ascii "0", ascii "0.000000"]] := by
  have laws := ram_lawful (mapped temp_schema (show 0 < tempSamples.lastSensor by decide))
  obtain ⟨s, -, appended⟩ := datAddPayloadSample_appends laws (by decide)
    ⟨_, _, blankStore_working _ _⟩ (blankStore_index (by decide)) (temp_room 0 (by decide))
    (show 4 ≤ (List.replicate 12 (0 : UInt8)).length by decide) (by decide)
  have holds := holds_append laws (holds_nothing (blankStore_index (by decide)))
    (fun k before => temp_room k (Nat.lt_trans before (by decide))) (by decide) appended
  have zero : Clean (ascii "0.000000") := by decide
  have float : ∀ word, Clean (zeroText word) := fun _ => zero
  obtain ⟨file, dump, readable⟩ := dump_readable_iff temp_printable holds .little float
  refine ⟨s, file, holds, dump, ?_⟩
  rw [readable.mpr (by decide)]
  decide

end Simple

end Downlink

end PayloadDump
