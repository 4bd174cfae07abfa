import Mathlib.Data.List.Find
import SuchaiFlight.SqlitePayload

/-!
The samples of a payload table: what a sample becomes in the columns of its row
and what is read from them, and the calls of `repoData.c` on tables of samples.
-/
namespace SqliteSamples
open ByteMemory ByteOrder CStrings TextScan DecimalText StorageApi RepoData StatusVariables
open RowTables PayloadData PayloadCalls SqliteStorage SqlitePayload SignedWord

/-! The fields of a sample. -/

def Numeric (cType : CString) : Prop :=
  cType.chars = [37, 100] ∨ cType.chars = [37, 105] ∨ cType.chars = [37, 117] ∨
    cType.chars = [37, 104]

def fieldSize (cType : CString) : Nat := (getSizeofType cType).getD 0

def sampleSize (types : List CString) : Nat := (types.map fieldSize).sum

section
variable (endian : Endian)

def printed (cType : CString) (data : List UInt8) : Int :=
  if conversion cType = 104 then (bytesHalf endian data).toInt16.toInt
  else (bytesWord endian data).toInt32.toInt

def widest (cType : CString) (data : List UInt8) : Nat :=
  let length := strlen (decimalText (printed endian cType data))
  if conversion cType = 117 then max (strlen (digitsText (bytesWord endian data).toNat)) length
  else length

def numbers : List CString → List UInt8 → List Int
  | [], _ => []
  | t :: types, data =>
    printed endian t (data.take (fieldSize t)) :: numbers types (data.drop (fieldSize t))

def valuesEnd : List CString → Nat → List UInt8 → Nat
  | [], used, _ => used
  | t :: types, used, data =>
    valuesEnd types
      (used + (strlen (decimalText (printed endian t (data.take (fieldSize t)))) + 2))
      (data.drop (fieldSize t))

def ValuesFit : List CString → Nat → List UInt8 → Prop
  | [], _, _ => True
  | t :: types, used, data =>
    used + (widest endian t (data.take (fieldSize t)) + 2) < stSqlMaxLen ∧
      ValuesFit types
        (used + (strlen (decimalText (printed endian t (data.take (fieldSize t)))) + 2))
        (data.drop (fieldSize t))

end

def columnsLength (names : List CString) : Nat := (names.map fun name => strlen name + 2).sum

variable {e : Endian} {t : CString} {data : List UInt8}

@[simp] theorem strlen_column (text : CString) : strlen (column text) = strlen text + 2 := by
  simp only [column, strlen, chars_append, List.length_append, blank, List.length_singleton]
  omega

theorem sqlNumber_column (i : Int) : sqlNumber (column (decimalText i)) = some i := by
  have comma : Stops digit ⟨[44], by decide⟩ := by decide
  have start : beyond isSpace (column (decimalText i)) = decimalText i ++ ⟨[44], by decide⟩ := by
    rw [column, append_assoc]
    exact beyond_append blank_isSpace (decimalText_stops i _)
  rw [sqlNumber, start, scanInt_decimal i comma]
  rfl

theorem getValueString_eq (numeric : Numeric t) (used : Nat) :
    getValueString e used t data =
      if used + (widest e t data + 2) < stSqlMaxLen then
        some (column (decimalText (printed e t data)))
      else none := by
  rcases numeric with text | text | text | text <;>
    simp only [getValueString, widest, printed, conversion, text, sprintf, strlen_column]
  · rfl
  · rfl
  · -- the text of the case `u` is printed first
    have other : ¬ (117 : UInt8) = 104 := by decide
    simp only [List.getD_cons_succ, List.getD_cons_zero, ↓reduceIte, if_neg other]
    by_cases first : used + (strlen (digitsText (bytesWord e data).toNat) + 2) < stSqlMaxLen
    · by_cases second : used + (strlen (decimalText (bytesWord e data).toInt32.toInt) + 2) <
          stSqlMaxLen
      · rw [if_pos first, if_pos second, if_pos (by omega)]
        rfl
      · rw [if_pos first, if_neg second, if_neg (by omega)]
        rfl
    · rw [if_neg first, if_neg (c := used + (max _ _ + 2) < stSqlMaxLen) (by omega)]
      rfl
  · rfl

theorem fieldSize_eq (numeric : Numeric t) :
    getSizeofType t = some (fieldSize t) ∧
      fieldSize t = if conversion t = 104 then 2 else 4 := by
  rcases numeric with text | text | text | text <;>
    simp [fieldSize, getSizeofType, conversion, text]

theorem getSqliteValue_printed (numeric : Numeric t) (size : data.length = fieldSize t) :
    getSqliteValue e t (printed e t data) = data := by
  rw [(fieldSize_eq numeric).2] at size
  unfold getSqliteValue printed
  by_cases half : conversion t = 104
  · simp only [if_pos half] at size ⊢
    rw [Int32.toInt16_ofInt, Int16.ofInt_toInt, UInt16.toUInt16_toInt16,
      halfBytes_bytesHalf e size]
  · simp only [if_neg half] at size ⊢
    rw [Int32.ofInt_toInt, UInt32.toUInt32_toInt32, wordBytes_bytesWord e size]

theorem insertColumns_cons (numeric : Numeric t) {types names : List CString} {name : CString}
    (whole : fieldSize t ≤ data.length) (n v : Nat) :
    insertColumns e (t :: types) (name :: names) n v data =
      if n + (strlen name + 2) < stSqlMaxLen ∧
          v + (widest e t (data.take (fieldSize t)) + 2) < stSqlMaxLen then
        (insertColumns e types names (n + (strlen name + 2))
          (v + (strlen (decimalText (printed e t (data.take (fieldSize t)))) + 2))
          (data.drop (fieldSize t))).map fun r =>
            (r.1, r.2.1, printed e t (data.take (fieldSize t)) :: r.2.2)
      else none := by
  rw [insertColumns, (fieldSize_eq numeric).1, sprintf, strlen_column]
  by_cases named : n + (strlen name + 2) < stSqlMaxLen
  · by_cases fits : v + (widest e t (data.take (fieldSize t)) + 2) < stSqlMaxLen
    · simp only [if_pos named, Option.bind_eq_bind, Option.bind_some, if_pos whole,
        getValueString_eq numeric, if_pos fits, sqlNumber_column, strlen_column,
        if_pos (And.intro named fits), Option.map_eq_bind]
      rfl
    · simp only [if_pos named, Option.bind_eq_bind, Option.bind_some, if_pos whole,
        getValueString_eq numeric, if_neg fits, Option.bind_none,
        if_neg fun both : _ ∧ _ => fits both.2]
  · rw [if_neg named, if_neg fun both => named both.1]
    rfl

theorem length_drop_field {types : List CString} (size : data.length = sampleSize (t :: types)) :
    fieldSize t ≤ data.length ∧ (data.drop (fieldSize t)).length = sampleSize types := by
  rw [sampleSize, List.map_cons, List.sum_cons] at size
  rw [List.length_drop, sampleSize]
  omega

theorem insertColumns_eq {types names : List CString} (numeric : ∀ t ∈ types, Numeric t)
    (paired : names.length = types.length) (size : data.length = sampleSize types) {n v : Nat}
    (start : n < stSqlMaxLen) :
    (n + columnsLength names < stSqlMaxLen ∧ ValuesFit e types v data →
      insertColumns e types names n v data =
        some (n + columnsLength names, valuesEnd e types v data, numbers e types data)) ∧
    (¬ (n + columnsLength names < stSqlMaxLen ∧ ValuesFit e types v data) →
      insertColumns e types names n v data = none) := by
  induction types generalizing names n v data with
  | nil =>
    obtain rfl : names = [] := List.eq_nil_of_length_eq_zero paired
    exact ⟨fun _ => rfl, fun refused => absurd ⟨start, trivial⟩ refused⟩
  | cons t types ih =>
    cases names with
    | nil => cases paired
    | cons name names =>
      obtain ⟨whole, rest⟩ := length_drop_field size
      have total : n + columnsLength (name :: names) =
          n + (strlen name + 2) + columnsLength names := by
        simp only [columnsLength, List.map_cons, List.sum_cons]
        omega
      rw [total, insertColumns_cons (numeric t List.mem_cons_self) whole]
      by_cases named : n + (strlen name + 2) < stSqlMaxLen
      · obtain ⟨accepted, refused⟩ := ih (fun u mem => numeric u (List.mem_cons_of_mem t mem))
          (Nat.succ.inj paired) rest named (v := v + (strlen (decimalText (printed e t
            (data.take (fieldSize t)))) + 2))
        constructor
        · rintro ⟨short, fits, later⟩
          rw [if_pos ⟨named, fits⟩, accepted ⟨short, later⟩]
          rfl
        · intro wrong
          split
          · rename_i both
            rw [refused fun ⟨short, later⟩ => wrong ⟨short, both.2, later⟩]
            rfl
          · rfl
      · refine ⟨fun ⟨short, _⟩ => absurd short (by omega), fun _ => ?_⟩
        rw [if_neg fun both => named both.1]

theorem readColumns_numbers {types : List CString} (numeric : ∀ t ∈ types, Numeric t)
    (size : data.length = sampleSize types) :
    readColumns e types (numbers e types data) = some data := by
  induction types generalizing data with
  | nil =>
    obtain rfl : data = [] := List.eq_nil_of_length_eq_zero size
    rfl
  | cons t types ih =>
    have here := numeric t List.mem_cons_self
    obtain ⟨whole, rest⟩ := length_drop_field size
    have first : (data.take (fieldSize t)).length = fieldSize t := List.length_take_of_le whole
    have later := ih (fun u mem => numeric u (List.mem_cons_of_mem t mem)) rest
    simp only [readColumns, (fieldSize_eq here).1, numbers, List.tail_cons, List.headD_cons, later,
      Option.bind_eq_bind, Option.bind_some, getSqliteValue_printed here first,
      List.take_append_drop]
    rfl

/-! Statements. -/

/-- What a schema gives the SQLite back end: numbers only, a name for each, and
    a sample without gaps. The names of its tables, and those of the columns of a
    table, are taken to be distinct names that SQLite accepts: no keyword such as
    `index`, and no column `id` or `tstz`, which are there already. It refuses to
    create the tables of other schemas, and no command here looks into the names. -/
structure NumberSchema (c : Config) (m : SqliteMap) : Prop extends Schema c m.toPayloadMap where
  numeric : ∀ p < m.lastSensor, ∀ t ∈ tokens (m.dataOrder p), Numeric t
  paired : ∀ p < m.lastSensor,
    (tokens (m.varNames p)).length = (tokens (m.dataOrder p)).length
  packed : ∀ p < m.lastSensor, m.size p = sampleSize (tokens (m.dataOrder p))

def namesLength (m : SqliteMap) (p : Nat) : Nat :=
  "(id, tstz,".length + columnsLength (tokens (m.varNames p))

def valuesStart (index : Int32) : Nat :=
  "(".length + strlen (idText index) + ", current_timestamp,".length

structure InsertFits (endian : Endian) (m : SqliteMap) (p : Nat) (index : Int32)
    (data : List UInt8) : Prop where
  names : namesLength m p < stSqlMaxLen
  values : ValuesFit endian (tokens (m.dataOrder p)) (valuesStart index) data
  statement : "INSERT INTO ".length + strlen (m.table p) + " ".length + namesLength m p +
    " VALUES ".length + valuesEnd endian (tokens (m.dataOrder p)) (valuesStart index) data <
      2 * stSqlMaxLen

def rowOf (endian : Endian) (m : SqliteMap) (p : Nat) (sample : Nat × List UInt8) : PayloadRow :=
  { id := Int32.ofNat sample.1
    fields := numbers endian (tokens (m.dataOrder p)) sample.2 }

variable {c : Config} {m : SqliteMap} {s : SqliteStore} {p i : Nat}

theorem setData_eq (schema : NumberSchema c m) (known : p < m.lastSensor)
    (size : data.length = m.size p) :
    (InsertFits e m p (Int32.ofNat i) data → s.payloadsSchema = true →
      storagePayloadSetData e m s p (Int32.ofNat i) data (m.size p) = some (schStOk,
        { s with payloadTables := Function.update s.payloadTables p
                   (insert (rowOf e m p (i, data)) (s.payloadTables p)) })) ∧
    (¬ InsertFits e m p (Int32.ofNat i) data → ∀ rc s',
      storagePayloadSetData e m s p (Int32.ofNat i) data (m.size p) = some (rc, s') →
        rc = schStError) := by
  rw [schema.packed p known] at size
  obtain ⟨accepted, refused⟩ := insertColumns_eq (e := e) (schema.numeric p known)
    (schema.paired p known) size (n := "(id, tstz,".length) (v := valuesStart (Int32.ofNat i))
    (by decide)
  unfold valuesStart at accepted refused
  unfold storagePayloadSetData
  constructor
  · rintro ⟨names, values, statement⟩ created
    simp only [accepted ⟨names, values⟩, Option.bind_eq_bind, Option.bind_some]
    exact if_pos ⟨statement, created⟩
  · intro wrong rc s' run
    by_cases both : namesLength m p < stSqlMaxLen ∧
        ValuesFit e (tokens (m.dataOrder p)) (valuesStart (Int32.ofNat i)) data
    · simp only [accepted both, Option.bind_eq_bind, Option.bind_some] at run
      split at run
      · rename_i ready
        exact absurd ⟨both.1, both.2, ready.1⟩ wrong
      · cases run
        rfl
    · rw [refused both] at run
      cases run

theorem idText_short (index : Int32) : strlen (idText index) ≤ 11 := by
  have low := index.le_toInt
  have high := index.toInt_lt
  have five := decimal_length_step (decimal_length_step (decimal_length_step (decimal_length_step
    decimal_length_one)))
  have ten := decimal_length_step (decimal_length_step (decimal_length_step (decimal_length_step
    (decimal_length_step five))))
  have digits := ten index.toInt.natAbs (by omega)
  simp only [idText, decimalText, strlen, decimalInt]
  split
  · rw [List.length_cons]
    omega
  · omega

def firstAt (added : List (Nat × List UInt8)) (i : Nat) : Option (List UInt8) :=
  (added.find? fun a => a.1 = i).map Prod.snd

def Spaced (m : SqliteMap) (p : Nat) : Prop := ∀ name ∈ (m.varNames p).chars.splitOn 32, name ≠ []

theorem spaced_iff : Spaced m p ↔ ((m.varNames p).chars.splitOn 32).any List.isEmpty = false := by
  simp [Spaced]

structure Table (endian : Endian) (m : SqliteMap) (s : SqliteStore) (p : Nat)
    (added : List (Nat × List UInt8)) : Prop where
  rows : values (s.payloadTables p) = added.map (rowOf endian m p)
  whole : ∀ a ∈ added, a.1 < 2147483648 ∧ a.2.length = m.size p

theorem find_row {added : List (Nat × List UInt8)} (small : ∀ a ∈ added, a.1 < 2147483648)
    (below : i < 2147483648) :
    (added.map (rowOf e m p)).find? (fun row => row.id = Int32.ofNat i) =
      (added.find? fun a => a.1 = i).map (rowOf e m p) := by
  rw [List.find?_map]
  congr 1
  apply List.find?_congr
  intro a mem
  have same : Int32.ofNat a.1 = Int32.ofNat i ↔ a.1 = i := by
    constructor
    · intro eq
      have ints := congrArg Int32.toInt eq
      rw [Int32.toInt_ofNat_of_lt (small a mem), Int32.toInt_ofNat_of_lt below] at ints
      omega
    · rintro rfl
      rfl
  simp [rowOf, same]

theorem getData_eq (schema : NumberSchema c m) (known : p < m.lastSensor)
    (short : strlen (m.varNames p) < schBuffMaxLen * 4) (created : s.payloadsSchema = true)
    {added : List (Nat × List UInt8)} (table : Table e m s p added) (below : i < 2147483648) :
    (¬ Spaced m p →
      storagePayloadGetData e m s p (Int32.ofNat i) (m.size p) = some (.error schStError)) ∧
    (Spaced m p → ∀ data, firstAt added i = some data →
      storagePayloadGetData e m s p (Int32.ofNat i) (m.size p) = some (.ok data)) := by
  have id := idText_short (Int32.ofNat i)
  have name := m.table_lt p
  have fits : ¬ 2 * stSqlMaxLen ≤ "SELECT ".length + strlen (m.varNames p) + " FROM ".length +
      strlen (m.table p) + " WHERE id=".length + strlen (idText (Int32.ofNat i)) +
      " LIMIT 1".length := by
    have lengths : "SELECT ".length = 7 ∧ " FROM ".length = 6 ∧ " WHERE id=".length = 10 ∧
        " LIMIT 1".length = 8 := by decide
    rw [lengths.1, lengths.2.1, lengths.2.2.1, lengths.2.2.2]
    simp only [stSqlMaxLen, schBuffMaxLen] at short ⊢
    omega
  unfold storagePayloadGetData
  simp only [if_neg fits]
  constructor
  · intro wrong
    rw [spaced_iff, Bool.not_eq_false] at wrong
    rw [wrong, Bool.true_or, if_pos rfl]
  · intro spaced data first
    rw [firstAt, Option.map_eq_some_iff] at first
    obtain ⟨a, found, rfl⟩ := first
    have mem := List.mem_of_find?_eq_some found
    have row : selectFirst (fun row => row.id = Int32.ofNat i) (s.payloadTables p) =
        some (rowOf e m p a) := by
      rw [selectFirst, table.rows, find_row (fun a mem => (table.whole a mem).1) below, found]
      rfl
    have size := (table.whole a mem).2
    rw [schema.packed p known] at size
    rw [spaced_iff.mp spaced, created, Bool.not_true, Bool.false_or, if_neg Bool.false_ne_true]
    simp only [row, rowOf, readColumns_numbers (schema.numeric p known) size, Option.map_some]

/-! The calls of the repository. -/

structure Database (endian : Endian) (c : Config) (m : SqliteMap) (s : SqliteStore)
    (index : Nat → Option Nat) (added : Nat → List (Nat × List UInt8)) : Prop where
  isOpen : s.storageIsOpen = true
  created : s.payloadsSchema = true
  entries : s.payloadsEntries = m.lastSensor
  tables : ∀ p < m.lastSensor, Table endian m s p (added p)
  index : ∀ p < m.lastSensor, voted c s.statusTable (m.sysIndex p) =
    (index p).map fun i => (Int32.ofNat i).toUInt32

variable {s₁ s' : SqliteStore} {index : Nat → Option Nat} {added : Nat → List (Nat × List UInt8)}

theorem Database.of_status {index' : Nat → Option Nat} {added' : Nat → List (Nat × List UInt8)}
    (isOpen : s'.storageIsOpen = true) (same : otherTables s' = otherTables s₁)
    (created : s₁.payloadsSchema = true) (entries : s₁.payloadsEntries = m.lastSensor)
    (tables : ∀ p < m.lastSensor, Table e m s₁ p (added' p))
    (moved : ∀ p < m.lastSensor, voted c s'.statusTable (m.sysIndex p) =
      (index' p).map fun i => (Int32.ofNat i).toUInt32) :
    Database e c m s' index' added' := by
  have tablesEq : s'.payloadTables = s₁.payloadTables := congrArg (fun r => r.2.2.2) same
  refine ⟨isOpen, (congrArg (fun r => r.2.1) same).trans created,
    (congrArg (fun r => r.2.2.1) same).trans entries, fun p known => ?_, moved⟩
  obtain ⟨rows, whole⟩ := tables p known
  exact ⟨by rw [tablesEq, rows], whole⟩

theorem add_database (schema : NumberSchema c m) (db : Database e c m s index added)
    (known : p < m.lastSensor) (written : index p = some i) (small : i < 2147483648)
    (log : 4 ≤ data.length) (whole : m.size p ≤ data.length)
    (fits : InsertFits e m p (Int32.ofNat i) (data.take (m.size p))) :
    ∃ s', datAddPayloadSample (sqlitePayloadTables e m).toPayloadStorage c m.toDataMap s data p
        = some (0, s') ∧
      Database e c m s' (Function.update index p (some (i + 1)))
        (Function.update added p (added p ++ [(i, data.take (m.size p))])) := by
  have size := List.length_take_of_le whole
  have set := (setData_eq (i := i) (e := e) schema known size).1 fits db.created
  have stored := db.index p known
  rw [written, Option.map_some] at stored
  obtain ⟨s', add, isOpen, same, vote⟩ := datAddPayloadSample_spec
    (S := sqlitePayloadTables e m) (sqlite_status c) schema.toSchema known db.isOpen stored log
    whole set db.isOpen rfl
  refine ⟨s', add, .of_status isOpen same db.created db.entries ?_ ?_⟩
  · intro q known'
    obtain ⟨rows, held⟩ := db.tables q known'
    by_cases own : q = p
    · subst own
      constructor
      · simp only [Function.update_self, values_insert, rows, List.map_append, List.map_singleton]
      · intro a mem
        rw [Function.update_self, List.mem_append, List.mem_singleton] at mem
        rcases mem with old | rfl
        · exact held a old
        · exact ⟨small, size⟩
    · constructor
      · simp only [Function.update_of_ne own, rows]
      · rw [Function.update_of_ne own]
        exact held
  · intro q known'
    rw [vote _ (schema.index_lt q known')]
    by_cases own : q = p
    · subst own
      rw [if_pos rfl, Function.update_self, Option.map_some, ofNat_add_one]
    · rw [if_neg (schema.index_ne known known' own), Function.update_of_ne own, db.index q known']

theorem add_refused (schema : NumberSchema c m) (db : Database e c m s index added)
    (known : p < m.lastSensor) (whole : m.size p ≤ data.length)
    (wrong : ∀ i, index p = some i →
      ¬ InsertFits e m p (Int32.ofNat i) (data.take (m.size p))) (s' : SqliteStore) :
    datAddPayloadSample (sqlitePayloadTables e m).toPayloadStorage c m.toDataMap s data p ≠
      some (0, s') := by
  intro run
  have read : datGetSystemVar (sqlitePayloadTables e m).toStorage c s (m.sysIndex p) =
      (index p).map Int32.ofNat := by
    refine (datGetSystemVar_eq (sqlite_status c) db.isOpen (schema.index_lt p known)).trans ?_
    rw [db.index p known, Option.map_map]
    congr 1
  unfold datAddPayloadSample at run
  split at run
  · cases place : index p with
    | none =>
      rw [read, place] at run
      cases run
    | some i =>
      rw [read, place, Option.map_some, Option.bind_eq_bind, Option.bind_some] at run
      obtain ⟨⟨rc, s₁⟩, set, run⟩ := Option.bind_eq_some_iff.mp run
      obtain rfl := (setData_eq (i := i) (e := e) schema known
        (List.length_take_of_le whole)).2 (wrong i place) rc s₁ set
      have error : ¬ schStOk ≤ schStError := by decide
      simp [error] at run
  · cases run

theorem delete_database (schema : NumberSchema c m) (db : Database e c m s index added)
    (known : p < m.lastSensor) :
    ∃ s', datDeletePayload (sqlitePayloadTables e m) c m.toPayloadMap s p =
        some (schStOk, s') ∧
      Database e c m s' (Function.update index p (some 0)) (Function.update added p []) := by
  have inside : ¬ (m.lastSensor : Int) ≤ p := by omega
  have sign : ¬ (p : Int) < 0 := by omega
  have reset : storagePayloadResetTable s p = some (schStOk,
      { s with payloadTables := Function.update s.payloadTables p
                 (deleteRows (fun _ => true) (s.payloadTables p)) }) := by
    simp [storagePayloadResetTable, db.created, db.isOpen, db.entries, inside, sign]
  obtain ⟨s', delete, isOpen, same, vote⟩ := datDeletePayload_spec
    (S := sqlitePayloadTables e m) (sqlite_status c) schema.toSchema known reset db.isOpen rfl
  refine ⟨s', delete, .of_status isOpen same db.created db.entries ?_ ?_⟩
  · intro q known'
    obtain ⟨rows, held⟩ := db.tables q known'
    by_cases own : q = p
    · subst own
      constructor
      · simp [values, deleteRows]
      · simp
    · constructor
      · simp only [Function.update_of_ne own, rows]
      · rw [Function.update_of_ne own]
        exact held
  · intro q known'
    rw [vote _ (schema.index_lt q known')]
    by_cases own : q = p
    · subst own
      rw [if_pos (.inr rfl), Function.update_self]
      rfl
    · rw [if_neg (schema.index_kept known known' own), Function.update_of_ne own,
        db.index q known']

theorem resetStatusVars_database (schema : NumberSchema c m)
    (db : Database e c m s index added) :
    ∃ s', datResetStatusVars (sqlitePayloadTables e m).toStorage c s = some (schStOk, s') ∧
      Database e c m s' (fun _ => some 0) added := by
  obtain ⟨s', reset, isOpen, same, vote⟩ := datResetStatusVars_spec (sqlite_status c) db.isOpen
  refine ⟨s', reset, .of_status isOpen same db.created db.entries db.tables ?_⟩
  intro p known
  rw [vote _ (schema.index_lt p known), schema.start p known]
  rfl

/-! The start. -/

def createLines (types names : List CString) : List Nat :=
  List.zipWith (fun t name => strlen name + " ".length + (getSqlType t).length) types names

structure TableFits (m : SqliteMap) (p : Nat) : Prop where
  order : strlen (m.dataOrder p) < 300
  names : strlen (m.varNames p) < schBuffMaxLen * 4
  columns : (tokens (m.varNames p)).length < 300
  lines : ∀ line ∈ createLines (tokens (m.dataOrder p)) (tokens (m.varNames p)), line < 100
  statement : "CREATE TABLE IF NOT EXISTS ".length + strlen (m.table p) +
    "(id INTEGER, tstz TIMESTAMPTZ,".length +
      ((createLines (tokens (m.dataOrder p)) (tokens (m.varNames p))).map (· + 1)).sum <
        schBuffMaxLen * 4

theorem createColumns_eq {types names : List CString} (paired : names.length = types.length)
    (some_name : names ≠ []) (used : Nat) :
    ((∀ line ∈ createLines types names, line < 100) → ∃ length,
      createColumns types names used = some length ∧
        length + 1 = used + ((createLines types names).map (· + 1)).sum) ∧
    (¬ (∀ line ∈ createLines types names, line < 100) →
      createColumns types names used = none) := by
  induction types generalizing names used with
  | nil => exact absurd (List.eq_nil_of_length_eq_zero paired) some_name
  | cons t types ih =>
    cases names with
    | nil => cases paired
    | cons name names =>
      have lines : createLines (t :: types) (name :: names) =
          (strlen name + " ".length + (getSqlType t).length) :: createLines types names := rfl
      have paired := Nat.succ.inj paired
      rw [lines, List.forall_mem_cons, List.map_cons, List.sum_cons, createColumns]
      by_cases short : strlen name + " ".length + (getSqlType t).length < 100
      · rw [if_pos short]
        by_cases last : names = []
        · subst last
          obtain rfl : types = [] := List.eq_nil_of_length_eq_zero paired.symm
          refine ⟨fun _ => ⟨_, rfl, ?_⟩, fun wrong => absurd ⟨short, nofun⟩ wrong⟩
          simp [createLines]
          omega
        · obtain ⟨accepted, refused⟩ := ih paired last
            (used + (strlen name + " ".length + (getSqlType t).length) + ",".length)
          rw [if_neg last]
          constructor
          · rintro ⟨-, later⟩
            obtain ⟨length, columns, total⟩ := accepted later
            refine ⟨length, columns, ?_⟩
            have comma : ",".length = 1 := by decide
            omega
          · intro wrong
            exact refused fun later => wrong ⟨short, later⟩
      · rw [if_neg short]
        exact ⟨fun all => absurd all.1 short, fun _ => rfl⟩

theorem tokens_ne_nil (schema : NumberSchema c m) (known : p < m.lastSensor) :
    tokens (m.varNames p) ≠ [] := by
  intro empty
  have paired := schema.paired p known
  rw [empty] at paired
  have none := List.eq_nil_of_length_eq_zero paired.symm
  have size := schema.packed p known
  rw [none] at size
  exact (schema.filled p known).ne size.symm

theorem createTable_eq (schema : NumberSchema c m) (known : p < m.lastSensor) :
    (TableFits m p → createTable m p = some true) ∧ (¬ TableFits m p → createTable m p = none) := by
  have paired := schema.paired p known
  have filled := tokens_ne_nil schema known
  obtain ⟨accepted, refused⟩ := createColumns_eq paired filled
    ("CREATE TABLE IF NOT EXISTS ".length + strlen (m.table p) +
      "(id INTEGER, tstz TIMESTAMPTZ,".length)
  have bracket : ")".length = 1 := by decide
  unfold createTable
  constructor
  · rintro ⟨order, names, columns, lines, statement⟩
    obtain ⟨length, created, total⟩ := accepted lines
    have short : length + ")".length < schBuffMaxLen * 4 := by omega
    simp [order, names, columns, ← paired, created, short, filled]
  · intro wrong
    by_cases texts : strlen (m.dataOrder p) < 300 ∧ strlen (m.varNames p) < schBuffMaxLen * 4 ∧
        (tokens (m.dataOrder p)).length < 300 ∧ (tokens (m.varNames p)).length < 300
    · rw [if_pos texts]
      by_cases lines : ∀ line ∈ createLines (tokens (m.dataOrder p)) (tokens (m.varNames p)),
          line < 100
      · obtain ⟨length, created, total⟩ := accepted lines
        have long : ¬ length + ")".length < schBuffMaxLen * 4 := by
          intro short
          exact wrong ⟨texts.1, texts.2.1, texts.2.2.2, lines, by omega⟩
        simp [created, long]
      · simp [refused lines]
    · rw [if_neg texts]

theorem createTables_eq (schema : NumberSchema c m) {payloads : List Nat}
    (known : ∀ p ∈ payloads, p < m.lastSensor) :
    ((∀ p ∈ payloads, TableFits m p) → createTables m payloads = some true) ∧
    (¬ (∀ p ∈ payloads, TableFits m p) → createTables m payloads = none) := by
  induction payloads with
  | nil => exact ⟨fun _ => rfl, fun wrong => absurd nofun wrong⟩
  | cons p rest ih =>
    obtain ⟨accepted, refused⟩ := createTable_eq schema (known p List.mem_cons_self)
    obtain ⟨all, some_wrong⟩ := ih fun q mem => known q (List.mem_cons_of_mem p mem)
    rw [List.forall_mem_cons, createTables]
    constructor
    · rintro ⟨here, later⟩
      simp [accepted here, all later]
    · intro wrong
      by_cases here : TableFits m p
      · simp [accepted here, some_wrong fun later => wrong ⟨here, later⟩]
      · simp [refused here]

theorem datRepoInit_database (schema : NumberSchema c m) :
    ((∀ p < m.lastSensor, TableFits m p) → ∃ s, datRepoInit m = some s ∧
      Database e c m s (fun _ => none) (fun _ => [])) ∧
    (¬ (∀ p < m.lastSensor, TableFits m p) → datRepoInit m = none) := by
  have known : ∀ p ∈ List.range m.lastSensor, p < m.lastSensor := fun p => List.mem_range.mp
  obtain ⟨accepted, refused⟩ := createTables_eq schema known
  simp only [List.mem_range] at accepted refused
  unfold datRepoInit storageTablePayloadInit
  constructor
  · intro fits
    refine ⟨_, by simp only [accepted fits]; rfl, rfl, rfl, rfl, fun p known => ⟨rfl, nofun⟩, ?_⟩
    intro p known
    simp [voted, newDatabase]
  · intro wrong
    simp [refused wrong]

end SqliteSamples
