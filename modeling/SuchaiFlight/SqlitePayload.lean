import SuchaiFlight.Library.ByteOrder
import SuchaiFlight.Library.Scan
import SuchaiFlight.PayloadCalls
import SuchaiFlight.SqliteStorage

/-!
The payload samples of the SQLite back end. The fields of a sample are printed
into an `INSERT` statement, and read back from the columns of one row. A column
holds a number: `%f` and `%s` have no result here.
-/
namespace SqlitePayload
open ByteMemory ByteOrder CStrings TextScan StorageApi RowTables SqliteStorage PayloadCalls

def stSqlMaxLen : Nat := 1000
def schBuffMaxLen : Nat := 256

/-- `data_map` with the texts of its entries. The name of a table stands in an
    array of 30 characters. -/
structure SqliteMap extends PayloadMap where
  table : Nat → CString
  dataOrder : Nat → CString
  varNames : Nat → CString
  table_lt : ∀ p, strlen (table p) < 30

def tokens (text : CString) : List CString := segments 32 text

def conversion (cType : CString) : UInt8 := cType.chars.getD 1 0

def getSqlType (cType : CString) : String :=
  if cType.chars = [37, 102] then "REAL"
  else if cType.chars = [37, 100] then "INTEGER"
  else if cType.chars = [37, 117] then "BIGINT"
  else if cType.chars = [37, 104] then "INTEGER"
  else "TEXT"

def getSizeofType (cType : CString) : Option Nat :=
  let c := conversion cType
  if c = 117 ∨ c = 105 ∨ c = 100 then some 4
  else if c = 104 then some 2
  else none

/-- `sprintf` behind the `used` characters of a buffer of `ST_SQL_MAX_LEN`. -/
def sprintf (used : Nat) (text : CString) : Option CString :=
  if used + strlen text < stSqlMaxLen then some text else none

def column (text : CString) : CString := blank ++ text ++ ⟨[44], by decide⟩

section
variable (endian : Endian)

/-- The case `u` runs on into the cases `i` and `d`, which print over its text. -/
def getValueString (used : Nat) (cType : CString) (data : List UInt8) : Option CString :=
  let c := conversion cType
  let word := bytesWord endian data
  if c = 117 then do
    let _ ← sprintf used (column (digitsText word.toNat))
    sprintf used (column (decimalText word.toInt32.toInt))
  else if c = 105 ∨ c = 100 then sprintf used (column (decimalText word.toInt32.toInt))
  else if c = 104 then
    sprintf used (column (decimalText (bytesHalf endian data).toInt16.toInt))
  else none

def sqlNumber (text : CString) : Option Int := (scanInt (beyond isSpace text)).map Prod.fst

/-- The loop over the tokens of `data_order` and `var_names`. It gives the
    lengths of the two texts at its end, and the numbers in the second one. -/
def insertColumns : List CString → List CString → Nat → Nat → List UInt8 →
    Option (Nat × Nat × List Int)
  | tokType :: types, tokVar :: names, namesLen, valuesLen, data => do
    let name ← sprintf namesLen (column tokVar)
    let valueSize ← getSizeofType tokType
    if valueSize ≤ data.length then
      let value ← getValueString endian valuesLen tokType (data.take valueSize)
      let number ← sqlNumber value
      let (namesLen, valuesLen, numbers) ← insertColumns types names (namesLen + strlen name)
        (valuesLen + strlen value) (data.drop valueSize)
      return (namesLen, valuesLen, number :: numbers)
    else none
  | _, _, namesLen, valuesLen, _ => some (namesLen, valuesLen, [])

def idText (index : Int32) : CString := decimalText index.toInt

/-- The last comma of the two texts is replaced. A statement that is cut off
    has no closing bracket, which SQLite refuses. -/
def storagePayloadSetData (m : SqliteMap) (s : SqliteStore) (payload : Nat) (index : Int32)
    (data : List UInt8) (_size : Nat) : Option (Int32 × SqliteStore) := do
  let (namesLen, valuesLen, fields) ← insertColumns endian (tokens (m.dataOrder payload))
    (tokens (m.varNames payload)) "(id, tstz,".length
    ("(".length + strlen (idText index) + ", current_timestamp,".length) data
  let insertRow := "INSERT INTO ".length + strlen (m.table payload) + " ".length + namesLen +
    " VALUES ".length + valuesLen
  if insertRow < 2 * stSqlMaxLen ∧ s.payloadsSchema then
    let table := insert { id := index, fields := fields } (s.payloadTables payload)
    return (schStOk, { s with payloadTables := Function.update s.payloadTables payload table })
  else return (schStError, s)

/-- `sqlite3_column_int` gives the low 32 bits. -/
def getSqliteValue (cType : CString) (value : Int) : List UInt8 :=
  let val := Int32.ofInt value
  if conversion cType = 104 then halfBytes endian val.toInt16.toUInt16
  else wordBytes endian val.toUInt32

/-- The loop over the tokens of `data_order`. A column that is not there reads as 0. -/
def readColumns : List CString → List Int → Option (List UInt8)
  | [], _ => some []
  | tokType :: types, values => do
    let _ ← getSizeofType tokType
    let rest ← readColumns types values.tail
    return getSqliteValue endian tokType (values.headD 0) ++ rest

/-- Two blanks in a row become two commas, which SQLite refuses. -/
def storagePayloadGetData (m : SqliteMap) (s : SqliteStore) (payload : Nat) (index : Int32)
    (_size : Nat) : Option (Except Int32 (List UInt8)) :=
  let names := m.varNames payload
  let getValueSql := "SELECT ".length + strlen names + " FROM ".length +
    strlen (m.table payload) + " WHERE id=".length + strlen (idText index) + " LIMIT 1".length
  if 2 * stSqlMaxLen ≤ getValueSql then none
  else if (names.chars.splitOn 32).any List.isEmpty || !s.payloadsSchema then
    some (.error schStError)
  else match selectFirst (fun row => row.id = index) (s.payloadTables payload) with
    | none => some (.error schStError)
    | some row => (readColumns endian (tokens (m.dataOrder payload)) row.fields).map .ok

/-- `payloads_schema` has no element for a negative `payload`. -/
def storagePayloadResetTable (s : SqliteStore) (payload : Int) : Option (Int32 × SqliteStore) :=
  if !s.payloadsSchema || !s.storageIsOpen || decide ((s.payloadsEntries : Int) ≤ payload) then
    some (schStError, s)
  else if payload < 0 then none
  else
    let table := deleteRows (fun _ => true) (s.payloadTables payload.toNat)
    some (schStOk,
      { s with payloadTables := Function.update s.payloadTables payload.toNat table })

def sqlitePayloadTables (m : SqliteMap) : PayloadTables SqliteStore where
  toStorage := sqliteStorage
  storagePayloadSetData := storagePayloadSetData endian m
  storagePayloadGetData := storagePayloadGetData endian m
  storagePayloadResetTable := storagePayloadResetTable

end

/-! The tables of a new database. -/

/-- The lines of `create_table`, each in a buffer of 100 characters. -/
def createColumns : List CString → List CString → Nat → Option Nat
  | _, [], used => some used
  | [], _ :: _, _ => none
  | tokSym :: types, tokVar :: names, used =>
    let line := strlen tokVar + " ".length + (getSqlType tokSym).length
    if line < 100 then
      createColumns types names (used + line + if names = [] then 0 else ",".length)
    else none

/-- Whether SQLite takes the statement. Without a column a comma is left over. -/
def createTable (m : SqliteMap) (i : Nat) : Option Bool := do
  let order := m.dataOrder i
  let varNames := m.varNames i
  let tokSym := tokens order
  let tokVar := tokens varNames
  if strlen order < 300 ∧ strlen varNames < schBuffMaxLen * 4 ∧ tokSym.length < 300 ∧
      tokVar.length < 300 then
    let used ← createColumns tokSym tokVar ("CREATE TABLE IF NOT EXISTS ".length +
      strlen (m.table i) + "(id INTEGER, tstz TIMESTAMPTZ,".length)
    if used + ")".length < schBuffMaxLen * 4 then return tokVar ≠ [] else none
  else none

def createTables (m : SqliteMap) : List Nat → Option Bool
  | [] => some true
  | i :: rest => do if ← createTable m i then createTables m rest else return false

def storageTablePayloadInit (m : SqliteMap) (s : SqliteStore) (nEntries : Nat) :
    Option (Int32 × SqliteStore) := do
  if ← createTables m (List.range nEntries) then
    return (schStOk, { s with payloadsSchema := true, payloadsEntries := nEntries })
  else return (schStError, s)

/-- A database without any row, before the file is opened. -/
def newDatabase : SqliteStore where
  storageIsOpen := false
  statusTable := fun _ => none
  fpTable := none
  payloadsSchema := false
  payloadsEntries := 0
  payloadTables := fun _ => empty

/-- `dat_repo_init`. It does not write the status variables. -/
def datRepoInit (m : SqliteMap) : Option SqliteStore := do
  let s := { newDatabase with storageIsOpen := true }
  let (_, s) ← storageTablePayloadInit m s m.lastSensor
  return { s with fpTable := some empty }

end SqlitePayload
