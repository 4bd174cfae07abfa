import SuchaiFlight.Library.RowTable
import SuchaiFlight.StatusVariables

/-!
The SQLite back end, `storage_sqlite.c`. A table of the database is a
`RowTable`; statements that SQLite accepts do what SQL says. The statements are
texts: one that a double quote in a command would break up has no result here.
-/
namespace SqliteStorage
open CStrings StorageApi RepoData RowTables StatusVariables

/-- A row of a payload table: the column `id` and the values of the fields. The
    column `tstz` is never read. -/
structure PayloadRow where
  id : Int32
  fields : List Int
  deriving DecidableEq

/-- The database with the static variables of the file. `fpTable` is `none`
    while `fp_table` is `NULL`, and `payloadsSchema` tells whether
    `payloads_schema` is set. -/
structure SqliteStore where
  storageIsOpen : Bool
  statusTable : Nat → Option UInt32
  fpTable : Option (RowTable FpEntry)
  payloadsSchema : Bool
  payloadsEntries : Nat
  payloadTables : Nat → RowTable PayloadRow

/-- The column `idx` is the primary key of the status table. -/
def storageStatusGetValueIdx (s : SqliteStore) (index : Nat) : Option (Except Int32 UInt32) :=
  if !s.storageIsOpen then some (.error schStError)
  else match s.statusTable index with
    | some value => some (.ok value)
    | none => some (.error schStError)

def storageStatusSetValueIdx (s : SqliteStore) (index : Nat) (value : UInt32) :
    Option (Int32 × SqliteStore) :=
  if !s.storageIsOpen then some (schStError, s)
  else some (schStOk, { s with statusTable := Function.update s.statusTable index (some value) })

/-- A text that ends the string literal of a statement. -/
def hasQuote (text : CString) : Bool := (34 : UInt8) ∈ text.chars

/-- `INSERT OR REPLACE` on the primary key `time`. `sqlite3_mprintf` prints a
    `NULL` text as an empty one. -/
def storageFlightPlanSetSt (s : SqliteStore) (row : FpEntry) : Option (Int32 × SqliteStore) :=
  match s.fpTable with
  | none => some (schStError, s)
  | some table =>
    let command := row.cmd.getD noText
    let args := row.args.getD noText
    if hasQuote command || hasQuote args then none
    else
      let row := { row with cmd := some command, args := some args }
      let table := insertOrReplace (fun e => e.unixtime = row.unixtime) row table
      some (schStOk, { s with fpTable := some table })

def storageFlightPlanSet (s : SqliteStore) (timetodo : Int32) (command args : Option CString)
    (executions period node : Int32) : Option (Int32 × SqliteStore) :=
  if timetodo < 0 || command.isNone || args.isNone then some (schStError, s)
  else
    storageFlightPlanSetSt s
      { unixtime := timetodo
        executions := executions
        periodical := period
        node := node
        cmd := command
        args := args }

def storageFlightPlanGetSt (s : SqliteStore) (timetodo : Int32) : Except Int32 FpEntry :=
  match s.fpTable with
  | none => .error schStError
  | some table =>
    match selectFirst (fun e => e.unixtime = timetodo) table with
    | some row => .ok row
    | none => .error schStError

/-- The row with number `index + 1`; there is no row 0. -/
def storageFlightPlanGetIdx (s : SqliteStore) (index : Int32) : Option (Except Int32 FpEntry) :=
  match s.fpTable with
  | none => some (.error schStError)
  | some table =>
    if index = 2147483647 then none
    else match rowAt (index.toInt + 1).toNat table with
      | some row => some (.ok row)
      | none => some (.error schStError)

def storageFlightPlanGetArgs (s : SqliteStore) (timetodo : Int32) :
    Option (Except Int32 FpArgs) :=
  match storageFlightPlanGetSt s timetodo with
  | .error rc => some (.error rc)
  | .ok fpEntry => do
    let command ← fpEntry.cmd
    let args ← fpEntry.args
    return .ok
      { command := command
        args := args
        executions := fpEntry.executions
        period := fpEntry.periodical
        node := fpEntry.node }

/-- A `DELETE` that matches no row succeeds. -/
def storageFlightPlanDeleteRow (s : SqliteStore) (timetodo : Int32) :
    Option (Int32 × SqliteStore) :=
  match s.fpTable with
  | none => some (schStError, s)
  | some table =>
    let table := deleteRows (fun r => r.2.unixtime = timetodo) table
    some (schStOk, { s with fpTable := some table })

def storageFlightPlanDeleteRowIdx (s : SqliteStore) (index : Int32) :
    Option (Int32 × SqliteStore) :=
  match s.fpTable with
  | none => some (schStError, s)
  | some table =>
    if index = 2147483647 then none
    else
      let table := deleteRows (fun r => r.1 = (index.toInt + 1).toNat) table
      some (schStOk, { s with fpTable := some table })

/-- The table is dropped and created again. -/
def storageFlightPlanReset (s : SqliteStore) : Option (Int32 × SqliteStore) :=
  match s.fpTable with
  | none => some (schStError, s)
  | some _ => some (schStOk, { s with fpTable := some empty })

def storagePayloadReset (s : SqliteStore) : Option (Int32 × SqliteStore) :=
  if s.payloadsSchema then some (schStOk, { s with payloadTables := fun _ => empty })
  else some (schStError, s)

def sqliteStorage : Storage SqliteStore where
  storageStatusGetValueIdx := storageStatusGetValueIdx
  storageStatusSetValueIdx := storageStatusSetValueIdx
  storageFlightPlanSet := storageFlightPlanSet
  storageFlightPlanGetIdx := storageFlightPlanGetIdx
  storageFlightPlanGetArgs := storageFlightPlanGetArgs
  storageFlightPlanDeleteRow := storageFlightPlanDeleteRow
  storageFlightPlanDeleteRowIdx := storageFlightPlanDeleteRowIdx
  storageFlightPlanReset := storageFlightPlanReset
  storagePayloadReset := storagePayloadReset

/-! Status variables. -/

def writeCell (s : SqliteStore) (index : Nat) (value : UInt32) : SqliteStore :=
  { s with statusTable := Function.update s.statusTable index (some value) }

def otherTables (s : SqliteStore) :=
  (s.fpTable, s.payloadsSchema, s.payloadsEntries, s.payloadTables)

theorem sqlite_status (c : Config) : StatusLaws sqliteStorage c
    (fun s => s.storageIsOpen = true) SqliteStore.statusTable otherTables writeCell where
  read := by
    intro s k ok _
    cases found : s.statusTable k <;>
      simp [readStatusCopy, sqliteStorage, storageStatusGetValueIdx, ok, found, Except.toOption]
  set := by
    intro s k value ok _
    simp [sqliteStorage, storageStatusSetValueIdx, ok, writeCell]
  good_write _ _ _ ok _ := ok
  cell_write := by
    intro s k value j _ _ _
    simp only [writeCell, Function.update_apply]
  rest_write _ _ _ := rfl

end SqliteStorage
