import SuchaiFlight.Library.ByteMemory
import SuchaiFlight.Library.SlotTable
import SuchaiFlight.RepoData

/-!
The RAM back end, `storage_ram.c`. A buffer pointer is `none` when it is
`NULL`. Loops over the table are scans that stop at the first slot whose test
holds.
-/
namespace RamStorage
open CStrings StorageApi RepoData SlotTable

structure RamStore where
  storageIsOpen : Bool
  statusDb : Option (Nat → UInt32)
  statusEntries : Nat
  flightplanDb : Option (Nat → FpEntry)
  flightplanEntries : Nat
  payloadDb : Option ByteMemory.Mem
  payloadsEntries : Nat

def unopened : RamStore :=
  { storageIsOpen := false
    statusDb := none
    statusEntries := 0
    flightplanDb := none
    flightplanEntries := 0
    payloadDb := none
    payloadsEntries := 0 }

def storageInit (s : RamStore) : Int32 × RamStore := (schStOk, { s with storageIsOpen := true })

def storageClose (_ : RamStore) : Int32 × RamStore := (schStOk, unopened)

/-- `heap` tells whether the allocation succeeds. -/
def storageTableStatusInit (heap : Bool) (s : RamStore) (nVariables : Nat) (drop : Bool) :
    Int32 × RamStore :=
  if !s.storageIsOpen then (schStError, s)
  else if s.statusDb.isSome && !drop then (schStError, s)
  else if heap then
    (schStOk, { s with statusDb := some fun _ => 0, statusEntries := nVariables })
  else (schStError, { s with statusDb := none, statusEntries := nVariables })

def storageTableFlightPlanInit (c : Config) (heap : Bool) (s : RamStore) (nEntries : Nat)
    (drop : Bool) : Int32 × RamStore :=
  if !s.storageIsOpen then (schStError, s)
  else if s.flightplanDb.isSome && !drop then (schStError, s)
  else if heap then
    (schStOk, { s with flightplanDb := some fun _ => fpEntryClear c.schCommNode,
                       flightplanEntries := nEntries })
  else (schStError, { s with flightplanDb := none, flightplanEntries := nEntries })

def storageTablePayloadInit (heap : Bool) (s : RamStore) (nEntries : Nat) (drop : Bool) :
    Int32 × RamStore :=
  if !s.storageIsOpen then (schStError, s)
  else if s.payloadDb.isSome && !drop then (schStError, s)
  else if heap then (schStOk, { s with payloadDb := some fun _ => 0, payloadsEntries := nEntries })
  else (schStError, { s with payloadDb := none, payloadsEntries := nEntries })

/-- The bound check lets `index = status_entries` through, one past the end. -/
def storageStatusGetValueIdx (s : RamStore) (index : Nat) : Option (Except Int32 UInt32) :=
  if !s.storageIsOpen then some (.error schStError)
  else match s.statusDb with
    | none => some (.error schStError)
    | some db =>
      if s.statusEntries < index then some (.error schStError)
      else if index < s.statusEntries then some (.ok (db index))
      else none

def storageStatusSetValueIdx (s : RamStore) (index : Nat) (value : UInt32) :
    Option (Int32 × RamStore) :=
  if !s.storageIsOpen then some (schStError, s)
  else match s.statusDb with
    | none => some (schStError, s)
    | some db =>
      if index < s.statusEntries then
        some (schStOk, { s with statusDb := some (Function.update db index value) })
      else none

def storageFlightPlanSetSt (s : RamStore) (row : Option FpEntry) : Int32 × RamStore :=
  if !s.storageIsOpen then (schStError, s)
  else match s.flightplanDb, row with
    | some db, some row =>
      match first s.flightplanEntries fun i => (db i).unixtime = stFpNull with
      | some i =>
        (schStOk, { s with flightplanDb := some (Function.update db i (fpEntryCopy row)) })
      | none => (schStError, s)
    | _, _ => (schStError, s)

def storageFlightPlanSet (s : RamStore) (timetodo : Int32) (command args : Option CString)
    (executions period node : Int32) : Option (Int32 × RamStore) :=
  if timetodo < 0 || command.isNone || args.isNone then some (schStError, s)
  else
    some (storageFlightPlanSetSt s (some
      { unixtime := timetodo
        executions := executions
        periodical := period
        node := node
        cmd := command
        args := args }))

def storageFlightPlanGet (s : RamStore) (timetodo : Int32) : Except Int32 FpEntry :=
  if !s.storageIsOpen then .error schStError
  else match s.flightplanDb with
    | none => .error schStError
    | some db =>
      match first s.flightplanEntries fun i => timetodo = (db i).unixtime with
      | some i => .ok (fpEntryCopy (db i))
      | none => .error schStError

/-- `index` is compared as an unsigned `size_t`, which rejects negative values. -/
def storageFlightPlanGetIdx (s : RamStore) (index : Int32) : Option (Except Int32 FpEntry) :=
  if !s.storageIsOpen then some (.error schStError)
  else match s.flightplanDb with
    | none => some (.error schStError)
    | some db =>
      if index < 0 || s.flightplanEntries ≤ index.toInt.toNat then some (.error schStError)
      else some (.ok (fpEntryCopy (db index.toInt.toNat)))

/-- `strcpy` from the copied entry; a `NULL` command or argument text is
    dereferenced. -/
def storageFlightPlanGetArgs (s : RamStore) (timetodo : Int32) : Option (Except Int32 FpArgs) :=
  match storageFlightPlanGet s timetodo with
  | .error rc => some (.error rc)
  | .ok fpEntry => do
    let command ← fpEntry.cmd
    let args ← fpEntry.args
    return .ok
      { command := command
        args := args
        executions := fpEntry.executions
        period := fpEntry.periodical
        node := fpEntry.node }

def storageFlightPlanDeleteRow (c : Config) (s : RamStore) (timetodo : Int32) :
    Option (Int32 × RamStore) :=
  if !s.storageIsOpen then some (schStError, s)
  else match s.flightplanDb with
    | none => some (schStError, s)
    | some db =>
      match first s.flightplanEntries fun i => timetodo = (db i).unixtime with
      | some i =>
        let db := Function.update db i (fpEntryClear c.schCommNode)
        some (schStOk, { s with flightplanDb := some db })
      | none => some (schStError, s)

def storageFlightPlanDeleteRowIdx (c : Config) (s : RamStore) (index : Int32) :
    Option (Int32 × RamStore) :=
  if !s.storageIsOpen then some (schStError, s)
  else match s.flightplanDb with
    | none => some (schStError, s)
    | some db =>
      if index < 0 || s.flightplanEntries ≤ index.toInt.toNat then some (schStError, s)
      else
        let db := Function.update db index.toInt.toNat (fpEntryClear c.schCommNode)
        some (schStOk, { s with flightplanDb := some db })

/-- The `return` stands inside the loop body, so the loop ends after slot 0. -/
def storageFlightPlanReset (c : Config) (s : RamStore) : Option (Int32 × RamStore) :=
  if !s.storageIsOpen then some (schStError, s)
  else match s.flightplanDb with
    | none => some (schStError, s)
    | some db =>
      if 0 < s.flightplanEntries then
        let db := Function.update db 0 (fpEntryClear c.schCommNode)
        some (schStOk, { s with flightplanDb := some db })
      else some (schStError, s)

def storagePayloadReset (heap : Bool) (s : RamStore) : Option (Int32 × RamStore) :=
  some (storageTablePayloadInit heap s s.payloadsEntries true)

def ramStorage (c : Config) : Storage RamStore where
  storageStatusGetValueIdx := storageStatusGetValueIdx
  storageStatusSetValueIdx := storageStatusSetValueIdx
  storageFlightPlanSet := storageFlightPlanSet
  storageFlightPlanGetIdx := storageFlightPlanGetIdx
  storageFlightPlanGetArgs := storageFlightPlanGetArgs
  storageFlightPlanDeleteRow := storageFlightPlanDeleteRow c
  storageFlightPlanDeleteRowIdx := storageFlightPlanDeleteRowIdx c
  storageFlightPlanReset := storageFlightPlanReset c
  storagePayloadReset := storagePayloadReset true

/-- `dat_repo_init` with this back end; every allocation succeeds. -/
def datRepoInit (c : Config) (lastSensor : Nat) : Option RamStore := do
  let (_, s) := storageInit unopened
  let (_, s) := storageTableStatusInit true s (statusCopies c * c.datStatusLastVar) false
  let (_, s) ← datResetStatusVars (ramStorage c) c s
  let (_, s) := storageTablePayloadInit true s lastSensor false
  let (_, s) := storageTableFlightPlanInit c true s schFpMaxEntries false
  return s

end RamStorage
