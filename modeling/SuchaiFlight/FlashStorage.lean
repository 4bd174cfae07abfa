import SuchaiFlight.Library.NonVolatile
import SuchaiFlight.Library.SlotTable
import SuchaiFlight.RepoData

/-!
The FLASH back end, `storage_flash.c`. The flight plan entries stand in pages
of a flash section; a table in RAM (the TLB) gives the page of every entry and
has a back-up in FRAM. The drivers of the two devices are not part of the
repository: `Device` says which of their operations report an error, and what
these leave behind. An operation that succeeds acts as in the debug build.
-/
namespace FlashStorage
open ByteMemory NonVolatile CStrings StorageApi RepoData SlotTable

def stCmdMaxStrParams : Nat := 248
def stCmdMaxStrName : Nat := 248
def stFramSize : Nat := 32 * 1024

/-- The type of `fp_container_t`. Its size is a page of 512 bytes. -/
structure FpContainer where
  unixtime : Int32
  executions : Int32
  periodical : Int32
  node : Int32
  cmd : List UInt8
  args : List UInt8

def fpContainerSize : Nat := 16 + stCmdMaxStrParams + stCmdMaxStrName

structure FpAddr where
  addr : UInt32
  unixtime : Int32
  deriving DecidableEq

def fpAddrSize : Nat := 8

def stFlightplanSections : Nat := schFpMaxEntries * fpContainerSize / schSizePerSection + 1
def commandsPerSection : Nat := schSizePerSection / fpContainerSize

/-- How the devices and the allocator behave. Operations on the media are
    numbered from 0; `readFails` and `heap` are given the number of operations
    made before, and `heap` is the block that `flight_plan_rebuild_tlb` gets. -/
structure Device where
  endian : Endian
  fails : Nat → Bool
  junk : Nat → Nat → UInt8
  readFails : Nat → Nat → Bool
  readJunk : Nat → Nat → UInt8
  heap : Nat → Option Mem

/-- The static variables of the file, with the media and their log. The TLB
    has `SCH_FP_MAX_ENTRIES + 1` slots; the last one counts the used pages. -/
structure FlashStore where
  media : Media
  log : List NvOp
  storageIsOpen : Bool
  stFlightplanAddr : Option (Nat → UInt32)
  stFlightplanBaseAddr : Nat
  stFlightplanEntries : Nat
  stFlightplanTlb : Nat → FpAddr
  stPayloadAddr : Option (Nat → UInt32)
  stPayloadsEntries : Nat
  stPayloadBaseAddr : Nat

section Devices
variable (dev : Device)

def nvOperation (s : FlashStore) (op : NvOp) : Int32 × FlashStore :=
  let n := s.log.length
  if dev.fails n then
    (schStError, { s with media := op.spoil s.media (dev.junk n), log := op :: s.log })
  else (schStOk, { s with media := op.apply s.media, log := op :: s.log })

/-- The length is a `uint16_t`. -/
def storageReadFlash (s : FlashStore) (addr : UInt32) (len : Nat) : Int32 × List UInt8 :=
  let n := s.log.length
  if dev.readFails n addr.toNat then
    (schStError, (List.range (len % UInt16.size)).map (dev.readJunk n))
  else (schStOk, read s.media.flash addr.toNat (len % UInt16.size))

def storageWriteFlash (s : FlashStore) (addr : UInt32) (data : List UInt8) : Int32 × FlashStore :=
  nvOperation dev s (.flashWrite addr.toNat (data.take (data.length % UInt16.size)))

def storageEraseFlash (s : FlashStore) (addr : UInt32) : Int32 × FlashStore :=
  let sectionStart := addr.toNat / schSizePerSection * schSizePerSection
  nvOperation dev s (.flashErase sectionStart schSizePerSection)

def storageWriteFram (s : FlashStore) (add : Nat) (value : List UInt8) : Int32 × FlashStore :=
  nvOperation dev s (.framWrite add value)

def storageReadFram (s : FlashStore) (add len : Nat) : Int32 × List UInt8 :=
  let n := s.log.length
  if dev.readFails n add then (schStError, (List.range len).map (dev.readJunk n))
  else (schStOk, read s.media.fram add len)

end Devices

section Layout
variable (endian : Endian)

def fpAddrBytes (slot : FpAddr) : List UInt8 :=
  wordBytes endian slot.addr ++ wordBytes endian slot.unixtime.toUInt32

def fpAddrAt (bs : List UInt8) : FpAddr :=
  { addr := bytesWord endian (bs.take 4)
    unixtime := (bytesWord endian ((bs.drop 4).take 4)).toInt32 }

def tlbBytes (tlb : Nat → FpAddr) : List UInt8 :=
  (List.range (schFpMaxEntries + 1)).flatMap fun i => fpAddrBytes endian (tlb i)

def fpContainerBytes (e : FpContainer) : List UInt8 :=
  wordBytes endian e.unixtime.toUInt32 ++ wordBytes endian e.executions.toUInt32 ++
    wordBytes endian e.periodical.toUInt32 ++ wordBytes endian e.node.toUInt32 ++ e.cmd ++ e.args

def wordAt (bs : List UInt8) (offset : Nat) : Int32 :=
  (bytesWord endian ((bs.drop offset).take 4)).toInt32

/-- The entry that is copied out of a page. `strdup` runs over the end of a
    text array that has no terminator, but not over the end of the page. -/
def fpEntryAt (page : List UInt8) : Option FpEntry := do
  let cmd ← stringAt (page.drop 16)
  let args ← stringAt (page.drop (16 + stCmdMaxStrParams))
  return { unixtime := wordAt endian page 0
           executions := wordAt endian page 4
           periodical := wordAt endian page 8
           node := wordAt endian page 12
           cmd := some cmd
           args := some args }

end Layout

section Table
variable (dev : Device)

def tlbAddrStart : Nat := stFramSize - (schFpMaxEntries + 1) * fpAddrSize

def storageFlightplanLoadTlb (s : FlashStore) : Int32 × FlashStore :=
  let (rc, bs) := storageReadFram dev s tlbAddrStart ((schFpMaxEntries + 1) * fpAddrSize)
  let slot := fun i => fpAddrAt dev.endian ((bs.drop (i * fpAddrSize)).take fpAddrSize)
  (rc, { s with stFlightplanTlb := slot })

/-- Save one slot, or all of them for the index -1, which is `none` here. -/
def storageFlightplanDumpTlb (s : FlashStore) : Option Nat → Int32 × FlashStore
  | none => storageWriteFram dev s tlbAddrStart (tlbBytes dev.endian s.stFlightplanTlb)
  | some index => storageWriteFram dev s (tlbAddrStart + index * fpAddrSize)
      (fpAddrBytes dev.endian (s.stFlightplanTlb index))

def tlbWith (tlb : Nat → FpAddr) (index : Nat) (slot : FpAddr) : Nat → FpAddr :=
  let tlb := Function.update tlb index slot
  Function.update tlb schFpMaxEntries
    { tlb schFpMaxEntries with addr := 1 + (tlb schFpMaxEntries).addr }

def storageFlightplanUpdateTlb (s : FlashStore) (index : Nat) (unixtime : Int32) (addr : UInt32) :
    Int32 × FlashStore :=
  let s := { s with stFlightplanTlb := tlbWith s.stFlightplanTlb index ⟨addr, unixtime⟩ }
  let (rc, s) := storageFlightplanDumpTlb dev s (some index)
  if rc = schStOk then storageFlightplanDumpTlb dev s (some schFpMaxEntries) else (rc, s)

def sectionIndex (usedPages : UInt32) : Int32 := usedPages.toInt32 / Int32.ofNat commandsPerSection

/-- The address of the next free page. The used-page counter is cast to `int`;
    `st_flightplan_addr` has one cell for each section. -/
def pageAddr (s : FlashStore) : Option UInt32 := do
  let indexFlash := (s.stFlightplanTlb schFpMaxEntries).addr
  let indexInSection := indexFlash.toInt32 % Int32.ofNat commandsPerSection
  let stFlightplanAddr ← s.stFlightplanAddr
  if 0 ≤ sectionIndex indexFlash ∧ sectionIndex indexFlash < Int32.ofNat stFlightplanSections then
    return stFlightplanAddr (sectionIndex indexFlash).toNatClampNeg +
      indexInSection.toUInt32 * UInt32.ofNat fpContainerSize
  else none

def rewriteEntries (fpEntries : Mem) (base : UInt32) (s : FlashStore) :
    List Nat → Option (Int32 × FlashStore)
  | [] => some (0, s)
  | indexTlb :: rest =>
    let slot := s.stFlightplanTlb indexTlb
    if slot.unixtime ≠ stFpNull then do
      let oldIndexFlash := (slot.addr - base).toNat / fpContainerSize
      if oldIndexFlash < commandsPerSection then
        let fpEntry := read fpEntries (oldIndexFlash * fpContainerSize) fpContainerSize
        let newAddr ← pageAddr s
        let (rc, s) := storageFlightplanUpdateTlb dev s indexTlb slot.unixtime newAddr
        let (rc₂, s) := storageWriteFlash dev s newAddr fpEntry
        let (rcs, s) ← rewriteEntries fpEntries base s rest
        return (rc + rc₂ + rcs, s)
      else none
    else rewriteEntries fpEntries base s rest

def flightPlanRebuildTlb (s : FlashStore) : Option (Int32 × FlashStore) :=
  match dev.heap s.log.length with
  | none => some (schStError, s)
  | some heap => do
    let stFlightplanAddr ← s.stFlightplanAddr
    let base := stFlightplanAddr 0
    let (rc, bs) := storageReadFlash dev s base (commandsPerSection * fpContainerSize)
    let fpEntries := write heap 0 bs
    let (rc₂, s) := storageEraseFlash dev s base
    let s := { s with stFlightplanTlb := Function.update s.stFlightplanTlb schFpMaxEntries ⟨0, 0⟩ }
    let (rc₃, s) ← rewriteEntries dev fpEntries base s (List.range schFpMaxEntries)
    let (rc₄, s) := storageFlightplanDumpTlb dev s none
    return (rc + rc₂ + rc₃ + rc₄, s)

def storageFlightplanFindIndexTlb (s : FlashStore) (unixtime : Int32) : Option Nat :=
  first schFpMaxEntries fun i => (s.stFlightplanTlb i).unixtime = unixtime

def flightPlanEraseIndexTlb (s : FlashStore) (index : Int32) : Int32 × FlashStore :=
  if index < 0 || s.stFlightplanEntries ≤ index.toNatClampNeg then (-1, s)
  else
    let i := index.toNatClampNeg
    let slot : FpAddr := ⟨stFpNull.toUInt32, stFpNull⟩
    let s := { s with stFlightplanTlb := Function.update s.stFlightplanTlb i slot }
    storageFlightplanDumpTlb dev s (some i)

def eraseSections (stFlightplanAddr : Nat → UInt32) (s : FlashStore) :
    List Nat → Int32 × FlashStore
  | [] => (schStOk, s)
  | i :: rest =>
    let (res, s) := storageEraseFlash dev s (stFlightplanAddr i)
    let (rc, s) := eraseSections stFlightplanAddr s rest
    (res + rc, s)

def clearedTlb : Nat → FpAddr :=
  Function.update (fun _ => ⟨stFpNull.toUInt32, stFpNull⟩) schFpMaxEntries ⟨0, 0⟩

end Table

section Calls
variable (dev : Device)

def storageFlightPlanReset (s : FlashStore) : Option (Int32 × FlashStore) :=
  if !s.storageIsOpen || s.stPayloadAddr.isNone then some (schStError, s)
  else do
    let stFlightplanAddr ← s.stFlightplanAddr
    let (rc, s) := eraseSections dev stFlightplanAddr s (List.range stFlightplanSections)
    let s := { s with stFlightplanTlb := clearedTlb }
    let (rc₂, s) := storageFlightplanDumpTlb dev s none
    return (if rc + rc₂ = schStOk then schStOk else schStError, s)

def storageInit (s : FlashStore) : Int32 × FlashStore :=
  let base := schFlashInitMemory + schSizePerSection
  (schStOk,
    { s with stFlightplanBaseAddr := base
             stPayloadBaseAddr := base + schSizePerSection * stFlightplanSections
             storageIsOpen := true })

def storageClose (s : FlashStore) : Int32 × FlashStore :=
  (schStOk,
    { s with storageIsOpen := false
             stFlightplanAddr := none
             stFlightplanBaseAddr := 0
             stFlightplanEntries := 0
             stPayloadAddr := none
             stPayloadsEntries := 0
             stPayloadBaseAddr := 0 })

/-- A table that is dropped is reset after its section addresses are freed. -/
def storageTableFlightPlanInit (s : FlashStore) (nEntries : Nat) (drop : Bool) :
    Option (Int32 × FlashStore) :=
  if !s.storageIsOpen then some (schStError, s)
  else if s.stFlightplanAddr.isSome && !drop then some (schStError, s)
  else if s.stFlightplanAddr.isSome && s.stPayloadAddr.isSome then none
  else
    let base := s.stFlightplanBaseAddr
    some (storageFlightplanLoadTlb dev
      { s with stFlightplanEntries := nEntries
               stFlightplanAddr := some fun i => UInt32.ofNat (base + i * schSizePerSection) })

def storageTablePayloadInit (s : FlashStore) (nEntries : Nat) (drop : Bool) :
    Int32 × FlashStore :=
  if !s.storageIsOpen then (schStError, s)
  else if s.stPayloadAddr.isSome && !drop then (schStError, s)
  else
    let base := s.stPayloadBaseAddr
    (schStOk,
      { s with stPayloadsEntries := nEntries
               stPayloadAddr := some fun i => UInt32.ofNat (base + i * schSizePerSection) })

/-- The address is a `uint16_t`. -/
def storageStatusGetValueIdx (s : FlashStore) (index : Nat) : Option (Except Int32 UInt32) :=
  let (rc, bs) := storageReadFram dev s (index * 4 % UInt16.size) 4
  if rc = schStOk then some (.ok (bytesWord dev.endian bs)) else some (.error rc)

def storageStatusSetValueIdx (s : FlashStore) (index : Nat) (value : UInt32) :
    Option (Int32 × FlashStore) :=
  some (storageWriteFram dev s (index * 4 % UInt16.size) (wordBytes dev.endian value))

def newEntry (row : FpEntry) (cmd args : CString) : FpContainer :=
  { unixtime := row.unixtime
    executions := row.executions
    periodical := row.periodical
    node := row.node
    cmd := charArray stCmdMaxStrParams cmd
    args := charArray stCmdMaxStrName args }

def insertEntry (s : FlashStore) (row : FpEntry) : Option (Int32 × FlashStore) :=
  match storageFlightplanFindIndexTlb s stFpNull with
  | none => some (schStError, s)
  | some indexTlb =>
    if s.stFlightplanEntries ≤ indexTlb then some (schStError, s)
    else do
      let addr ← pageAddr s
      let cmd ← row.cmd
      let args ← row.args
      let (rc, s) := storageFlightplanUpdateTlb dev s indexTlb row.unixtime addr
      if rc = schStOk then
        return storageWriteFlash dev s addr (fpContainerBytes dev.endian (newEntry row cmd args))
      else return (rc, s)

def storageFlightPlanSetSt (s : FlashStore) (row : Option FpEntry) :
    Option (Int32 × FlashStore) :=
  match row with
  | none => some (schStError, s)
  | some row =>
    if !s.storageIsOpen then some (schStError, s)
    else if UInt32.ofNat commandsPerSection < (s.stFlightplanTlb schFpMaxEntries).addr then do
      let (_, s) ← flightPlanRebuildTlb dev s
      insertEntry dev s row
    else insertEntry dev s row

def storageFlightPlanSet (s : FlashStore) (timetodo : Int32) (command args : Option CString)
    (executions period node : Int32) : Option (Int32 × FlashStore) :=
  if timetodo < 0 || command.isNone || args.isNone || !s.storageIsOpen then some (schStError, s)
  else
    storageFlightPlanSetSt dev s (some
      { unixtime := timetodo
        executions := executions
        periodical := period
        node := node
        cmd := command
        args := args })

def storageFlightPlanGetIdx (s : FlashStore) (index : Int32) : Option (Except Int32 FpEntry) :=
  if 0 ≤ index then
    let i := index.toNatClampNeg
    if s.stFlightplanEntries ≤ i then some (.error schStError)
    else if (s.stFlightplanTlb i).unixtime = stFpNull then some (.error schStError)
    else
      let (rc, page) := storageReadFlash dev s (s.stFlightplanTlb i).addr fpContainerSize
      if rc = schStOk then (fpEntryAt dev.endian page).map .ok else some (.error rc)
  else none

def storageFlightPlanGetSt (s : FlashStore) (timetodo : Int32) : Option (Except Int32 FpEntry) :=
  match storageFlightplanFindIndexTlb s timetodo with
  | none => some (.error schStError)
  | some index => storageFlightPlanGetIdx dev s (Int32.ofNat index)

def copyText (n : Nat) (text : Option CString) : Option CString := do
  let text ← text
  stringAt (charArray n text)

def storageFlightPlanGetArgs (s : FlashStore) (timetodo : Int32) :
    Option (Except Int32 FpArgs) := do
  match ← storageFlightPlanGetSt dev s timetodo with
  | .error _ => return .error schStError
  | .ok fpEntry =>
    let command ← copyText stCmdMaxStrName fpEntry.cmd
    let args ← copyText stCmdMaxStrParams fpEntry.args
    return .ok
      { command := command
        args := args
        executions := fpEntry.executions
        period := fpEntry.periodical
        node := fpEntry.node }

def storageFlightPlanDeleteRowIdx (s : FlashStore) (index : Int32) : Option (Int32 × FlashStore) :=
  if 0 ≤ index && s.stFlightplanEntries ≤ index.toNatClampNeg then some (schStError, s)
  else some (flightPlanEraseIndexTlb dev s index)

def storageFlightPlanDeleteRow (s : FlashStore) (timetodo : Int32) : Option (Int32 × FlashStore) :=
  match storageFlightplanFindIndexTlb s timetodo with
  | none => some (schStError, s)
  | some index => storageFlightPlanDeleteRowIdx dev s (Int32.ofNat index)

def storagePayloadReset (s : FlashStore) : Option (Int32 × FlashStore) :=
  if !s.storageIsOpen || s.stPayloadsEntries = 0 then some (schStError, s)
  else match s.stPayloadAddr with
    | none => some (schStError, s)
    | some stPayloadAddr =>
      let sections := List.range (s.stPayloadsEntries * schSectionsPerPayload)
      let (_, s) := eraseSections dev stPayloadAddr s sections
      some (schStOk, s)

def flashStorage : Storage FlashStore where
  storageStatusGetValueIdx := storageStatusGetValueIdx dev
  storageStatusSetValueIdx := storageStatusSetValueIdx dev
  storageFlightPlanSet := storageFlightPlanSet dev
  storageFlightPlanGetIdx := storageFlightPlanGetIdx dev
  storageFlightPlanGetArgs := storageFlightPlanGetArgs dev
  storageFlightPlanDeleteRow := storageFlightPlanDeleteRow dev
  storageFlightPlanDeleteRowIdx := storageFlightPlanDeleteRowIdx dev
  storageFlightPlanReset := storageFlightPlanReset dev
  storagePayloadReset := storagePayloadReset dev

def powerOn (media : Media) (log : List NvOp) : FlashStore where
  media := media
  log := log
  storageIsOpen := false
  stFlightplanAddr := none
  stFlightplanBaseAddr := 0
  stFlightplanEntries := 0
  stFlightplanTlb := fun _ => ⟨0, 0⟩
  stPayloadAddr := none
  stPayloadsEntries := 0
  stPayloadBaseAddr := 0

def datRepoInit (s : FlashStore) (lastSensor : Nat) : Option FlashStore := do
  let (_, s) := storageInit s
  let (_, s) := storageTablePayloadInit s lastSensor false
  let (_, s) ← storageTableFlightPlanInit dev s schFpMaxEntries false
  return s

end Calls

end FlashStorage
