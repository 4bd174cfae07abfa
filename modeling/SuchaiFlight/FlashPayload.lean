import SuchaiFlight.FlashOperations
import SuchaiFlight.PayloadCalls

/-!
The payload samples of the FLASH back end, in `storage_flash.c`: a sample never
crosses a page of 512 bytes, and each payload has `SCH_SECTIONS_PER_PAYLOAD`
sections. The address of a sample counts the sections twice.
-/
namespace FlashPayload
open ByteMemory NonVolatile StorageApi PayloadData PayloadCalls FlashStorage FlashOperations

def stPageSize : Nat := 512

def checkAddressAlignment (addr : UInt32) (size : Nat) : Int32 :=
  if addr.toNat / stPageSize < (addr + UInt32.ofNat size).toNat / stPageSize then schStError
  else schStOk

/-- Indices divide as in C. The table of section addresses has
    `SCH_SECTIONS_PER_PAYLOAD` elements for each payload. -/
def getSampleAddress (s : FlashStore) (payload : Nat) (index : Int32) (size : Nat) :
    Option (Except Int32 UInt32) :=
  if size = 0 then none
  else
    let samplesPerPage := stPageSize / size
    if samplesPerPage = 0 then some (.error schStError)
    else
      let samplePage := index.toInt.tdiv samplesPerPage
      let indexInPage := index.toInt.tmod samplesPerPage
      let pagesInSection := schSizePerSection / stPageSize
      let samplesPerSection := samplesPerPage * pagesInSection
      let sampleSection := index.toInt.tdiv samplesPerSection
      let sectionIndex := payload * schSectionsPerPayload + sampleSection
      if schSectionsPerPayload < sampleSection then some (.error schStError)
      else if (s.stPayloadsEntries * schSectionsPerPayload : Nat) < sectionIndex then
        some (.error schStError)
      else do
        let stPayloadAddr ← s.stPayloadAddr
        if sectionIndex < 0 ∨ (schSectionsPerPayload * s.stPayloadsEntries : Nat) ≤ sectionIndex then
          none
        else
          let address := UInt32.ofInt ((stPayloadAddr sectionIndex.toNat).toNat +
            samplePage * stPageSize + indexInPage * size)
          let last := schFlashInitMemory + s.stFlightplanBaseAddr +
            s.stPayloadsEntries * schSectionsPerPayload * schSizePerSection
          if last < address.toNat then return .error schStError else return .ok address

section
variable (dev : Device)

def writeDataWithCheck (s : FlashStore) (addr : UInt32) (data : List UInt8) (size : Nat) :
    Int32 × FlashStore :=
  if checkAddressAlignment addr size = schStError then (schStError, s)
  else
    let (retWrite, s) := storageWriteFlash dev s addr (data.take size)
    if retWrite ≠ 0 then (schStError, s) else (schStOk, s)

def readDataWithCheck (s : FlashStore) (addr : UInt32) (size : Nat) : Int32 × List UInt8 :=
  if checkAddressAlignment addr size = schStError then (schStError, [])
  else
    let (readRet, data) := storageReadFlash dev s addr size
    if readRet ≠ 0 then (schStError, data) else (schStOk, data)

def storagePayloadSetData (s : FlashStore) (payload : Nat) (index : Int32) (data : List UInt8)
    (size : Nat) : Option (Int32 × FlashStore) :=
  if !s.storageIsOpen || s.stPayloadAddr.isNone then some (schStError, s)
  else do
    match ← getSampleAddress s payload index size with
    | .error _ => return (schStError, s)
    | .ok addr =>
      if size ≤ data.length then
        let (rc, s) := writeDataWithCheck dev s addr data size
        return (if rc ≠ schStError then schStOk else schStError, s)
      else none

def storagePayloadGetData (s : FlashStore) (payload : Nat) (index : Int32) (size : Nat) :
    Option (Except Int32 (List UInt8)) :=
  if !s.storageIsOpen || s.stPayloadAddr.isNone then some (.error schStError)
  else do
    match ← getSampleAddress s payload index size with
    | .error _ => return .error schStError
    | .ok addr =>
      let (rc, data) := readDataWithCheck dev s addr size
      return if rc ≠ schStError then .ok data else .error schStError

/-- The results of the erase operations are not returned. -/
def storagePayloadResetTable (s : FlashStore) (payload : Int) : Option (Int32 × FlashStore) :=
  if !s.storageIsOpen || decide ((s.stPayloadsEntries : Int) ≤ payload) then some (schStError, s)
  else match s.stPayloadAddr with
    | none => some (schStError, s)
    | some stPayloadAddr =>
      if payload < 0 then none
      else
        let sections := List.range' (payload.toNat * schSectionsPerPayload) schSectionsPerPayload
        let (_, s) := eraseSections dev stPayloadAddr s sections
        some (schStOk, s)

def flashPayloadTables : PayloadTables FlashStore where
  toStorage := flashStorage dev
  storagePayloadSetData := storagePayloadSetData dev
  storagePayloadGetData := storagePayloadGetData dev
  storagePayloadResetTable := storagePayloadResetTable dev

end

/-! The payload sections after `dat_repo_init`. -/

def payloadBase : Nat := flightplanBase + schSizePerSection * stFlightplanSections

def payloadSection (i : Nat) : UInt32 := UInt32.ofNat (payloadBase + i * schSizePerSection)

/-- The sections of `n` payloads. Their addresses are sums of `int`s. -/
structure Sectioned (n : Nat) (s : FlashStore) : Prop where
  isOpen : s.storageIsOpen = true
  baseEq : s.stFlightplanBaseAddr = flightplanBase
  addrEq : s.stPayloadAddr = some payloadSection
  entries : s.stPayloadsEntries = n
  small : payloadBase + n * schSectionsPerPayload * schSizePerSection ≤ 2147483648

theorem datRepoInit_sectioned (dev : Device) (media : Media) (log : List NvOp) {n : Nat}
    (small : payloadBase + n * schSectionsPerPayload * schSizePerSection ≤ 2147483648) :
    ∃ s, datRepoInit dev (powerOn media log) n = some s ∧ Sectioned n s := by
  refine ⟨_, rfl, ?_⟩
  constructor
  all_goals first | rfl | exact small

end FlashPayload
