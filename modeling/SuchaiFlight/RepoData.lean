import SuchaiFlight.StorageApi

/-!
The data repository of `repoData.c` over an arbitrary storage back end. The
semaphore of the repository has no effect on a single task, so it does not
appear here; each call between taking and giving it is one function call.
-/
namespace RepoData
open CStrings StorageApi

section
variable {σ : Type} (S : Storage σ) (c : Config)

/-- One copy of a status variable. The return code is not examined by the
    callers, so a failed read leaves their variable indeterminate. -/
def readStatusCopy (s : σ) (index : Nat) : Option UInt32 := do
  let value ← S.storageStatusGetValueIdx s index
  value.toOption

def datGetStatusVar (s : σ) (index : Nat) : Option UInt32 := do
  let value₁ ← readStatusCopy S s index
  if c.schStorageTripleWr then
    let value₂ ← readStatusCopy S s (index + c.datStatusLastVar)
    let value₃ ← readStatusCopy S s (index + c.datStatusLastVar * 2)
    if value₁ = value₂ ∨ value₁ = value₃ then return value₁
    else if value₂ = value₃ then return value₂
    else return value₁
  else return value₁

def datSetStatusVar (s : σ) (index : Nat) (value : UInt32) : Option (Int32 × σ) := do
  let (rc, s) ← S.storageStatusSetValueIdx s index value
  if c.schStorageTripleWr then
    let (rc₂, s) ← S.storageStatusSetValueIdx s (index + c.datStatusLastAddress) value
    let (rc₃, s) ← S.storageStatusSetValueIdx s (index + c.datStatusLastAddress * 2) value
    return (rc ||| rc₂ ||| rc₃, s)
  else return (rc, s)

def datGetSystemVar (s : σ) (index : Nat) : Option Int32 := do
  let var ← datGetStatusVar S c s index
  return var.toInt32

def datSetSystemVar (s : σ) (index : Nat) (value : Int32) : Option (Int32 × σ) :=
  datSetStatusVar S c s index value.toUInt32

def resetStatusVars (s : σ) : List Nat → Option (Int32 × σ)
  | [] => some (schStOk, s)
  | index :: rest => do
    let (rc, s) ← datSetStatusVar S c s index (c.statusDefault index)
    let (rcs, s) ← resetStatusVars s rest
    return (rc + rcs, s)

def datResetStatusVars (s : σ) : Option (Int32 × σ) := do
  let (rc, s) ← resetStatusVars S c s (List.range c.datStatusLastAddress)
  return (if rc = schStOk then schStOk else schStError, s)

def datSetFp (s : σ) (timetodo : Int32) (command args : Option CString)
    (executions periodical : Int32) : Option (Int32 × σ) := do
  let entries ← datGetSystemVar S c s c.datFplQueue
  let (rc, s) ← S.storageFlightPlanSet s timetodo command args executions periodical c.schCommNode
  if rc = schStOk then
    let (_, s) ← datSetSystemVar S c s c.datFplQueue (entries + 1)
    return (rc, s)
  else return (rc, s)

def fetchAndDelete (s : σ) (elapsedSec : Int32) : Option (Except Int32 FpArgs × σ) := do
  match ← S.storageFlightPlanGetArgs s elapsedSec with
  | .error rc => return (.error rc, s)
  | .ok out =>
    let (rc, s) ← S.storageFlightPlanDeleteRow s elapsedSec
    if rc = schStOk then return (.ok out, s) else return (.error rc, s)

def datGetFp (s : σ) (elapsedSec : Int32) : Option (Except Int32 FpArgs × σ) := do
  let entries ← datGetSystemVar S c s c.datFplQueue
  let (res, s) ← fetchAndDelete S s elapsedSec
  match res with
  | .error rc => return (.error rc, s)
  | .ok out =>
    let (_, s) ← datSetSystemVar S c s c.datFplQueue (entries - 1)
    return (.ok out, s)

def datDelFp (s : σ) (timetodo : Int32) : Option (Int32 × σ) := do
  let entries ← datGetSystemVar S c s c.datFplQueue
  let (rc, s) ← S.storageFlightPlanDeleteRow s timetodo
  if rc = schStOk then
    let (_, s) ← datSetSystemVar S c s c.datFplQueue (entries - 1)
    return (rc, s)
  else return (rc, s)

def datResetFp (s : σ) : Option (Int32 × σ) := do
  let (rc, s) ← S.storageFlightPlanReset s
  if rc = schStOk then
    let (_, s) ← datSetSystemVar S c s c.datFplQueue 0
    return (rc, s)
  else return (rc, s)

def clearSysIndexes (s : σ) : List Nat → Option σ
  | [] => some s
  | index :: rest => do
    let (_, s) ← datSetSystemVar S c s index 0
    clearSysIndexes s rest

def datDeleteMemorySections (s : σ) : Option (Int32 × σ) := do
  let (_, s) ← S.storagePayloadReset s
  let (ret, s) ← S.storageFlightPlanReset s
  let s ← clearSysIndexes S c s c.sysIndex
  let (_, s) ← datSetSystemVar S c s c.datFplQueue 0
  return (ret, s)

/-- The loop of `dat_purge_fp`. `unixtime` is the field of `fp_i`, which a read
    that fails leaves as it was. -/
def purgeEntries (timeMin : Int32) : List Nat → Int32 → Int32 → σ → Option (Int32 × σ)
  | [], _, fpEntries, s => some (fpEntries, s)
  | i :: rest, unixtime, fpEntries, s => do
    match ← S.storageFlightPlanGetIdx s (Int32.ofNat i) with
    | .ok fp =>
      if timeMin < fp.unixtime then purgeEntries timeMin rest fp.unixtime (fpEntries + 1) s
      else if fp.unixtime ≠ stFpNull then
        let (_, s) ← S.storageFlightPlanDeleteRowIdx s (Int32.ofNat i)
        purgeEntries timeMin rest fp.unixtime fpEntries s
      else purgeEntries timeMin rest fp.unixtime fpEntries s
    | .error _ =>
      if unixtime ≠ stFpNull then
        let (_, s) ← S.storageFlightPlanDeleteRowIdx s (Int32.ofNat i)
        purgeEntries timeMin rest unixtime fpEntries s
      else purgeEntries timeMin rest unixtime fpEntries s

/-- `unixtime` is the time in `fp_i` before anything is written to it. -/
def datPurgeFp (s : σ) (now : Int) (unixtime : Int32) : Option (Int32 × σ) := do
  if Int32.ofInt now = 2147483647 then none
  else
    let timeMin := Int32.ofInt now + 1
    let (fpEntries, s) ← purgeEntries S timeMin (List.range schFpMaxEntries) unixtime 0 s
    let (_, s) ← datSetSystemVar S c s c.datFplQueue fpEntries
    return (schStOk, s)

def showEntries (s : σ) : List Nat → Option (List FpEntry)
  | [] => some []
  | i :: rest => do
    match ← S.storageFlightPlanGetIdx s (Int32.ofNat i) with
    | .ok fp =>
      let shown ← showEntries s rest
      return if fp.unixtime ≠ stFpNull then fp :: shown else shown
    | .error _ => showEntries s rest

/-- The entries that `dat_show_fp` prints. `tm_send_fp` makes the same scan. -/
def datShowFp (s : σ) : Option (List FpEntry) := showEntries S s (List.range schFpMaxEntries)

end

end RepoData
