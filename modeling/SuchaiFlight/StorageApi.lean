import SuchaiFlight.Library.CString
import Mathlib.Data.List.Basic

/-!
The storage interface of `storage.h` and the settings of `config.h` it uses.
Every back end implements the same functions, and `repoData.c` is linked
against one of them. In all results an outer `none` is undefined behaviour of
the C code: a null dereference, an access out of bounds, or the use of a
variable that was never written.
-/
namespace StorageApi
open CStrings

def schStOk : Int32 := 0
def schStError : Int32 := -1

def schFpMaxEntries : Nat := 255
def schSectionsPerPayload : Nat := 10
def schSizePerSection : Nat := 256 * 1024
def schFlashInitMemory : Nat := 0 * schSizePerSection
def schCmdMaxStrParams : Nat := 248
def schCmdMaxStrName : Nat := 248

def stFpNull : Int32 := -1

theorem ne_stFpNull {t : Int32} (sign : 0 ≤ t) : t ≠ stFpNull := by
  rintro rfl
  exact absurd sign (by decide)

/-- A timed command. The two strings are `NULL` or owned copies. -/
structure FpEntry where
  unixtime : Int32
  executions : Int32
  periodical : Int32
  node : Int32
  cmd : Option CString
  args : Option CString
  deriving DecidableEq

def fpEntryCopy (src : FpEntry) : FpEntry :=
  { unixtime := src.unixtime
    executions := src.executions
    periodical := src.periodical
    node := src.node
    cmd := src.cmd
    args := src.args }

def fpEntryClear (schCommNode : Int32) : FpEntry :=
  { unixtime := stFpNull
    executions := 0
    periodical := 0
    node := schCommNode
    cmd := none
    args := none }

/-- The output parameters of `storage_flight_plan_get_args`. -/
structure FpArgs where
  command : CString
  args : CString
  executions : Int32
  period : Int32
  node : Int32
  deriving DecidableEq

/-- Build settings and the status schema. The schema lists one variable for
    each address, which every schema of the repository does. -/
structure Config where
  schCommNode : Int32
  schStorageTripleWr : Bool
  datStatusLastAddress : Nat
  datStatusLastVar : Nat
  datFplQueue : Nat
  datFplLast : Nat
  sysIndex : List Nat
  statusDefault : Nat → UInt32
  lastVar_eq : datStatusLastVar = datStatusLastAddress
  fplQueue_lt : datFplQueue < datStatusLastAddress
  fplLast_lt : datFplLast < datStatusLastAddress
  fplLast_ne : datFplLast ≠ datFplQueue
  sysIndex_lt : ∀ i ∈ sysIndex, i < datStatusLastAddress
  fplQueue_default : statusDefault datFplQueue = 0

/-- The default build of the `simple` application. -/
def simpleConfig : Config where
  schCommNode := 1
  schStorageTripleWr := false
  datStatusLastAddress := 17
  datStatusLastVar := 17
  datFplQueue := 14
  datFplLast := 13
  sysIndex := [15]
  statusDefault := fun i => if i = 0 ∨ i = 6 ∨ i = 9 then 0xFFFFFFFF else 0
  lastVar_eq := rfl
  fplQueue_lt := by decide
  fplLast_lt := by decide
  fplLast_ne := by decide
  sysIndex_lt := by decide
  fplQueue_default := rfl

def pingText : CString := ⟨[112, 105, 110, 103], by decide⟩

def noText : CString := ⟨[], by decide⟩

def statusCopies (c : Config) : Nat := if c.schStorageTripleWr then 3 else 1

structure Storage (σ : Type) where
  storageStatusGetValueIdx : σ → Nat → Option (Except Int32 UInt32)
  storageStatusSetValueIdx : σ → Nat → UInt32 → Option (Int32 × σ)
  storageFlightPlanSet : σ → Int32 → Option CString → Option CString → Int32 → Int32 → Int32 →
    Option (Int32 × σ)
  storageFlightPlanGetIdx : σ → Int32 → Option (Except Int32 FpEntry)
  storageFlightPlanGetArgs : σ → Int32 → Option (Except Int32 FpArgs)
  storageFlightPlanDeleteRow : σ → Int32 → Option (Int32 × σ)
  storageFlightPlanDeleteRowIdx : σ → Int32 → Option (Int32 × σ)
  storageFlightPlanReset : σ → Option (Int32 × σ)
  storagePayloadReset : σ → Option (Int32 × σ)

end StorageApi
