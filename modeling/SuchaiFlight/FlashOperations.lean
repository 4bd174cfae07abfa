import SuchaiFlight.FlashStorage
import SuchaiFlight.Library.SignedWord

/-!
What the operations of the FLASH back end do to an initialised store, as the
sequences of writes they make. The lemmas hold whether the devices fail or
not; those about the media ask for a device that does not.
-/
namespace FlashOperations
open ByteMemory NonVolatile CStrings StorageApi SlotTable FlashStorage SignedWord

/-- The first address after the section that is left for a TLB. -/
def flightplanBase : Nat := schFlashInitMemory + schSizePerSection

def sectionAddr (i : Nat) : UInt32 := UInt32.ofNat (flightplanBase + i * schSizePerSection)

structure Initialised (s : FlashStore) : Prop where
  isOpen : s.storageIsOpen = true
  addrEq : s.stFlightplanAddr = some sectionAddr
  baseEq : s.stFlightplanBaseAddr = flightplanBase
  entriesEq : s.stFlightplanEntries = schFpMaxEntries
  payload : s.stPayloadAddr.isSome

theorem datRepoInit_initialised (dev : Device) (media : Media) (log : List NvOp)
    (lastSensor : Nat) :
    ∃ s, datRepoInit dev (powerOn media log) lastSensor = some s ∧ Initialised s := by
  refine ⟨_, rfl, ?_⟩
  constructor <;> rfl

theorem Initialised.of_ram {s : FlashStore} (init : Initialised s) (media : Media) (log : List NvOp)
    (tlb : Nat → FpAddr) :
    Initialised { s with media := media, log := log, stFlightplanTlb := tlb } :=
  ⟨init.isOpen, init.addrEq, init.baseEq, init.entriesEq, init.payload⟩

def usedPages (tlb : Nat → FpAddr) : Nat := (tlb schFpMaxEntries).addr.toNat

def pageOf (n : Nat) : UInt32 := UInt32.ofNat (flightplanBase + n * fpContainerSize)

theorem pageOf_toNat {n : Nat} (bound : n < commandsPerSection) :
    (pageOf n).toNat = flightplanBase + n * fpContainerSize := by
  have small : n < 512 := bound
  rw [pageOf, UInt32.toNat_ofNat']
  simp only [flightplanBase, schFlashInitMemory, schSizePerSection, fpContainerSize,
    stCmdMaxStrParams, stCmdMaxStrName]
  omega

theorem pageOf_inj {m n : Nat} (hm : m < commandsPerSection) (hn : n < commandsPerSection)
    (same : pageOf m = pageOf n) : m = n := by
  have value := congrArg UInt32.toNat same
  rw [pageOf_toNat hm, pageOf_toNat hn] at value
  exact Nat.eq_of_mul_eq_mul_right (by decide) (Nat.add_left_cancel value)

theorem page_before {m n : Nat} (before : m < n) :
    m * fpContainerSize + fpContainerSize ≤ n * fpContainerSize := by
  have grow := Nat.mul_le_mul_right fpContainerSize (show m + 1 ≤ n from before)
  rwa [Nat.add_mul, Nat.one_mul] at grow

theorem page_in_section {n : Nat} (bound : n < commandsPerSection) :
    n * fpContainerSize + fpContainerSize ≤ schSizePerSection := by
  have whole : commandsPerSection * fpContainerSize = schSizePerSection := by decide
  have before := page_before bound
  rwa [whole] at before

def pageBytes (flash : Mem) (n : Nat) : List UInt8 :=
  read flash (flightplanBase + n * fpContainerSize) fpContainerSize

theorem pageBytes_write_same (flash : Mem) (n : Nat) {page : List UInt8}
    (size : page.length = fpContainerSize) :
    pageBytes (write flash (flightplanBase + n * fpContainerSize) page) n = page := by
  rw [pageBytes, ← size]
  exact read_write_same _ _ _

theorem pageBytes_write_other (flash : Mem) {m n : Nat} (apart : m ≠ n) {page : List UInt8}
    (size : page.length = fpContainerSize) :
    pageBytes (write flash (flightplanBase + n * fpContainerSize) page) m = pageBytes flash m := by
  apply read_write_disjoint
  rw [size]
  rcases Nat.lt_or_gt_of_ne apart with before | after
  · have apart := page_before before
    omega
  · have apart := page_before after
    omega

/-! Sequences of operations on the media. -/

section Sequence
variable (dev : Device)

/-- The operations in order, up to the first that reports an error. -/
def performOps (s : FlashStore) : List NvOp → Int32 × FlashStore
  | [] => (schStOk, s)
  | op :: rest =>
    let (rc, s) := nvOperation dev s op
    if rc = schStOk then performOps s rest else (rc, s)

structure Reliable : Prop where
  writes : ∀ n, dev.fails n = false
  reads : ∀ n add, dev.readFails n add = false

theorem nvOperation_ram (s : FlashStore) (op : NvOp) :
    ∃ media, (nvOperation dev s op).2 = { s with media := media, log := op :: s.log } := by
  simp only [nvOperation]
  split <;> exact ⟨_, rfl⟩

@[simp] theorem nvOperation_tlb (s : FlashStore) (op : NvOp) :
    (nvOperation dev s op).2.stFlightplanTlb = s.stFlightplanTlb := by
  obtain ⟨media, eq⟩ := nvOperation_ram dev s op
  rw [eq]

theorem performOps_ram (s : FlashStore) (ops : List NvOp) :
    ∃ media log, (performOps dev s ops).2 = { s with media := media, log := log } := by
  induction ops generalizing s with
  | nil => exact ⟨s.media, s.log, rfl⟩
  | cons op rest ih =>
    obtain ⟨media, eq⟩ := nvOperation_ram dev s op
    simp only [performOps]
    split
    · obtain ⟨media', log', eq'⟩ := ih (nvOperation dev s op).2
      exact ⟨media', log', by rw [eq', eq]⟩
    · exact ⟨media, op :: s.log, eq⟩

theorem performOps_init {s : FlashStore} (init : Initialised s) (ops : List NvOp) :
    ∃ rc s', performOps dev s ops = (rc, s') ∧ Initialised s' ∧
      s'.stFlightplanTlb = s.stFlightplanTlb := by
  obtain ⟨media, log, ram⟩ := performOps_ram dev s ops
  refine ⟨(performOps dev s ops).1, (performOps dev s ops).2, rfl, ?_, ?_⟩
  · rw [ram]
    exact init.of_ram media log s.stFlightplanTlb
  · rw [ram]

theorem performOps_cons (s : FlashStore) (op : NvOp) (rest : List NvOp) :
    performOps dev s (op :: rest) =
      if (nvOperation dev s op).1 = schStOk then performOps dev (nvOperation dev s op).2 rest
      else nvOperation dev s op := rfl

theorem performOps_single (s : FlashStore) (op : NvOp) :
    performOps dev s [op] = nvOperation dev s op := by
  simp only [performOps]
  split
  · rename_i ok
    exact Prod.ext ok.symm rfl
  · rfl

theorem performOps_append (s : FlashStore) (ops more : List NvOp) :
    performOps dev s (ops ++ more) =
      if (performOps dev s ops).1 = schStOk then performOps dev (performOps dev s ops).2 more
      else performOps dev s ops := by
  induction ops generalizing s with
  | nil => simp [performOps]
  | cons op rest ih =>
    simp only [List.cons_append, performOps]
    split
    · rw [ih]
    · simp

theorem performOps_ok_iff (s : FlashStore) (ops : List NvOp) :
    (performOps dev s ops).1 = schStOk ↔
      ∀ k < ops.length, dev.fails (s.log.length + k) = false := by
  induction ops generalizing s with
  | nil => simp [performOps]
  | cons op rest ih =>
    rw [performOps_cons]
    have error : schStError ≠ schStOk := by decide
    by_cases first : dev.fails s.log.length
    · simp only [nvOperation, first, ↓reduceIte, error, false_iff, not_forall]
      exact ⟨0, by simp, by simp [first]⟩
    · simp only [nvOperation, first, Bool.false_eq_true, ↓reduceIte, ih, List.length_cons]
      constructor
      · intro later k bound
        cases k with
        | zero => simpa using first
        | succ k =>
          have here := later k (by omega)
          rwa [Nat.add_assoc, Nat.add_comm 1 k] at here
      · intro all k bound
        have here := all (k + 1) (by omega)
        rwa [Nat.add_assoc, Nat.add_comm 1 k]

variable {dev}

theorem nvOperation_reliable (works : ∀ n, dev.fails n = false) (s : FlashStore) (op : NvOp) :
    nvOperation dev s op =
      (schStOk, { s with media := op.apply s.media, log := op :: s.log }) := by
  simp [nvOperation, works]

theorem performOps_reliable (works : ∀ n, dev.fails n = false) (s : FlashStore)
    (ops : List NvOp) : performOps dev s ops =
      (schStOk, { s with media := replay s.media ops, log := ops.reverse ++ s.log }) := by
  induction ops generalizing s with
  | nil => rfl
  | cons op rest ih => simp [performOps, nvOperation_reliable works, ih, replay]

end Sequence

/-! Insertion. -/

def slotOp (endian : Endian) (tlb : Nat → FpAddr) (index : Nat) : NvOp :=
  .framWrite (tlbAddrStart + index * fpAddrSize) (fpAddrBytes endian (tlb index))

def insertOps (endian : Endian) (tlb : Nat → FpAddr) (index page : Nat) (e : FpContainer) :
    List NvOp :=
  [slotOp endian tlb index, slotOp endian tlb schFpMaxEntries] ++
    [.flashWrite page (fpContainerBytes endian e)]

theorem toInt_counter {u : UInt32} (small : u.toNat ≤ commandsPerSection) :
    u.toInt32.toInt = u.toNat := by
  have bound : u.toNat ≤ 512 := small
  exact toInt_toInt32_of_lt (by omega)

theorem toInt_commandsPerSection : (Int32.ofNat commandsPerSection).toInt = 512 := by decide

theorem sectionIndex_small {u : UInt32} (small : u.toNat < commandsPerSection) :
    sectionIndex u = 0 := by
  have bound : u.toNat < 512 := small
  apply Int32.toInt_inj.mp
  rw [sectionIndex, Int32.toInt_div, toInt_counter (Nat.le_of_lt small), toInt_commandsPerSection,
    Int.tdiv_eq_zero_of_lt (by omega) (by omega)]
  decide

theorem sectionIndex_full {u : UInt32} (full : u.toNat = commandsPerSection) :
    sectionIndex u = 1 := by
  have value : u = 512 := UInt32.toNat_inj.mp full
  subst value
  decide

theorem indexInSection_small {u : UInt32} (small : u.toNat < commandsPerSection) :
    (u.toInt32 % Int32.ofNat commandsPerSection).toUInt32 = u := by
  have bound : u.toNat < 512 := small
  have same : u.toInt32 % Int32.ofNat commandsPerSection = u.toInt32 := by
    apply Int32.toInt_inj.mp
    rw [Int32.toInt_mod, toInt_counter (Nat.le_of_lt small), toInt_commandsPerSection,
      Int.tmod_eq_of_lt (by omega) (by omega)]
  rw [same]
  simp

variable {dev : Device} {s : FlashStore}

theorem Initialised.found_inside (init : Initialised s) {t : Int32} {index : Nat}
    (found : storageFlightplanFindIndexTlb s t = some index) : ¬ s.stFlightplanEntries ≤ index := by
  rw [init.entriesEq]
  exact Nat.not_le.mpr (first_eq_some_iff.mp found).1

theorem pageAddr_small (init : Initialised s)
    (room : usedPages s.stFlightplanTlb < commandsPerSection) :
    pageAddr s = some (pageOf (usedPages s.stFlightplanTlb)) := by
  have address : sectionAddr 0 + (s.stFlightplanTlb schFpMaxEntries).addr *
      UInt32.ofNat fpContainerSize = pageOf (usedPages s.stFlightplanTlb) := by
    simp [sectionAddr, pageOf, usedPages]
  simp only [pageAddr, init.addrEq, sectionIndex_small room, indexInSection_small room]
  simpa [show (0 : Int32) < Int32.ofNat stFlightplanSections by decide] using address

theorem pageAddr_full (init : Initialised s)
    (full : usedPages s.stFlightplanTlb = commandsPerSection) : pageAddr s = none := by
  have out : ¬ (1 : Int32) < Int32.ofNat stFlightplanSections := by decide
  simp [pageAddr, init.addrEq, sectionIndex_full full, out]

theorem fpContainerBytes_length (endian : Endian) (row : FpEntry) (cmd args : CString) :
    (fpContainerBytes endian (newEntry row cmd args)).length = fpContainerSize := by
  simp [fpContainerBytes, newEntry, fpContainerSize, stCmdMaxStrParams, stCmdMaxStrName]

theorem storageWriteFlash_page (addr : UInt32) {page : List UInt8}
    (size : page.length = fpContainerSize) :
    storageWriteFlash dev s addr page = nvOperation dev s (.flashWrite addr.toNat page) := by
  have whole : page.take (page.length % UInt16.size) = page := by
    apply List.take_of_length_le
    rw [size]
    decide
  rw [storageWriteFlash, whole]

theorem storageFlightplanUpdateTlb_eq (index : Nat) (unixtime : Int32) (addr : UInt32) :
    storageFlightplanUpdateTlb dev s index unixtime addr =
      performOps dev { s with stFlightplanTlb := tlbWith s.stFlightplanTlb index ⟨addr, unixtime⟩ }
        [slotOp dev.endian (tlbWith s.stFlightplanTlb index ⟨addr, unixtime⟩) index,
          slotOp dev.endian (tlbWith s.stFlightplanTlb index ⟨addr, unixtime⟩)
            schFpMaxEntries] := by
  simp only [storageFlightplanUpdateTlb, storageFlightplanDumpTlb, storageWriteFram,
    nvOperation_tlb]
  rw [performOps_cons, performOps_single]
  rfl

def insertTlb (tlb : Nat → FpAddr) (index : Nat) (unixtime : Int32) : Nat → FpAddr :=
  tlbWith tlb index ⟨pageOf (usedPages tlb), unixtime⟩

theorem insertEntry_eq (init : Initialised s) {row : FpEntry} {cmd args : CString}
    (hc : row.cmd = some cmd) (ha : row.args = some args) {index : Nat}
    (free : storageFlightplanFindIndexTlb s stFpNull = some index)
    (room : usedPages s.stFlightplanTlb < commandsPerSection) :
    insertEntry dev s row = some (performOps dev
      { s with stFlightplanTlb := insertTlb s.stFlightplanTlb index row.unixtime }
      (insertOps dev.endian (insertTlb s.stFlightplanTlb index row.unixtime) index
        (flightplanBase + usedPages s.stFlightplanTlb * fpContainerSize)
        (newEntry row cmd args))) := by
  have inside := init.found_inside free
  simp only [insertEntry, free, inside, ↓reduceIte, pageAddr_small init room, hc, ha,
    Option.bind_eq_bind, Option.bind_some, storageFlightplanUpdateTlb_eq,
    storageWriteFlash_page _ (fpContainerBytes_length dev.endian row cmd args),
    pageOf_toNat room]
  rw [insertOps, performOps_append, performOps_single]
  simp only [insertTlb]
  split
  · rename_i ok
    simp [ok]
  · rename_i failed
    simp [failed]

theorem insertEntry_ram (dev : Device) (init : Initialised s) (row : FpEntry) {cmd args : CString}
    (hc : row.cmd = some cmd) (ha : row.args = some args) {index : Nat}
    (free : storageFlightplanFindIndexTlb s stFpNull = some index)
    (room : usedPages s.stFlightplanTlb < commandsPerSection) :
    ∃ rc s', insertEntry dev s row = some (rc, s') ∧ Initialised s' ∧
      s'.stFlightplanTlb = insertTlb s.stFlightplanTlb index row.unixtime ∧
      (rc = schStOk ↔ ∀ k < 3, dev.fails (s.log.length + k) = false) := by
  obtain ⟨rc, s', run, init', tlb⟩ := performOps_init dev
    (init.of_ram s.media s.log (insertTlb s.stFlightplanTlb index row.unixtime))
    (insertOps dev.endian (insertTlb s.stFlightplanTlb index row.unixtime) index
      (flightplanBase + usedPages s.stFlightplanTlb * fpContainerSize) (newEntry row cmd args))
  have ok := performOps_ok_iff dev
    { s with stFlightplanTlb := insertTlb s.stFlightplanTlb index row.unixtime }
    (insertOps dev.endian (insertTlb s.stFlightplanTlb index row.unixtime) index
      (flightplanBase + usedPages s.stFlightplanTlb * fpContainerSize) (newEntry row cmd args))
  rw [run] at ok
  exact ⟨rc, s', by rw [insertEntry_eq init hc ha free room, run], init', tlb, ok⟩

theorem tlbWith_other {tlb : Nat → FpAddr} {index j : Nat} {slot : FpAddr} (ne : j ≠ index)
    (inside : j ≠ schFpMaxEntries) : tlbWith tlb index slot j = tlb j := by
  rw [tlbWith, Function.update_of_ne inside, Function.update_of_ne ne]

theorem tlbWith_same {tlb : Nat → FpAddr} {index : Nat} {slot : FpAddr}
    (inside : index < schFpMaxEntries) : tlbWith tlb index slot index = slot := by
  rw [tlbWith, Function.update_of_ne (by omega), Function.update_self]

theorem usedPages_tlbWith {tlb : Nat → FpAddr} {index : Nat} {slot : FpAddr}
    (inside : index < schFpMaxEntries) (room : usedPages tlb < commandsPerSection) :
    usedPages (tlbWith tlb index slot) = usedPages tlb + 1 := by
  have small : usedPages tlb < 512 := room
  have apart : schFpMaxEntries ≠ index := by omega
  simp only [usedPages, tlbWith, Function.update_self, Function.update_of_ne apart,
    UInt32.toNat_add] at small ⊢
  simp
  omega

theorem usedPages_update {tlb : Nat → FpAddr} {index : Nat} (inside : index < schFpMaxEntries)
    (slot : FpAddr) : usedPages (Function.update tlb index slot) = usedPages tlb := by
  rw [usedPages, Function.update_of_ne (by omega), usedPages]

theorem usedPages_cleared : usedPages clearedTlb = 0 := by
  simp [usedPages, clearedTlb]

theorem clearedTlb_free {i : Nat} (inside : i < schFpMaxEntries) :
    (clearedTlb i).unixtime = stFpNull := by
  rw [clearedTlb, Function.update_of_ne (by omega)]

def liveSlot (tlb : Nat → FpAddr) (i : Nat) : Option FpAddr :=
  if (tlb i).unixtime = stFpNull then none else some (tlb i)

def liveCount (tlb : Nat → FpAddr) : Nat := (contents schFpMaxEntries (liveSlot tlb)).card

theorem liveCount_tlbWith {tlb : Nat → FpAddr} {index : Nat} {slot : FpAddr}
    (inside : index < schFpMaxEntries) (free : (tlb index).unixtime = stFpNull)
    (real : slot.unixtime ≠ stFpNull) : liveCount (tlbWith tlb index slot) = liveCount tlb + 1 := by
  have shape : ∀ i < schFpMaxEntries, liveSlot (tlbWith tlb index slot) i =
      Function.update (liveSlot tlb) index (some slot) i := by
    intro i bound
    by_cases eq : i = index
    · subst eq
      simp [liveSlot, tlbWith_same inside, real]
    · rw [Function.update_of_ne eq, liveSlot, liveSlot, tlbWith_other eq (by omega)]
  rw [liveCount, contents_congr shape, contents_fill inside (by simp [liveSlot, free]),
    Multiset.card_cons, liveCount]

theorem insertEntry_no_slot (row : FpEntry)
    (taken : storageFlightplanFindIndexTlb s stFpNull = none) :
    insertEntry dev s row = some (schStError, s) := by
  simp [insertEntry, taken]

/-- With every page used and a slot free, the section index is out of range. -/
theorem insertEntry_no_page (init : Initialised s) (row : FpEntry) {index : Nat}
    (free : storageFlightplanFindIndexTlb s stFpNull = some index)
    (full : usedPages s.stFlightplanTlb = commandsPerSection) : insertEntry dev s row = none := by
  have inside := init.found_inside free
  simp [insertEntry, free, inside, pageAddr_full init full]

theorem storageFlightPlanSetSt_eq (init : Initialised s)
    (few : usedPages s.stFlightplanTlb ≤ commandsPerSection) (row : FpEntry) :
    storageFlightPlanSetSt dev s (some row) = insertEntry dev s row := by
  have enough : ¬ UInt32.ofNat commandsPerSection < (s.stFlightplanTlb schFpMaxEntries).addr := by
    rw [UInt32.lt_iff_toNat_lt]
    have size : (UInt32.ofNat commandsPerSection).toNat = commandsPerSection := by decide
    rw [size]
    exact Nat.not_lt.mpr few
  simp [storageFlightPlanSetSt, init.isOpen, enough]

theorem storageFlightPlanSet_eq (init : Initialised s)
    (few : usedPages s.stFlightplanTlb ≤ commandsPerSection) {t : Int32} (sign : 0 ≤ t)
    (cmd args : CString) (executions period node : Int32) :
    storageFlightPlanSet dev s t (some cmd) (some args) executions period node =
      insertEntry dev s ⟨t, executions, period, node, some cmd, some args⟩ := by
  have nonneg : ¬ t < 0 := Int32.not_lt.mpr sign
  rw [← storageFlightPlanSetSt_eq init few]
  simp [storageFlightPlanSet, nonneg, init.isOpen]

/-! Deletion and reset. -/

def freeSlot : FpAddr := ⟨stFpNull.toUInt32, stFpNull⟩

/-- The store after a deletion at slot `index`, with the result code. -/
def eraseSlot (dev : Device) (s : FlashStore) (index : Nat) : Int32 × FlashStore :=
  performOps dev { s with stFlightplanTlb := Function.update s.stFlightplanTlb index freeSlot }
    [slotOp dev.endian (Function.update s.stFlightplanTlb index freeSlot) index]

theorem eraseSlot_ram (dev : Device) (init : Initialised s) (i : Nat) :
    ∃ rc s', eraseSlot dev s i = (rc, s') ∧ Initialised s' ∧
      s'.stFlightplanTlb = Function.update s.stFlightplanTlb i freeSlot := by
  obtain ⟨rc, s', run, init', tlb⟩ := performOps_init dev
    (init.of_ram s.media s.log (Function.update s.stFlightplanTlb i freeSlot))
    [slotOp dev.endian (Function.update s.stFlightplanTlb i freeSlot) i]
  exact ⟨rc, s', run, init', tlb⟩

theorem deleteRowIdx_inside (init : Initialised s) {index : Int32} (sign : 0 ≤ index)
    (bound : index.toNatClampNeg < schFpMaxEntries) :
    storageFlightPlanDeleteRowIdx dev s index = some (eraseSlot dev s index.toNatClampNeg) := by
  have nonneg : ¬ index < 0 := Int32.not_lt.mpr sign
  have inside : ¬ s.stFlightplanEntries ≤ index.toNatClampNeg := by rw [init.entriesEq]; omega
  simp only [storageFlightPlanDeleteRowIdx, flightPlanEraseIndexTlb, nonneg, inside, decide_false,
    Bool.and_false, Bool.or_false, Bool.false_eq_true, ↓reduceIte, eraseSlot, performOps_single]
  rfl

theorem deleteRowIdx_outside (init : Initialised s) {index : Int32}
    (out : index < 0 ∨ schFpMaxEntries ≤ index.toNatClampNeg) :
    storageFlightPlanDeleteRowIdx dev s index = some (schStError, s) := by
  rw [storageFlightPlanDeleteRowIdx, flightPlanEraseIndexTlb, init.entriesEq]
  rcases out with negative | above
  · have sign : ¬ 0 ≤ index := Int32.not_le.mpr negative
    simp [negative, sign, schStError]
  · by_cases sign : 0 ≤ index
    · simp [above, sign]
    · simp [above, sign, schStError]

theorem index_cast {i : Nat} (inside : i < schFpMaxEntries) :
    (0 : Int32) ≤ Int32.ofNat i ∧ (Int32.ofNat i).toNatClampNeg = i := by
  have bound : i < 255 := inside
  have value : (Int32.ofNat i).toInt = i := Int32.toInt_ofNat_of_lt (by omega)
  constructor
  · rw [Int32.le_iff_toInt_le, value]
    simp
  · rw [← Int32.toNat_toInt, value]
    simp

theorem deleteRow_found (init : Initialised s) {t : Int32} {index : Nat}
    (found : storageFlightplanFindIndexTlb s t = some index) :
    storageFlightPlanDeleteRow dev s t = some (eraseSlot dev s index) := by
  have bound : index < schFpMaxEntries := (first_eq_some_iff.mp found).1
  obtain ⟨sign, inside⟩ := index_cast bound
  have call : storageFlightPlanDeleteRowIdx dev s (Int32.ofNat index) =
      some (eraseSlot dev s (Int32.ofNat index).toNatClampNeg) :=
    deleteRowIdx_inside init sign (by rw [inside]; exact bound)
  rw [inside] at call
  simp [storageFlightPlanDeleteRow, found, call]

theorem deleteRow_missing {t : Int32} (missing : storageFlightplanFindIndexTlb s t = none) :
    storageFlightPlanDeleteRow dev s t = some (schStError, s) := by
  simp [storageFlightPlanDeleteRow, missing]

/-! Lookup. -/

theorem storageReadFlash_reliable (works : Reliable dev) (addr : UInt32) {len n : Nat}
    (cut : len % UInt16.size = n) :
    storageReadFlash dev s addr len = (schStOk, read s.media.flash addr.toNat n) := by
  simp only [storageReadFlash, works.reads, Bool.false_eq_true, ↓reduceIte, cut]

theorem getIdx_live (works : Reliable dev) (init : Initialised s) {i : Nat}
    (inside : i < schFpMaxEntries) (live : (s.stFlightplanTlb i).unixtime ≠ stFpNull) :
    storageFlightPlanGetIdx dev s (Int32.ofNat i) =
      (fpEntryAt dev.endian (read s.media.flash (s.stFlightplanTlb i).addr.toNat
        fpContainerSize)).map .ok := by
  obtain ⟨sign, value⟩ := index_cast inside
  have below : ¬ s.stFlightplanEntries ≤ i := by rw [init.entriesEq]; omega
  have page : storageReadFlash dev s (s.stFlightplanTlb i).addr fpContainerSize =
      (schStOk, read s.media.flash (s.stFlightplanTlb i).addr.toNat fpContainerSize) :=
    storageReadFlash_reliable works _ (by decide)
  simp [storageFlightPlanGetIdx, sign, value, below, live, page]

def resetOps (endian : Endian) : List NvOp :=
  [.flashErase flightplanBase schSizePerSection,
    .framWrite tlbAddrStart (tlbBytes endian clearedTlb)]

theorem eraseSections_flightplan :
    eraseSections dev sectionAddr s (List.range stFlightplanSections) =
      nvOperation dev s (.flashErase flightplanBase schSizePerSection) := by
  have one : List.range stFlightplanSections = [0] := by decide
  have start : (sectionAddr 0).toNat / schSizePerSection * schSizePerSection = flightplanBase := by
    decide
  simp [one, eraseSections, storageEraseFlash, start, schStOk]

theorem storageFlightPlanReset_eq (init : Initialised s) :
    storageFlightPlanReset dev s =
      let erased := nvOperation dev s (.flashErase flightplanBase schSizePerSection)
      let dumped := nvOperation dev { erased.2 with stFlightplanTlb := clearedTlb }
        (.framWrite tlbAddrStart (tlbBytes dev.endian clearedTlb))
      some (if erased.1 + dumped.1 = schStOk then schStOk else schStError, dumped.2) := by
  have payload : s.stPayloadAddr.isNone = false := by
    simpa [Option.isNone_eq_false_iff] using init.payload
  simp [storageFlightPlanReset, init.isOpen, payload, init.addrEq, eraseSections_flightplan,
    storageFlightplanDumpTlb, storageWriteFram]

theorem storageFlightPlanReset_ram (dev : Device) (init : Initialised s) :
    ∃ rc s', storageFlightPlanReset dev s = some (rc, s') ∧ Initialised s' ∧
      s'.stFlightplanTlb = clearedTlb := by
  obtain ⟨media, erased⟩ := nvOperation_ram dev s (.flashErase flightplanBase schSizePerSection)
  obtain ⟨media', dumped⟩ := nvOperation_ram dev
    { s with media := media, log := .flashErase flightplanBase schSizePerSection :: s.log
             stFlightplanTlb := clearedTlb }
    (.framWrite tlbAddrStart (tlbBytes dev.endian clearedTlb))
  rw [storageFlightPlanReset_eq init]
  simp only [erased, dumped]
  exact ⟨_, _, rfl, init.of_ram media' _ clearedTlb, rfl⟩

theorem storageFlightPlanReset_reliable (works : ∀ n, dev.fails n = false) (init : Initialised s) :
    storageFlightPlanReset dev s =
      some (schStOk, { s with media := replay s.media (resetOps dev.endian)
                              log := (resetOps dev.endian).reverse ++ s.log
                              stFlightplanTlb := clearedTlb }) := by
  rw [storageFlightPlanReset_eq init]
  simp [nvOperation_reliable works, resetOps, replay, schStOk]

end FlashOperations
