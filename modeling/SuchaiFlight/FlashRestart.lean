import SuchaiFlight.FlashTable

/-!
The back-up of the TLB in FRAM. It shares the device with the status
variables, which start at address 0; the TLB stands at the end. Every call
writes back the slots it has changed, so a restart finds the same table.
-/
namespace FlashRestart
open ByteMemory NonVolatile CStrings StorageApi RepoData SlotTable FlashStorage FlashOperations
open FlashSections FlashTable

/-! The image of the TLB. -/

theorem fpAddrBytes_length (endian : Endian) (slot : FpAddr) :
    (fpAddrBytes endian slot).length = fpAddrSize := by
  simp [fpAddrBytes, fpAddrSize]

@[simp] theorem fpAddrAt_fpAddrBytes (endian : Endian) (slot : FpAddr) :
    fpAddrAt endian (fpAddrBytes endian slot) = slot := by
  have first : (wordBytes endian slot.addr ++ wordBytes endian slot.unixtime.toUInt32).take 4 =
      wordBytes endian slot.addr := List.take_left' (wordBytes_length endian slot.addr)
  have second : (wordBytes endian slot.addr ++ wordBytes endian slot.unixtime.toUInt32).drop 4 =
      wordBytes endian slot.unixtime.toUInt32 := List.drop_left' (wordBytes_length endian slot.addr)
  have whole := List.take_of_length_le
    (Nat.le_of_eq (wordBytes_length endian slot.unixtime.toUInt32))
  simp only [fpAddrAt, fpAddrBytes, first, second, whole, bytesWord_wordBytes]
  simp

theorem fpAddrBytes_fpAddrAt (endian : Endian) {bs : List UInt8} (size : bs.length = fpAddrSize) :
    fpAddrBytes endian (fpAddrAt endian bs) = bs := by
  have eight : bs.length = 8 := size
  have first := wordBytes_bytesWord endian (show (bs.take 4).length = 4 by simp; omega)
  have second := wordBytes_bytesWord endian (show ((bs.drop 4).take 4).length = 4 by simp; omega)
  have rest : (bs.drop 4).take 4 = bs.drop 4 := List.take_of_length_le (by simp; omega)
  simp only [fpAddrBytes, fpAddrAt, UInt32.toUInt32_toInt32, first, second]
  rw [rest, List.take_append_drop]

def slotImage (fram : Mem) (i : Nat) : List UInt8 :=
  read fram (tlbAddrStart + i * fpAddrSize) fpAddrSize

def Mirrored (endian : Endian) (s : FlashStore) : Prop :=
  ∀ i ≤ schFpMaxEntries, slotImage s.media.fram i = fpAddrBytes endian (s.stFlightplanTlb i)

theorem slotImage_slotOp (endian : Endian) (tlb : Nat → FpAddr) (m : Media) (index i : Nat) :
    slotImage ((slotOp endian tlb index).apply m).fram i =
      if i = index then fpAddrBytes endian (tlb index) else slotImage m.fram i := by
  have size := fpAddrBytes_length endian (tlb index)
  simp only [slotImage, slotOp, NvOp.apply]
  split
  · rename_i eq
    subst eq
    have same := read_write_same m.fram (tlbAddrStart + i * fpAddrSize)
      (fpAddrBytes endian (tlb i))
    rwa [size] at same
  · rename_i ne
    apply read_write_disjoint
    rw [size, fpAddrSize]
    omega

theorem slotImage_dump (endian : Endian) (tlb : Nat → FpAddr) (fram : Mem) {i : Nat}
    (inside : i ≤ schFpMaxEntries) :
    slotImage (write fram tlbAddrStart (tlbBytes endian tlb)) i = fpAddrBytes endian (tlb i) := by
  have bound : i < schFpMaxEntries + 1 := by omega
  have size : (tlbBytes endian tlb).length = (schFpMaxEntries + 1) * fpAddrSize := by
    simp [tlbBytes, List.length_flatMap, fpAddrBytes_length]
  have last : (i + 1) * fpAddrSize ≤ (schFpMaxEntries + 1) * fpAddrSize :=
    Nat.mul_le_mul_right _ bound
  rw [Nat.add_mul, Nat.one_mul] at last
  rw [slotImage, read_write_inside _ _ _ _ _ (by omega), tlbBytes]
  exact take_drop_flatMap (fun i => fpAddrBytes_length endian (tlb i)) bound

variable {dev : Device} {s s' s'' : FlashStore} {rc : Int32}

structure Kept (s s' : FlashStore) : Prop where
  init : Initialised s'
  below : ∀ x < tlbAddrStart, s'.media.fram x = s.media.fram x

theorem Kept.trans (first : Kept s s') (second : Kept s' s'') : Kept s s'' :=
  ⟨second.init, fun x low => (second.below x low).trans (first.below x low)⟩

def AboveStatus : NvOp → Prop
  | .framWrite addr _ => tlbAddrStart ≤ addr
  | _ => True

theorem replay_below (m : Media) (ops : List NvOp) (above : ∀ op ∈ ops, AboveStatus op) {x : Nat}
    (low : x < tlbAddrStart) : (replay m ops).fram x = m.fram x := by
  induction ops generalizing m with
  | nil => rfl
  | cons op rest ih =>
    have here := above op (by simp)
    rw [replay, ih _ fun op mem => above op (by simp [mem])]
    cases op with
    | framWrite addr data =>
      have outside : ¬ (addr ≤ x ∧ x < addr + data.length) := by
        have start : tlbAddrStart ≤ addr := here
        omega
      simp only [NvOp.apply, ByteMemory.write, outside, ↓reduceIte]
    | flashWrite addr data => rfl
    | flashErase addr size => rfl

theorem slotOp_above (endian : Endian) (tlb : Nat → FpAddr) (index : Nat) :
    AboveStatus (slotOp endian tlb index) := Nat.le_add_right _ _

theorem kept_replay (init : Initialised s) (tlb : Nat → FpAddr) (ops : List NvOp)
    (log : List NvOp) (above : ∀ op ∈ ops, AboveStatus op) :
    Kept s { s with media := replay s.media ops, log := log, stFlightplanTlb := tlb } :=
  ⟨init.of_ram _ _ _, fun _ low => replay_below s.media ops above low⟩

theorem Kept.nvOp (kept : Kept s s') (op : NvOp) (above : AboveStatus op) :
    Kept s { s' with media := op.apply s'.media, log := op :: s'.log } :=
  kept.trans (kept_replay kept.init s'.stFlightplanTlb [op] (op :: s'.log) (by simpa using above))

/-! One call. -/

structure BackedUp (endian : Endian) (s s' : FlashStore) : Prop extends Kept s s' where
  mirrored : Mirrored endian s'

theorem backedUp_refl (init : Initialised s) (mirrored : Mirrored dev.endian s) :
    BackedUp dev.endian s s := ⟨⟨init, fun _ _ => rfl⟩, mirrored⟩

def updatedStore (endian : Endian) (s : FlashStore) (index : Nat) (slot : FpAddr) : FlashStore :=
  let tlb := tlbWith s.stFlightplanTlb index slot
  let ops := [slotOp endian tlb index, slotOp endian tlb schFpMaxEntries]
  { s with media := replay s.media ops, log := ops.reverse ++ s.log, stFlightplanTlb := tlb }

theorem storageFlightplanUpdateTlb_reliable (writes : ∀ n, dev.fails n = false) (s : FlashStore)
    (index : Nat) (unixtime : Int32) (addr : UInt32) :
    storageFlightplanUpdateTlb dev s index unixtime addr =
      (schStOk, updatedStore dev.endian s index ⟨addr, unixtime⟩) := by
  rw [storageFlightplanUpdateTlb_eq, performOps_reliable writes]
  rfl

theorem kept_updated (init : Initialised s) (endian : Endian) (index : Nat) (slot : FpAddr) :
    Kept s (updatedStore endian s index slot) :=
  kept_replay init _ _ _ (by simp [slotOp_above])

theorem mirrored_updated (mirrored : Mirrored dev.endian s) (index : Nat) (slot : FpAddr) :
    Mirrored dev.endian (updatedStore dev.endian s index slot) := by
  intro i inside
  simp only [updatedStore, replay, slotImage_slotOp]
  by_cases last : i = schFpMaxEntries
  · rw [if_pos last, last]
  · rw [if_neg last]
    by_cases here : i = index
    · rw [if_pos here, here]
    · rw [if_neg here, tlbWith_other here last]
      exact mirrored i inside

theorem BackedUp.flashWrite (backed : BackedUp dev.endian s s') (addr : Nat) (data : List UInt8) :
    BackedUp dev.endian s { s' with media := (NvOp.flashWrite addr data).apply s'.media
                                    log := .flashWrite addr data :: s'.log } :=
  ⟨backed.toKept.nvOp _ trivial, backed.mirrored⟩

theorem insertEntry_backedUp (writes : ∀ n, dev.fails n = false) (init : Initialised s)
    (mirrored : Mirrored dev.endian s) {row : FpEntry}
    (run : insertEntry dev s row = some (rc, s')) : BackedUp dev.endian s s' := by
  unfold insertEntry at run
  cases scan : storageFlightplanFindIndexTlb s stFpNull with
  | none =>
    simp only [scan, Option.some.injEq, Prod.mk.injEq] at run
    exact run.2 ▸ backedUp_refl init mirrored
  | some index =>
    have inside := init.found_inside scan
    simp only [scan, inside, ↓reduceIte, Option.bind_eq_bind, Option.bind_eq_some_iff,
      storageFlightplanUpdateTlb_reliable writes, storageWriteFlash,
      nvOperation_reliable writes] at run
    obtain ⟨addr, -, cmd, -, args, -, run⟩ := run
    obtain ⟨-, rfl⟩ := Prod.mk.inj (Option.some.inj run)
    have updated : BackedUp dev.endian s (updatedStore dev.endian s index ⟨addr, row.unixtime⟩) :=
      ⟨kept_updated init _ _ _, mirrored_updated mirrored _ _⟩
    exact updated.flashWrite _ _

theorem dumpTlb_backedUp (writes : ∀ n, dev.fails n = false) (kept : Kept s s')
    (run : storageFlightplanDumpTlb dev s' none = (rc, s'')) : BackedUp dev.endian s s'' := by
  simp only [storageFlightplanDumpTlb, storageWriteFram, nvOperation_reliable writes] at run
  obtain ⟨-, rfl⟩ := Prod.mk.inj run
  refine ⟨kept.nvOp _ (Nat.le_refl tlbAddrStart), ?_⟩
  intro i inside
  exact slotImage_dump dev.endian _ _ inside

theorem rewriteEntries_kept (writes : ∀ n, dev.fails n = false) {buffer : Mem} {base : UInt32}
    (indexes : List Nat) (init : Initialised s)
    (run : rewriteEntries dev buffer base s indexes = some (rc, s')) : Kept s s' := by
  induction indexes generalizing s rc with
  | nil =>
    obtain ⟨-, rfl⟩ := Prod.mk.inj (Option.some.inj run)
    exact ⟨init, fun _ _ => rfl⟩
  | cons index rest ih =>
    rw [rewriteEntries] at run
    split at run
    · dsimp only at run
      split at run
      · simp only [Option.bind_eq_bind, Option.bind_eq_some_iff,
          storageFlightplanUpdateTlb_reliable writes, storageWriteFlash,
          nvOperation_reliable writes] at run
        obtain ⟨addr, -, ⟨rcs, s₁⟩, later, eq⟩ := run
        obtain ⟨-, rfl⟩ := Prod.mk.inj (Option.some.inj eq)
        have moved := kept_updated init dev.endian index ⟨addr, (s.stFlightplanTlb index).unixtime⟩
        have written (data : List UInt8) :=
          moved.nvOp (.flashWrite addr.toNat data) trivial
        exact (written _).trans (ih (written _).init later)
      · contradiction
    · exact ih init run

theorem flightPlanRebuildTlb_backedUp (writes : ∀ n, dev.fails n = false) (init : Initialised s)
    (mirrored : Mirrored dev.endian s) (run : flightPlanRebuildTlb dev s = some (rc, s')) :
    BackedUp dev.endian s s' := by
  unfold flightPlanRebuildTlb at run
  cases allocated : dev.heap s.log.length with
  | none =>
    simp only [allocated, Option.some.injEq, Prod.mk.injEq] at run
    exact run.2 ▸ backedUp_refl init mirrored
  | some heap =>
    simp only [allocated, Option.bind_eq_bind, Option.bind_eq_some_iff, storageEraseFlash,
      nvOperation_reliable writes] at run
    obtain ⟨addrs, -, ⟨rc₃, s₁⟩, loop, eq⟩ := run
    obtain ⟨-, rfl⟩ := Prod.mk.inj (Option.some.inj eq)
    have erased (addr : Nat) := kept_replay init
      (Function.update s.stFlightplanTlb schFpMaxEntries ⟨0, 0⟩)
      [.flashErase addr schSizePerSection] (.flashErase addr schSizePerSection :: s.log)
      (by simp [AboveStatus])
    have kept := (erased _).trans (rewriteEntries_kept writes _ (erased _).init loop)
    exact dumpTlb_backedUp writes kept rfl

theorem BackedUp.trans (first : BackedUp dev.endian s s') (second : BackedUp dev.endian s' s'') :
    BackedUp dev.endian s s'' := ⟨first.toKept.trans second.toKept, second.mirrored⟩

theorem eraseSlot_backedUp (writes : ∀ n, dev.fails n = false) (init : Initialised s)
    (mirrored : Mirrored dev.endian s) {index : Nat}
    (run : eraseSlot dev s index = (rc, s')) : BackedUp dev.endian s s' := by
  rw [eraseSlot, performOps_reliable writes] at run
  obtain ⟨-, rfl⟩ := Prod.mk.inj run
  refine ⟨kept_replay init _ _ _ (by simp [slotOp_above]), ?_⟩
  intro i inside
  simp only [replay, slotImage_slotOp]
  by_cases here : i = index
  · rw [if_pos here, here]
  · rw [if_neg here, Function.update_of_ne here]
    exact mirrored i inside

theorem reset_backedUp (writes : ∀ n, dev.fails n = false) (init : Initialised s)
    (run : storageFlightPlanReset dev s = some (rc, s')) : BackedUp dev.endian s s' := by
  rw [storageFlightPlanReset_reliable writes init] at run
  obtain ⟨-, rfl⟩ := Prod.mk.inj (Option.some.inj run)
  refine ⟨kept_replay init _ _ _ (by simp [resetOps, AboveStatus]), ?_⟩
  intro i inside
  exact slotImage_dump dev.endian _ _ inside

theorem setSt_backedUp (writes : ∀ n, dev.fails n = false) (init : Initialised s)
    (mirrored : Mirrored dev.endian s) {row : FpEntry}
    (run : storageFlightPlanSetSt dev s (some row) = some (rc, s')) : BackedUp dev.endian s s' := by
  simp only [storageFlightPlanSetSt, init.isOpen, Bool.not_true, Bool.false_eq_true,
    ↓reduceIte] at run
  split at run
  · simp only [Option.bind_eq_bind, Option.bind_eq_some_iff] at run
    obtain ⟨⟨rc₁, s₁⟩, rebuild, insert⟩ := run
    have first := flightPlanRebuildTlb_backedUp writes init mirrored rebuild
    exact first.trans (insertEntry_backedUp writes first.init first.mirrored insert)
  · exact insertEntry_backedUp writes init mirrored run

theorem stepCall_backedUp (writes : ∀ n, dev.fails n = false) (init : Initialised s)
    (mirrored : Mirrored dev.endian s) {call : FlashCall}
    (run : stepCall dev s call = some (rc, s')) : BackedUp dev.endian s s' := by
  cases stepCall_cases init run with
  | refused => exact backedUp_refl init mirrored
  | read => exact backedUp_refl init mirrored
  | missing none => exact backedUp_refl init mirrored
  | outside => exact backedUp_refl init mirrored
  | set sign run => exact setSt_backedUp writes init mirrored run
  | deleted found run => exact eraseSlot_backedUp writes init mirrored run
  | deletedIdx inside run => exact eraseSlot_backedUp writes init mirrored run
  | reset run => exact reset_backedUp writes init run

/-! Status variables. -/

section Status
variable {c : Config}

def statusCell (fram : Mem) (k : Nat) : List UInt8 := read fram (k * 4) 4

def StatusFits (c : Config) : Prop := 3 * c.datStatusLastAddress * 4 ≤ tlbAddrStart

theorem statusCell_kept (kept : Kept s s') {k : Nat} (low : k * 4 + 4 ≤ tlbAddrStart) :
    statusCell s'.media.fram k = statusCell s.media.fram k := by
  apply read_congr
  intro x start stop
  exact kept.below x (by omega)

def statusStore (endian : Endian) (s : FlashStore) (k : Nat) (value : UInt32) : FlashStore :=
  let op := NvOp.framWrite (k * 4) (wordBytes endian value)
  { s with media := op.apply s.media, log := op :: s.log }

theorem statusSet_eq (writes : ∀ n, dev.fails n = false) {k : Nat} (value : UInt32)
    (low : k * 4 + 4 ≤ tlbAddrStart) :
    storageStatusSetValueIdx dev s k value = some (schStOk, statusStore dev.endian s k value) := by
  have size : tlbAddrStart ≤ UInt16.size := by decide
  have address : k * 4 % UInt16.size = k * 4 := Nat.mod_eq_of_lt (by omega)
  rw [storageStatusSetValueIdx, storageWriteFram, address, nvOperation_reliable writes]
  rfl

theorem statusStore_cell (endian : Endian) (k : Nat) (value : UInt32) (j : Nat) :
    statusCell (statusStore endian s k value).media.fram j =
      if j = k then wordBytes endian value else statusCell s.media.fram j := by
  have size := wordBytes_length endian value
  simp only [statusCell, statusStore, NvOp.apply]
  split
  · rename_i eq
    subst eq
    have same := read_write_same s.media.fram (j * 4) (wordBytes endian value)
    rwa [size] at same
  · apply read_write_disjoint
    rw [size]
    omega

theorem mirrored_status (mirrored : Mirrored dev.endian s) {k : Nat} (value : UInt32)
    (low : k * 4 + 4 ≤ tlbAddrStart) : Mirrored dev.endian (statusStore dev.endian s k value) := by
  intro i inside
  refine Eq.trans ?_ (mirrored i inside)
  apply read_write_disjoint
  rw [wordBytes_length]
  omega

def statusCells (c : Config) (index : Nat) : List Nat :=
  if c.schStorageTripleWr then
    [index, index + c.datStatusLastAddress, index + c.datStatusLastAddress * 2]
  else [index]

theorem statusCells_low (fits : StatusFits c) {index k : Nat}
    (bound : index < c.datStatusLastAddress) (cell : k ∈ statusCells c index) :
    k * 4 + 4 ≤ tlbAddrStart := by
  unfold StatusFits at fits
  unfold statusCells at cell
  split at cell <;> simp at cell <;> omega

theorem statusCells_disjoint {i j k : Nat} (hi : i < c.datStatusLastAddress)
    (hj : j < c.datStatusLastAddress) (mi : k ∈ statusCells c i) (mj : k ∈ statusCells c j) :
    i = j := by
  unfold statusCells at mi mj
  split at mi
  · rename_i triple
    simp only [triple, ↓reduceIte, List.mem_cons, List.not_mem_nil, or_false] at mi mj
    omega
  · rename_i single
    simp only [single, Bool.false_eq_true, ↓reduceIte, List.mem_singleton] at mi mj
    omega

def statusStores (endian : Endian) (value : UInt32) : FlashStore → List Nat → FlashStore
  | s, [] => s
  | s, k :: rest => statusStores endian value (statusStore endian s k value) rest

theorem datSetStatusVar_eq (writes : ∀ n, dev.fails n = false) (fits : StatusFits c) {index : Nat}
    (bound : index < c.datStatusLastAddress) (value : UInt32) :
    datSetStatusVar (flashStorage dev) c s index value =
      some (schStOk, statusStores dev.endian value s (statusCells c index)) := by
  have set (s : FlashStore) {k : Nat} (cell : k ∈ statusCells c index) :=
    statusSet_eq (s := s) writes value (statusCells_low fits bound cell)
  unfold datSetStatusVar statusCells
  cases triple : c.schStorageTripleWr with
  | false =>
    have one := set s (k := index) (by simp [statusCells, triple])
    simp [flashStorage, one, statusStores]
  | true =>
    have one (s : FlashStore) := set s (k := index) (by simp [statusCells, triple])
    have two (s : FlashStore) := set s (k := index + c.datStatusLastAddress)
      (by simp [statusCells, triple])
    have three (s : FlashStore) := set s (k := index + c.datStatusLastAddress * 2)
      (by simp [statusCells, triple])
    simp [flashStorage, one, two, three, statusStores, schStOk]

theorem statusStores_backedUp (value : UInt32) (cells : List Nat)
    (low : ∀ k ∈ cells, k * 4 + 4 ≤ tlbAddrStart) (init : Initialised s)
    (mirrored : Mirrored dev.endian s) :
    Initialised (statusStores dev.endian value s cells) ∧
      Mirrored dev.endian (statusStores dev.endian value s cells) := by
  induction cells generalizing s with
  | nil => exact ⟨init, mirrored⟩
  | cons k rest ih =>
    exact ih (fun k mem => low k (by simp [mem])) (init.of_ram _ _ s.stFlightplanTlb)
      (mirrored_status mirrored value (low k (by simp)))

theorem statusStores_cell (endian : Endian) (value : UInt32) (cells : List Nat) (j : Nat) :
    statusCell (statusStores endian value s cells).media.fram j =
      if j ∈ cells then wordBytes endian value else statusCell s.media.fram j := by
  induction cells generalizing s with
  | nil => rfl
  | cons k rest ih =>
    rw [statusStores, ih, statusStore_cell]
    by_cases later : j ∈ rest
    · simp [later]
    · simp [later]

end Status

/-! Runs. -/

inductive RepoCall where
  | flightPlan (call : FlashCall)
  | setStatusVar (index : Nat) (value : UInt32)

inductive RepoRun (dev : Device) (c : Config) (s₀ : FlashStore) :
    List RepoCall → FlashStore → Prop where
  | start : RepoRun dev c s₀ [] s₀
  | flightPlan {history : List RepoCall} {s s' : FlashStore} {call : FlashCall} {rc : Int32}
      (before : RepoRun dev c s₀ history s) (run : stepCall dev s call = some (rc, s')) :
      RepoRun dev c s₀ (.flightPlan call :: history) s'
  | setStatusVar {history : List RepoCall} {s s' : FlashStore} {index : Nat} {value : UInt32}
      {rc : Int32} (before : RepoRun dev c s₀ history s) (bound : index < c.datStatusLastAddress)
      (run : datSetStatusVar (flashStorage dev) c s index value = some (rc, s')) :
      RepoRun dev c s₀ (.setStatusVar index value :: history) s'

def lastSet (j : Nat) : List RepoCall → Option UInt32
  | [] => none
  | .flightPlan _ :: history => lastSet j history
  | .setStatusVar index value :: history => if index = j then some value else lastSet j history

def StatusExact (endian : Endian) (c : Config) (s₀ : FlashStore) (history : List RepoCall)
    (s : FlashStore) : Prop :=
  ∀ j < c.datStatusLastAddress, ∀ k ∈ statusCells c j, statusCell s.media.fram k =
    match lastSet j history with
    | some value => wordBytes endian value
    | none => statusCell s₀.media.fram k

theorem repoRun_backedUp {c : Config} {s₀ : FlashStore} {history : List RepoCall}
    (writes : ∀ n, dev.fails n = false) (fits : StatusFits c) (init : Initialised s₀)
    (mirrored : Mirrored dev.endian s₀) (run : RepoRun dev c s₀ history s) :
    Initialised s ∧ Mirrored dev.endian s ∧ StatusExact dev.endian c s₀ history s := by
  induction run with
  | start => exact ⟨init, mirrored, fun j bound k cell => rfl⟩
  | flightPlan before run ih =>
    obtain ⟨init, mirrored, known⟩ := ih
    have backed := stepCall_backedUp writes init mirrored run
    refine ⟨backed.init, backed.mirrored, ?_⟩
    intro j bound k cell
    rw [statusCell_kept backed.toKept (statusCells_low fits bound cell)]
    exact known j bound k cell
  | @setStatusVar history s s' index value rc before inside run ih =>
    obtain ⟨init, mirrored, known⟩ := ih
    rw [datSetStatusVar_eq writes fits inside] at run
    obtain ⟨-, rfl⟩ := Prod.mk.inj (Option.some.inj run)
    obtain ⟨init', mirrored'⟩ := statusStores_backedUp value (statusCells c index)
      (fun k cell => statusCells_low fits inside cell) init mirrored
    refine ⟨init', mirrored', ?_⟩
    intro j bound k cell
    rw [statusStores_cell, lastSet]
    by_cases same : index = j
    · subst same
      rw [if_pos cell, if_pos rfl]
    · have other : k ∉ statusCells c index := fun mem =>
        same (statusCells_disjoint inside bound mem cell)
      rw [if_neg other, if_neg same]
      exact known j bound k cell

/-! Restart. -/

theorem loadTlb_slot (s : FlashStore) (loads : dev.readFails s.log.length tlbAddrStart = false)
    {i : Nat} (inside : i ≤ schFpMaxEntries) :
    (storageFlightplanLoadTlb dev s).2.stFlightplanTlb i =
      fpAddrAt dev.endian (slotImage s.media.fram i) := by
  have last : (i + 1) * fpAddrSize ≤ (schFpMaxEntries + 1) * fpAddrSize :=
    Nat.mul_le_mul_right _ (by omega)
  rw [Nat.add_mul, Nat.one_mul] at last
  simp only [storageFlightplanLoadTlb, storageReadFram, loads, Bool.false_eq_true, ↓reduceIte]
  rw [take_drop_read _ _ _ _ _ last, slotImage]

theorem tableInit_loads (loads : ∀ n, dev.readFails n tlbAddrStart = false)
    (isOpen : s.storageIsOpen = true) (fresh : s.stFlightplanAddr = none) :
    ∃ s', storageTableFlightPlanInit dev s schFpMaxEntries false = some (schStOk, s') ∧
      s'.media = s.media ∧ s'.log = s.log ∧ s'.stFlightplanEntries = schFpMaxEntries ∧
      ∀ i ≤ schFpMaxEntries,
        s'.stFlightplanTlb i = fpAddrAt dev.endian (slotImage s.media.fram i) := by
  obtain ⟨opened, table⟩ : ∃ opened : FlashStore,
      storageTableFlightPlanInit dev s schFpMaxEntries false =
        some (storageFlightplanLoadTlb dev opened) ∧ opened.media = s.media ∧
        opened.log = s.log ∧ opened.stFlightplanEntries = schFpMaxEntries := by
    simp only [storageTableFlightPlanInit, isOpen, fresh]
    exact ⟨_, rfl, rfl, rfl, rfl⟩
  have ok : (storageFlightplanLoadTlb dev opened).1 = schStOk := by
    simp [storageFlightplanLoadTlb, storageReadFram, loads]
  refine ⟨(storageFlightplanLoadTlb dev opened).2, ?_, table.2.1, table.2.2.1, table.2.2.2, ?_⟩
  · rw [table.1, ← ok]
  · intro i inside
    rw [loadTlb_slot opened (loads _) inside, table.2.1]

theorem boot_mirrored (loads : ∀ n, dev.readFails n tlbAddrStart = false) {media : Media}
    {log : List NvOp} {lastSensor : Nat}
    (boot : datRepoInit dev (powerOn media log) lastSensor = some s) :
    Initialised s ∧ Mirrored dev.endian s ∧ s.media = media ∧ s.log = log := by
  obtain ⟨s', boot', init⟩ := datRepoInit_initialised dev media log lastSensor
  obtain rfl : s' = s := Option.some.inj (boot'.symm.trans boot)
  obtain ⟨s₁, open', media', log', -, slots⟩ := tableInit_loads
    (s := (storageTablePayloadInit (storageInit (powerOn media log)).2 lastSensor false).2)
    loads rfl rfl
  have same : datRepoInit dev (powerOn media log) lastSensor = some s₁ := by
    simp only [datRepoInit, open', Option.bind_eq_bind, Option.bind_some]
    rfl
  obtain rfl : s' = s₁ := Option.some.inj (boot.symm.trans same)
  refine ⟨init, ?_, media', log'⟩
  intro i inside
  have size : (slotImage s'.media.fram i).length = fpAddrSize := read_length _ _ _
  rw [slots i inside, ← media', fpAddrBytes_fpAddrAt dev.endian size]

def restart (dev : Device) (s : FlashStore) : Option (Int32 × FlashStore) :=
  let (_, s) := storageClose s
  let (_, s) := storageInit s
  storageTableFlightPlanInit dev s schFpMaxEntries false

structure SameAnswers (dev : Device) (c : Config) (s s' : FlashStore) : Prop where
  byIndex : ∀ index, storageFlightPlanGetIdx dev s' index = storageFlightPlanGetIdx dev s index
  byTime : ∀ t, storageFlightPlanGetSt dev s' t = storageFlightPlanGetSt dev s t
  args : ∀ t, storageFlightPlanGetArgs dev s' t = storageFlightPlanGetArgs dev s t
  status : ∀ j, datGetStatusVar (flashStorage dev) c s' j = datGetStatusVar (flashStorage dev) c s j

theorem sameAnswers_of_tlb {c : Config} (media : s'.media = s.media) (log : s'.log = s.log)
    (entries : s.stFlightplanEntries = schFpMaxEntries)
    (entries' : s'.stFlightplanEntries = schFpMaxEntries)
    (tlb : ∀ i < schFpMaxEntries, s'.stFlightplanTlb i = s.stFlightplanTlb i) :
    SameAnswers dev c s s' := by
  have page : ∀ addr, storageReadFlash dev s' addr fpContainerSize =
      storageReadFlash dev s addr fpContainerSize := by
    intro addr
    rw [storageReadFlash, storageReadFlash, media, log]
  have byIndex : ∀ index,
      storageFlightPlanGetIdx dev s' index = storageFlightPlanGetIdx dev s index := by
    intro index
    by_cases inside : index.toNatClampNeg < schFpMaxEntries
    · unfold storageFlightPlanGetIdx
      dsimp only
      rw [tlb _ inside, page, entries, entries']
    · simp only [storageFlightPlanGetIdx, entries, entries', Nat.not_lt.mp inside, ↓reduceIte]
  have find : ∀ t, storageFlightplanFindIndexTlb s' t = storageFlightplanFindIndexTlb s t := by
    intro t
    apply first_congr
    intro i inside
    rw [tlb i inside]
  have byTime : ∀ t, storageFlightPlanGetSt dev s' t = storageFlightPlanGetSt dev s t := by
    intro t
    simp only [storageFlightPlanGetSt, find, byIndex]
  refine ⟨byIndex, byTime, ?_, ?_⟩
  · intro t
    simp only [storageFlightPlanGetArgs, byTime]
  · intro j
    have copy : ∀ k, readStatusCopy (flashStorage dev) s' k =
        readStatusCopy (flashStorage dev) s k := by
      intro k
      have cell : storageReadFram dev s' (k * 4 % UInt16.size) 4 =
          storageReadFram dev s (k * 4 % UInt16.size) 4 := by
        rw [storageReadFram, storageReadFram, media, log]
      simp only [readStatusCopy, flashStorage, storageStatusGetValueIdx, cell]
    simp only [datGetStatusVar, copy]

theorem restart_sameAnswers (c : Config) (loads : ∀ n, dev.readFails n tlbAddrStart = false)
    (init : Initialised s) (mirrored : Mirrored dev.endian s) :
    ∃ s', restart dev s = some (schStOk, s') ∧ SameAnswers dev c s s' := by
  obtain ⟨s', table, media, log, entries, slots⟩ := tableInit_loads
    (s := (storageInit (storageClose s).2).2) loads rfl rfl
  refine ⟨s', table, sameAnswers_of_tlb media log init.entriesEq entries ?_⟩
  intro i inside
  have image := mirrored i (Nat.le_of_lt inside)
  rw [slots i (Nat.le_of_lt inside)]
  show fpAddrAt dev.endian (slotImage s.media.fram i) = _
  rw [image, fpAddrAt_fpAddrBytes]

/-- After any run from a boot on, in which the writes succeed, the back-up is
    equal to the TLB and every status variable holds what it was last set to,
    so a restart changes no answer. -/
theorem flight_plan_survives_restart {c : Config} {media : Media} {log : List NvOp}
    {lastSensor : Nat} {s₀ : FlashStore} {history : List RepoCall}
    (writes : ∀ n, dev.fails n = false) (loads : ∀ n, dev.readFails n tlbAddrStart = false)
    (fits : StatusFits c) (boot : datRepoInit dev (powerOn media log) lastSensor = some s₀)
    (run : RepoRun dev c s₀ history s) :
    Mirrored dev.endian s ∧ StatusExact dev.endian c s₀ history s ∧
      (∃ s', restart dev s = some (schStOk, s') ∧ SameAnswers dev c s s') ∧
      ∀ call, usedPages s.stFlightplanTlb ≤ commandsPerSection → (∀ t, call ≠ .getArgs t) →
        IndexInRange dev s call → (stepCall dev s call).isSome := by
  obtain ⟨init₀, mirrored₀, -⟩ := boot_mirrored loads boot
  obtain ⟨init, mirrored, status⟩ := repoRun_backedUp writes fits init₀ mirrored₀ run
  refine ⟨mirrored, status, restart_sameAnswers c loads init mirrored, ?_⟩
  intro call few kind range
  exact stepCall_defined dev init few kind ((indexInRange_iff init few).mp range)

theorem ping_survives_restart :
    ∃ s s₀ s₁ s₂ s', datRepoInit idealDevice (powerOn blankMedia []) 1 = some s ∧
      storageFlightPlanReset idealDevice s = some (schStOk, s₀) ∧
      stepCall idealDevice s₀ setPing = some (schStOk, s₁) ∧
      datSetStatusVar (flashStorage idealDevice) simpleConfig s₁ 3 7 = some (schStOk, s₂) ∧
      restart idealDevice s₂ = some (schStOk, s') ∧ SameAnswers idealDevice simpleConfig s₂ s' := by
  have works := idealDevice_reliable
  have fits : StatusFits simpleConfig := by
    unfold StatusFits
    decide
  obtain ⟨s, s₀, s₁, boot, -, reset, set, -⟩ := boot_ping works blankMedia
  obtain ⟨s₂, status⟩ : ∃ s₂, datSetStatusVar (flashStorage idealDevice) simpleConfig s₁ 3 7 =
      some (schStOk, s₂) := ⟨_, datSetStatusVar_eq works.writes fits (by decide) 7⟩
  have first : RepoRun idealDevice simpleConfig s [.flightPlan .reset] s₀ :=
    RepoRun.start.flightPlan reset
  have run := (first.flightPlan set).setStatusVar (by decide) status
  obtain ⟨s', again, same⟩ :=
    (flight_plan_survives_restart works.writes (fun _ => rfl) fits boot run).2.2.1
  exact ⟨s, s₀, s₁, s₂, s', boot, reset, set, status, again, same⟩

end FlashRestart
