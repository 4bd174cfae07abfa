import SuchaiFlight.FlashTable

/-!
`flight_plan_rebuild_tlb`, which moves the live entries to the front of the
flight plan section. The section is read through a helper whose length is a
`uint16_t`: 512 pages of 512 bytes make 0 of it, so the pages are written back
from a buffer that was never filled.
-/
namespace FlashRebuild
open ByteMemory NonVolatile CStrings StorageApi SlotTable FlashStorage FlashOperations FlashSections
open FlashTable

def rank (tlb : Nat → FpAddr) (k : Nat) : Nat := (contents k (liveSlot tlb)).card

theorem rank_free {tlb : Nat → FpAddr} {k : Nat} (null : (tlb k).unixtime = stFpNull) :
    rank tlb (k + 1) = rank tlb k := by
  simp [rank, contents_succ, liveSlot, null]

theorem rank_live {tlb : Nat → FpAddr} {k : Nat} (live : (tlb k).unixtime ≠ stFpNull) :
    rank tlb (k + 1) = rank tlb k + 1 := by
  simp [rank, contents_succ, liveSlot, live, Nat.add_comm]

theorem rank_mono (tlb : Nat → FpAddr) {j k : Nat} (le : j ≤ k) : rank tlb j ≤ rank tlb k := by
  induction le with
  | refl => exact Nat.le_refl _
  | @step k _ ih =>
    by_cases null : (tlb k).unixtime = stFpNull
    · rw [rank_free null]
      exact ih
    · rw [rank_live null]
      omega

theorem rank_lt {tlb : Nat → FpAddr} {j k : Nat} (before : j < k)
    (live : (tlb j).unixtime ≠ stFpNull) : rank tlb j < rank tlb k := by
  have step := rank_live live
  have rest := rank_mono tlb (show j + 1 ≤ k from before)
  omega

theorem rank_le (tlb : Nat → FpAddr) (k : Nat) : rank tlb k ≤ k := contents_card_le _ _

structure Placed (tlb : Nat → FpAddr) : Prop where
  page : ∀ i < schFpMaxEntries, (tlb i).unixtime ≠ stFpNull →
    ∃ n < commandsPerSection, (tlb i).addr = pageOf n
  distinct : ∀ i < schFpMaxEntries, ∀ j < schFpMaxEntries, (tlb i).unixtime ≠ stFpNull →
    (tlb j).unixtime ≠ stFpNull → i ≠ j → (tlb i).addr ≠ (tlb j).addr

def oldIndex (slot : FpAddr) : Nat := (slot.addr - sectionAddr 0).toNat / fpContainerSize

theorem oldIndex_pageOf {slot : FpAddr} {n : Nat} (bound : n < commandsPerSection)
    (address : slot.addr = pageOf n) : oldIndex slot = n := by
  have small : n < 512 := bound
  have base : (sectionAddr 0).toNat = flightplanBase := by decide
  have order : sectionAddr 0 ≤ pageOf n := by
    rw [UInt32.le_iff_toNat_le, base, pageOf_toNat bound]
    omega
  rw [oldIndex, address, UInt32.toNat_sub_of_le _ _ order, base, pageOf_toNat bound,
    Nat.add_sub_cancel_left]
  exact Nat.mul_div_cancel n (by decide)

structure Rewritten (tlb : Nat → FpAddr) (buffer : Mem) (k : Nat) (s : FlashStore) : Prop
    extends Initialised s where
  used : usedPages s.stFlightplanTlb = rank tlb k
  times : ∀ i < schFpMaxEntries, (s.stFlightplanTlb i).unixtime = (tlb i).unixtime
  ahead : ∀ i < schFpMaxEntries, k ≤ i → s.stFlightplanTlb i = tlb i
  moved : ∀ i < k, (tlb i).unixtime ≠ stFpNull →
    (s.stFlightplanTlb i).addr = pageOf (rank tlb i) ∧
      pageBytes s.media.flash (rank tlb i) =
        read buffer (oldIndex (tlb i) * fpContainerSize) fpContainerSize

variable {dev : Device} {s s' : FlashStore} {tlb : Nat → FpAddr} {buffer : Mem} {k : Nat}

theorem Rewritten.room (rewritten : Rewritten tlb buffer k s) (inside : k < schFpMaxEntries) :
    usedPages s.stFlightplanTlb < commandsPerSection := by
  have le := rank_le tlb k
  have few : schFpMaxEntries < commandsPerSection := by decide
  rw [rewritten.used]
  omega

def moveEntry (endian : Endian) (buffer : Mem) (s : FlashStore) (k : Nat) : FlashStore :=
  let slot := s.stFlightplanTlb k
  let page := usedPages s.stFlightplanTlb
  let tlb := tlbWith s.stFlightplanTlb k ⟨pageOf page, slot.unixtime⟩
  let ops := [slotOp endian tlb k, slotOp endian tlb schFpMaxEntries,
    .flashWrite (flightplanBase + page * fpContainerSize)
      (read buffer (oldIndex slot * fpContainerSize) fpContainerSize)]
  { s with media := replay s.media ops, log := ops.reverse ++ s.log, stFlightplanTlb := tlb }

theorem rewriteEntries_live (works : ∀ n, dev.fails n = false) (init : Initialised s)
    (room : usedPages s.stFlightplanTlb < commandsPerSection)
    (live : (s.stFlightplanTlb k).unixtime ≠ stFpNull)
    (old : oldIndex (s.stFlightplanTlb k) < commandsPerSection) (rest : List Nat) :
    rewriteEntries dev buffer (sectionAddr 0) s (k :: rest) =
      rewriteEntries dev buffer (sectionAddr 0) (moveEntry dev.endian buffer s k) rest := by
  have inRange : ((s.stFlightplanTlb k).addr - sectionAddr 0).toNat / fpContainerSize <
      commandsPerSection := old
  rw [rewriteEntries]
  simp only [ne_eq, live, not_false_eq_true, ↓reduceIte, inRange, pageAddr_small init room,
    storageFlightplanUpdateTlb_eq, performOps_reliable works,
    storageWriteFlash_page _ (read_length _ _ _), nvOperation_reliable works,
    pageOf_toNat room, Option.bind_eq_bind, Option.bind_some]
  have sum : ∀ r : Option (Int32 × FlashStore),
      (r.bind fun x => pure (schStOk + schStOk + x.1, x.2)) = r := by
    intro r
    cases r <;> simp [schStOk]
  exact sum _

theorem Rewritten.move (endian : Endian) (rewritten : Rewritten tlb buffer k s)
    (inside : k < schFpMaxEntries)
    (live : (tlb k).unixtime ≠ stFpNull) :
    Rewritten tlb buffer (k + 1) (moveEntry endian buffer s k) := by
  have here := rewritten.ahead k inside (Nat.le_refl k)
  have room := rewritten.room inside
  refine ⟨rewritten.of_ram _ _ _, ?_, ?_, ?_, ?_⟩
  · simp only [moveEntry]
    rw [usedPages_tlbWith inside room, rewritten.used, rank_live live]
  · intro i below
    simp only [moveEntry]
    by_cases eq : i = k
    · subst eq
      rw [tlbWith_same inside, here]
    · rw [tlbWith_other eq (Nat.ne_of_lt below)]
      exact rewritten.times i below
  · intro i below le
    simp only [moveEntry]
    rw [tlbWith_other (show i ≠ k by omega) (Nat.ne_of_lt below)]
    exact rewritten.ahead i below (by omega)
  · intro i before old
    simp only [moveEntry, replay, slotOp, NvOp.apply]
    by_cases eq : i = k
    · subst eq
      rw [tlbWith_same inside, rewritten.used, here]
      exact ⟨rfl, pageBytes_write_same _ _ (read_length _ _ _)⟩
    · have lower : i < k := by omega
      obtain ⟨place, bytes⟩ := rewritten.moved i lower old
      rw [tlbWith_other eq (by omega), rewritten.used, ← bytes]
      exact ⟨place, pageBytes_write_other _ (Nat.ne_of_lt (rank_lt lower old)) (read_length _ _ _)⟩

theorem rewriteEntries_step (works : ∀ n, dev.fails n = false) (placed : Placed tlb)
    (rewritten : Rewritten tlb buffer k s) (inside : k < schFpMaxEntries) (rest : List Nat) :
    ∃ s', Rewritten tlb buffer (k + 1) s' ∧
      rewriteEntries dev buffer (sectionAddr 0) s (k :: rest) =
        rewriteEntries dev buffer (sectionAddr 0) s' rest := by
  have here := rewritten.ahead k inside (Nat.le_refl k)
  by_cases null : (tlb k).unixtime = stFpNull
  · refine ⟨s, ⟨rewritten.toInitialised, ?_, rewritten.times, ?_, ?_⟩, ?_⟩
    · rw [rewritten.used, rank_free null]
    · intro i bound le
      exact rewritten.ahead i bound (by omega)
    · intro i before live
      have ne : i ≠ k := fun eq => live (eq ▸ null)
      exact rewritten.moved i (by omega) live
    · simp [rewriteEntries, here, null]
  · obtain ⟨n, bound, address⟩ := placed.page k inside null
    refine ⟨_, rewritten.move dev.endian inside null, ?_⟩
    refine rewriteEntries_live works rewritten.toInitialised (rewritten.room inside) ?_ ?_ rest
    · rw [here]
      exact null
    · rw [here, oldIndex_pageOf bound address]
      exact bound

theorem rewriteEntries_run (works : ∀ n, dev.fails n = false) (placed : Placed tlb) (n : Nat)
    (rewritten : Rewritten tlb buffer k s) (total : k + n = schFpMaxEntries) :
    ∃ s', rewriteEntries dev buffer (sectionAddr 0) s (List.range' k n) = some (0, s') ∧
      Rewritten tlb buffer schFpMaxEntries s' := by
  induction n generalizing k s with
  | zero =>
    obtain rfl : k = schFpMaxEntries := by omega
    exact ⟨s, rfl, rewritten⟩
  | succ n ih =>
    obtain ⟨s₁, rewritten₁, step⟩ := rewriteEntries_step works placed rewritten (by omega)
      (List.range' (k + 1) n)
    obtain ⟨s', run, rewritten'⟩ := ih rewritten₁ (by omega)
    exact ⟨s', by rw [List.range'_succ, step, run], rewritten'⟩

/-! The whole compaction. -/

/-- What the section was read for: after a compaction the live slots and their
    times are the same, every live slot reads back as before, no two of them
    share a page, and the counter is their number. -/
structure Compacted (dev : Device) (s s' : FlashStore) : Prop where
  times : ∀ i < schFpMaxEntries, (s'.stFlightplanTlb i).unixtime = (s.stFlightplanTlb i).unixtime
  readBack : ∀ i < schFpMaxEntries, (s.stFlightplanTlb i).unixtime ≠ stFpNull →
    storageFlightPlanGetIdx dev s' (Int32.ofNat i) = storageFlightPlanGetIdx dev s (Int32.ofNat i)
  distinct : ∀ i < schFpMaxEntries, ∀ j < schFpMaxEntries,
    (s.stFlightplanTlb i).unixtime ≠ stFpNull → (s.stFlightplanTlb j).unixtime ≠ stFpNull →
      i ≠ j → (s'.stFlightplanTlb i).addr ≠ (s'.stFlightplanTlb j).addr
  counted : usedPages s'.stFlightplanTlb = liveCount s'.stFlightplanTlb

/-- The new buffer happens to hold, at the place of every live entry's page,
    bytes that read as that entry. Without a buffer nothing is moved, and the
    counter must have been exact. -/
def BufferHolds (dev : Device) (s : FlashStore) : Prop :=
  match dev.heap s.log.length with
  | none => usedPages s.stFlightplanTlb = liveCount s.stFlightplanTlb
  | some heap => ∀ i < schFpMaxEntries, (s.stFlightplanTlb i).unixtime ≠ stFpNull →
      fpEntryAt dev.endian
          (read heap (oldIndex (s.stFlightplanTlb i) * fpContainerSize) fpContainerSize) =
        fpEntryAt dev.endian
          (read s.media.flash (s.stFlightplanTlb i).addr.toNat fpContainerSize)

def erasedStore (s : FlashStore) : FlashStore :=
  { s with media := (NvOp.flashErase flightplanBase schSizePerSection).apply s.media
           log := .flashErase flightplanBase schSizePerSection :: s.log
           stFlightplanTlb := Function.update s.stFlightplanTlb schFpMaxEntries ⟨0, 0⟩ }

def dumpedStore (endian : Endian) (s : FlashStore) : FlashStore :=
  let op := NvOp.framWrite tlbAddrStart (tlbBytes endian s.stFlightplanTlb)
  { s with media := op.apply s.media, log := op :: s.log }

/-- The length of the section is 0 as a `uint16_t`, so nothing is read. -/
theorem storageReadFlash_section (works : Reliable dev) (addr : UInt32) :
    storageReadFlash dev s addr (commandsPerSection * fpContainerSize) = (schStOk, []) :=
  storageReadFlash_reliable works addr (show _ = 0 by decide)

theorem flightPlanRebuildTlb_eq (works : Reliable dev) (init : Initialised s) {heap : Mem}
    (allocated : dev.heap s.log.length = some heap) :
    flightPlanRebuildTlb dev s =
      (rewriteEntries dev heap (sectionAddr 0) (erasedStore s) (List.range' 0 schFpMaxEntries)).map
        fun r => (r.1, dumpedStore dev.endian r.2) := by
  have unread : ByteMemory.write heap 0 [] = heap := by
    funext x
    simp [ByteMemory.write]
  have start : (sectionAddr 0).toNat / schSizePerSection * schSizePerSection =
      flightplanBase := by decide
  have erase : ({ (storageEraseFlash dev s (sectionAddr 0)).2 with
      stFlightplanTlb := Function.update (storageEraseFlash dev s (sectionAddr 0)).2.stFlightplanTlb
        schFpMaxEntries ⟨0, 0⟩ } : FlashStore) = erasedStore s := by
    simp only [storageEraseFlash, start, nvOperation_reliable works.writes, erasedStore]
  have noError : (storageEraseFlash dev s (sectionAddr 0)).1 = schStOk := by
    simp only [storageEraseFlash, nvOperation_reliable works.writes]
  rw [flightPlanRebuildTlb, allocated]
  simp only [init.addrEq, Option.bind_eq_bind, Option.bind_some, storageReadFlash_section works,
    unread, noError, erase, List.range_eq_range', storageFlightplanDumpTlb, storageWriteFram,
    nvOperation_reliable works.writes]
  cases rewriteEntries dev heap (sectionAddr 0) (erasedStore s) (List.range' 0 schFpMaxEntries) with
  | none => rfl
  | some r => simp [dumpedStore, schStOk]

theorem erasedStore_rewritten (init : Initialised s) (buffer : Mem) :
    Rewritten s.stFlightplanTlb buffer 0 (erasedStore s) := by
  refine ⟨init.of_ram _ _ _, ?_, ?_, ?_, ?_⟩
  · simp [erasedStore, usedPages, rank, contents]
  · intro i inside
    simp only [erasedStore, Function.update_of_ne (Nat.ne_of_lt inside)]
  · intro i inside _
    simp only [erasedStore, Function.update_of_ne (Nat.ne_of_lt inside)]
  · intro i before
    omega

theorem rebuild_run (works : Reliable dev) (init : Initialised s)
    (placed : Placed s.stFlightplanTlb) {heap : Mem}
    (allocated : dev.heap s.log.length = some heap) :
    ∃ s', flightPlanRebuildTlb dev s = some (schStOk, s') ∧
      Rewritten s.stFlightplanTlb heap schFpMaxEntries s' := by
  obtain ⟨s₁, run, rewritten⟩ := rewriteEntries_run works.writes placed schFpMaxEntries
    (erasedStore_rewritten init heap) (Nat.zero_add _)
  refine ⟨dumpedStore dev.endian s₁, ?_, ?_⟩
  · rw [flightPlanRebuildTlb_eq works init allocated, run]
    rfl
  · exact ⟨rewritten.of_ram _ _ _, rewritten.used, rewritten.times, rewritten.ahead,
      rewritten.moved⟩

theorem Rewritten.compacted_iff (works : Reliable dev) (init : Initialised s)
    (rewritten : Rewritten s.stFlightplanTlb buffer schFpMaxEntries s') :
    Compacted dev s s' ↔ ∀ i < schFpMaxEntries, (s.stFlightplanTlb i).unixtime ≠ stFpNull →
      fpEntryAt dev.endian
          (read buffer (oldIndex (s.stFlightplanTlb i) * fpContainerSize) fpContainerSize) =
        fpEntryAt dev.endian
          (read s.media.flash (s.stFlightplanTlb i).addr.toNat fpContainerSize) := by
  have few : schFpMaxEntries < commandsPerSection := by decide
  have ranked : ∀ i < schFpMaxEntries, rank s.stFlightplanTlb i < commandsPerSection := by
    intro i inside
    have le := rank_le s.stFlightplanTlb i
    omega
  -- a moved entry is read from the page it was moved to
  have after : ∀ i < schFpMaxEntries, (s.stFlightplanTlb i).unixtime ≠ stFpNull →
      storageFlightPlanGetIdx dev s' (Int32.ofNat i) = (fpEntryAt dev.endian
        (read buffer (oldIndex (s.stFlightplanTlb i) * fpContainerSize) fpContainerSize)).map
          .ok := by
    intro i inside live
    obtain ⟨place, bytes⟩ := rewritten.moved i inside live
    rw [getIdx_live works rewritten.toInitialised inside (by rwa [rewritten.times i inside]), place,
      pageOf_toNat (ranked i inside), ← bytes]
    rfl
  have okInj : Function.Injective (Option.map (Except.ok : FpEntry → Except Int32 FpEntry)) :=
    Option.map_injective fun a b eq => Except.ok.inj eq
  constructor
  · intro compacted i inside live
    have back := compacted.readBack i inside live
    rw [after i inside live, getIdx_live works init inside live] at back
    exact okInj back
  · intro holds
    refine ⟨rewritten.times, ?_, ?_, ?_⟩
    · intro i inside live
      rw [after i inside live, getIdx_live works init inside live, holds i inside live]
    · intro i hi j hj livei livej ne
      rw [(rewritten.moved i hi livei).1, (rewritten.moved j hj livej).1]
      intro same
      have ranks := pageOf_inj (ranked i hi) (ranked j hj) same
      rcases Nat.lt_or_gt_of_ne ne with before | before
      · have := rank_lt before livei
        omega
      · have := rank_lt before livej
        omega
    · rw [rewritten.used]
      apply contents_card_congr
      intro i inside
      simp only [liveSlot, rewritten.times i inside]
      split <;> rfl

theorem read_const (b : UInt8) (a n : Nat) : read (fun _ => b) a n = List.replicate n b := by
  simp [ByteMemory.read]

theorem exists_other_buffer (endian : Endian) (a : Nat) (e : Option FpEntry) :
    ∃ buffer : Mem, fpEntryAt endian (read buffer a fpContainerSize) ≠ e := by
  cases e with
  | some e =>
    refine ⟨fun _ => 255, ?_⟩
    rw [read_const]
    simp [fpEntryAt, stringAt]
  | none =>
    refine ⟨fun _ => 0, ?_⟩
    have text : ∀ k < fpContainerSize,
        ∃ t, stringAt ((List.replicate fpContainerSize (0 : UInt8)).drop k) = some t := by
      intro k bound
      have nul : (0 : UInt8) ∈ List.replicate (fpContainerSize - k) (0 : UInt8) :=
        List.mem_replicate.mpr ⟨by omega, rfl⟩
      rw [List.drop_replicate, stringAt, if_pos nul]
      exact ⟨_, rfl⟩
    obtain ⟨cmd, hc⟩ := text 16 (by decide)
    obtain ⟨args, ha⟩ := text (16 + stCmdMaxStrParams) (by decide)
    rw [read_const, fpEntryAt, hc, ha]
    simp

/-- A compaction loses nothing exactly when the buffer that it writes the
    entries from held them by chance. It can be relied on, for every content of
    that buffer, exactly when there is no entry to move. -/
theorem compaction_keeps_entries_iff (works : Reliable dev) (init : Initialised s)
    (placed : Placed s.stFlightplanTlb) :
    (∃ rc s', flightPlanRebuildTlb dev s = some (rc, s') ∧
      (Compacted dev s s' ↔ BufferHolds dev s)) ∧
    ((∀ heap : Mem, ∃ rc s',
        flightPlanRebuildTlb { dev with heap := fun _ => some heap } s = some (rc, s') ∧
          Compacted { dev with heap := fun _ => some heap } s s') ↔
      ∀ i < schFpMaxEntries, (s.stFlightplanTlb i).unixtime = stFpNull) := by
  refine ⟨?_, ?_, ?_⟩
  · cases allocated : dev.heap s.log.length with
    | none =>
      refine ⟨schStError, s, by rw [flightPlanRebuildTlb, allocated], ?_⟩
      rw [BufferHolds, allocated]
      exact ⟨fun compacted => compacted.counted,
        fun counted => ⟨fun _ _ => rfl, fun _ _ _ => rfl, placed.distinct, counted⟩⟩
    | some heap =>
      obtain ⟨s', run, rewritten⟩ := rebuild_run works init placed allocated
      refine ⟨schStOk, s', run, ?_⟩
      rw [BufferHolds, allocated]
      exact rewritten.compacted_iff works init
  · intro always i inside
    by_contra live
    obtain ⟨heap, other⟩ := exists_other_buffer dev.endian
      (oldIndex (s.stFlightplanTlb i) * fpContainerSize)
      (fpEntryAt dev.endian (read s.media.flash (s.stFlightplanTlb i).addr.toNat fpContainerSize))
    have works' : Reliable { dev with heap := fun _ => some heap } := ⟨works.writes, works.reads⟩
    obtain ⟨s', run, rewritten⟩ := rebuild_run works' init placed rfl
    obtain ⟨rc, s₁, run₁, compacted⟩ := always heap
    rw [run] at run₁
    obtain ⟨-, rfl⟩ := Prod.mk.inj (Option.some.inj run₁)
    exact other ((rewritten.compacted_iff works' init).mp compacted i inside live)
  · intro free heap
    have works' : Reliable { dev with heap := fun _ => some heap } := ⟨works.writes, works.reads⟩
    obtain ⟨s', run, rewritten⟩ := rebuild_run works' init placed rfl
    refine ⟨schStOk, s', run, (rewritten.compacted_iff works' init).mpr ?_⟩
    intro i inside live
    exact absurd (free i inside) live

/-! A table with one entry, and a buffer of zeroes. -/

theorem placed_of_sound {short : CString → Prop} (sound : Sound dev.endian short s) :
    Placed s.stFlightplanTlb := by
  refine ⟨?_, sound.distinct⟩
  intro i inside live
  obtain ⟨n, below, place⟩ := sound.counted i inside live
  exact ⟨n, Nat.lt_of_lt_of_le below sound.few, place⟩

theorem fpEntryAt_time {endian : Endian} {page : List UInt8} {e : FpEntry}
    (entry : fpEntryAt endian page = some e) : e.unixtime = wordAt endian page 0 := by
  simp only [fpEntryAt, Option.bind_eq_bind, Option.bind_eq_some_iff] at entry
  obtain ⟨cmd, -, args, -, eq⟩ := entry
  rw [← Option.some.inj eq]

theorem compaction_of_ping :
    ∃ s s₀ s₁, datRepoInit idealDevice (powerOn blankMedia []) 1 = some s ∧
      storageFlightPlanReset idealDevice s = some (schStOk, s₀) ∧
      stepCall idealDevice s₀ setPing = some (schStOk, s₁) ∧
      ∃ rc s', flightPlanRebuildTlb idealDevice s₁ = some (rc, s') ∧
        (Compacted idealDevice s₁ s' ↔ BufferHolds idealDevice s₁) := by
  obtain ⟨s, s₀, s₁, boot, -, reset, set, sound, -⟩ := boot_ping idealDevice_reliable blankMedia
  exact ⟨s, s₀, s₁, boot, reset, set,
    (compaction_keeps_entries_iff idealDevice_reliable sound.toInitialised
      (placed_of_sound sound)).1⟩

theorem compaction_loses_ping :
    ∃ s s₀ s₁ rc s', datRepoInit idealDevice (powerOn blankMedia []) 1 = some s ∧
      storageFlightPlanReset idealDevice s = some (schStOk, s₀) ∧
      stepCall idealDevice s₀ setPing = some (schStOk, s₁) ∧
      flightPlanRebuildTlb idealDevice s₁ = some (rc, s') ∧ ¬ Compacted idealDevice s₁ s' := by
  have works := idealDevice_reliable
  obtain ⟨s, s₀, s₁, boot, -, reset, set, sound, entry⟩ := boot_ping works blankMedia
  obtain ⟨s', run, rewritten⟩ := rebuild_run works sound.toInitialised (placed_of_sound sound)
    (show idealDevice.heap s₁.log.length = some fun _ => 0 from rfl)
  refine ⟨s, s₀, s₁, schStOk, s', boot, reset, set, run, ?_⟩
  rw [rewritten.compacted_iff works sound.toInitialised]
  intro holds
  have live : (s₁.stFlightplanTlb 0).unixtime ≠ stFpNull := by
    intro null
    simp [entrySlot, null] at entry
  have same := holds 0 (by decide) live
  rw [entrySlot, if_neg live] at entry
  rw [entry, read_const] at same
  have time := fpEntryAt_time same
  exact absurd time (by decide)

end FlashRebuild
