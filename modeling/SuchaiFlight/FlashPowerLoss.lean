import SuchaiFlight.FlashRestart

/-!
Power loss while an entry is inserted on the FLASH back end. An insertion
writes the TLB slot, then the used-page counter and the page last. If the
first of these is kept and the last is lost, the slot refers to a page that
was never written.
-/
namespace FlashPowerLoss
open ByteMemory NonVolatile CStrings StorageApi SlotTable FlashStorage FlashOperations FlashSections
open FlashTable FlashRestart

variable {dev : Device} {s s' s'' : FlashStore} {rc : Int32}

def Inserts (dev : Device) (s : FlashStore) (row : FpEntry) (ops : List NvOp) : Prop :=
  ∃ rc s', storageFlightPlanSetSt dev s (some row) = some (rc, s') ∧
    s'.log = ops.reverse ++ s.log

def SparesLive (tlb : Nat → FpAddr) : NvOp → Prop
  | .flashWrite addr data => ∀ i < schFpMaxEntries, (tlb i).unixtime ≠ stFpNull →
      addr + data.length ≤ (tlb i).addr.toNat ∨ (tlb i).addr.toNat + fpContainerSize ≤ addr
  | _ => True

structure Row (row : FpEntry) : Prop where
  real : row.unixtime ≠ stFpNull
  cmd : row.cmd.isSome
  args : row.args.isSome

def AnyText (_ : CString) : Prop := True

structure NoDangling (dev : Device) (s : FlashStore) : Prop where
  written : ∀ i < schFpMaxEntries, (s.stFlightplanTlb i).unixtime ≠ stFpNull →
    ∃ n < commandsPerSection, (s.stFlightplanTlb i).addr = pageOf n ∧
      PageHolds dev.endian AnyText s n (s.stFlightplanTlb i).unixtime
  distinct : ∀ i < schFpMaxEntries, ∀ j < schFpMaxEntries,
    (s.stFlightplanTlb i).unixtime ≠ stFpNull → (s.stFlightplanTlb j).unixtime ≠ stFpNull →
      i ≠ j → (s.stFlightplanTlb i).addr ≠ (s.stFlightplanTlb j).addr
  next : ∀ row, Row row → ∃ ops, Inserts dev s row ops ∧ ∀ op ∈ ops, SparesLive s.stFlightplanTlb op

/-- The store after a start on the devices as the first writes left them. -/
def Recovers (dev : Device) (s : FlashStore) (ops : List NvOp) (s'' : FlashStore) : Prop :=
  ∃ lastSensor,
    datRepoInit dev (powerOn (replay s.media ops) (ops.reverse ++ s.log)) lastSensor = some s''

/-- The insertion can lose power after `k` of its writes. -/
def PowerLossSafe (dev : Device) (s : FlashStore) (row : FpEntry) (k : Nat) : Prop :=
  ∃ ops, Inserts dev s row ops ∧ ∀ s'', Recovers dev s (ops.take k) s'' → NoDangling dev s''

/-- The condition: nothing is inserted, or the power loss comes before the
    first write, or after the last one if the table can take the next entry. -/
def CutSafe (tlb : Nat → FpAddr) (k : Nat) : Prop :=
  liveCount tlb = schFpMaxEntries ∨
    usedPages tlb < commandsPerSection ∧
      (k = 0 ∨ 3 ≤ k ∧ (usedPages tlb + 1 < commandsPerSection ∨
        liveCount tlb + 1 = schFpMaxEntries))

/-! Free slots. -/

theorem findIndex_none_iff :
    storageFlightplanFindIndexTlb s stFpNull = none ↔
      liveCount s.stFlightplanTlb = schFpMaxEntries := by
  have le := contents_card_le schFpMaxEntries (liveSlot s.stFlightplanTlb)
  have lt : (contents schFpMaxEntries (liveSlot s.stFlightplanTlb)).card < schFpMaxEntries ↔
      ∃ i < schFpMaxEntries, liveSlot s.stFlightplanTlb i = none := contents_card_lt_iff
  have free : ∀ i, liveSlot s.stFlightplanTlb i = none ↔
      (s.stFlightplanTlb i).unixtime = stFpNull := by
    intro i
    simp [liveSlot]
  simp only [storageFlightplanFindIndexTlb, first_eq_none_iff, decide_eq_false_iff_not]
  constructor
  · intro taken
    by_contra room
    obtain ⟨i, inside, null⟩ := lt.mp (Nat.lt_of_le_of_ne le room)
    exact taken i inside ((free i).mp null)
  · intro full i inside null
    have room := lt.mpr ⟨i, inside, (free i).mpr null⟩
    exact absurd full (Nat.ne_of_lt room)

/-! Insertions on a sound table. -/

theorem inserts_nothing (sound : Sound dev.endian AnyText s)
    (full : storageFlightplanFindIndexTlb s stFpNull = none) (row : FpEntry) :
    Inserts dev s row [] := by
  refine ⟨schStError, s, ?_, rfl⟩
  rw [storageFlightPlanSetSt_eq sound.toInitialised sound.few, insertEntry_no_slot row full]

theorem inserts_ops (works : Reliable dev) (sound : Sound dev.endian AnyText s) (row : FpEntry)
    {cmd args : CString} (hc : row.cmd = some cmd) (ha : row.args = some args) {index : Nat}
    (free : storageFlightplanFindIndexTlb s stFpNull = some index)
    (room : usedPages s.stFlightplanTlb < commandsPerSection) :
    Inserts dev s row (insertOps dev.endian (insertTlb s.stFlightplanTlb index row.unixtime) index
      (flightplanBase + usedPages s.stFlightplanTlb * fpContainerSize)
      (newEntry row cmd args)) := by
  refine ⟨schStOk, insertedStore dev.endian s index row cmd args, ?_, rfl⟩
  rw [storageFlightPlanSetSt_eq sound.toInitialised sound.few]
  exact insertEntry_reliable works sound.toInitialised row hc ha free room

theorem inserts_unique {row : FpEntry} {ops ops' : List NvOp} (first : Inserts dev s row ops)
    (second : Inserts dev s row ops') : ops = ops' := by
  obtain ⟨rc, s₁, run, log⟩ := first
  obtain ⟨rc', s₂, run', log'⟩ := second
  rw [run] at run'
  obtain ⟨-, rfl⟩ := Prod.mk.inj (Option.some.inj run')
  rw [log] at log'
  exact List.reverse_injective (List.append_cancel_right log')

theorem not_inserts (sound : Sound dev.endian AnyText s) {index : Nat}
    (free : storageFlightplanFindIndexTlb s stFpNull = some index)
    (full : usedPages s.stFlightplanTlb = commandsPerSection) (row : FpEntry) (ops : List NvOp) :
    ¬ Inserts dev s row ops := by
  rintro ⟨rc, s', run, -⟩
  rw [storageFlightPlanSetSt_eq sound.toInitialised sound.few,
    insertEntry_no_page sound.toInitialised row free full] at run
  contradiction

theorem insertOps_spare (sound : Sound dev.endian AnyText s) (tlb : Nat → FpAddr) (index : Nat)
    (row : FpEntry) (cmd args : CString) :
    ∀ op ∈ insertOps dev.endian tlb index
      (flightplanBase + usedPages s.stFlightplanTlb * fpContainerSize) (newEntry row cmd args),
      SparesLive s.stFlightplanTlb op := by
  intro op mem
  simp only [insertOps, List.cons_append, List.nil_append, List.mem_cons, List.not_mem_nil,
    or_false] at mem
  rcases mem with rfl | rfl | rfl
  · trivial
  · trivial
  · intro i inside live
    obtain ⟨n, below, place⟩ := sound.counted i inside live
    right
    rw [place, pageOf_toNat (Nat.lt_of_lt_of_le below sound.few), Nat.add_assoc]
    exact Nat.add_le_add_left (page_before below) _

theorem noDangling_of_sound (works : Reliable dev) (sound : Sound dev.endian AnyText s)
    (ready : usedPages s.stFlightplanTlb < commandsPerSection ∨
      liveCount s.stFlightplanTlb = schFpMaxEntries) : NoDangling dev s := by
  refine ⟨?_, sound.distinct, ?_⟩
  · intro i inside live
    obtain ⟨n, below, place⟩ := sound.counted i inside live
    exact ⟨n, Nat.lt_of_lt_of_le below sound.few, place,
      sound.written i inside live n below place⟩
  · intro row valid
    obtain ⟨cmd, hc⟩ := Option.isSome_iff_exists.mp valid.cmd
    obtain ⟨args, ha⟩ := Option.isSome_iff_exists.mp valid.args
    cases free : storageFlightplanFindIndexTlb s stFpNull with
    | none => exact ⟨[], inserts_nothing sound free row, by simp⟩
    | some index =>
      have room : usedPages s.stFlightplanTlb < commandsPerSection := by
        rcases ready with room | taken
        · exact room
        · rw [findIndex_none_iff.mpr taken] at free
          contradiction
      exact ⟨_, inserts_ops works sound row hc ha free room, insertOps_spare sound _ _ _ _ _⟩

/-! Recovery. -/

theorem recovers_exists (dev : Device) (s : FlashStore) (ops : List NvOp) :
    ∃ s'', Recovers dev s ops s'' := by
  obtain ⟨s'', boot, -⟩ := datRepoInit_initialised dev (replay s.media ops) (ops.reverse ++ s.log) 1
  exact ⟨s'', 1, boot⟩

theorem recovers_mirrored (works : Reliable dev) {ops : List NvOp}
    (recovers : Recovers dev s ops s'') :
    Initialised s'' ∧ Mirrored dev.endian s'' ∧ s''.media = replay s.media ops ∧
      s''.log = ops.reverse ++ s.log := by
  obtain ⟨lastSensor, boot⟩ := recovers
  exact boot_mirrored (fun n => works.reads n _) boot

theorem mirrored_slot {i : Nat} {slot : FpAddr} (mirrored : Mirrored dev.endian s)
    (inside : i ≤ schFpMaxEntries)
    (image : slotImage s.media.fram i = fpAddrBytes dev.endian slot) :
    s.stFlightplanTlb i = slot := by
  have same := congrArg (fpAddrAt dev.endian) ((mirrored i inside).symm.trans image)
  simpa using same

theorem sound_congr {short : CString → Prop} (sound : Sound dev.endian short s)
    (init : Initialised s') (flash : s'.media.flash = s.media.flash) (log : s'.log = s.log)
    (tlb : ∀ i ≤ schFpMaxEntries, s'.stFlightplanTlb i = s.stFlightplanTlb i) :
    Sound dev.endian short s' := by
  have used : usedPages s'.stFlightplanTlb = usedPages s.stFlightplanTlb := by
    rw [usedPages, tlb _ (Nat.le_refl _), usedPages]
  have slot : ∀ i < schFpMaxEntries, s'.stFlightplanTlb i = s.stFlightplanTlb i :=
    fun i inside => tlb i (Nat.le_of_lt inside)
  refine ⟨⟨init, used ▸ sound.few, ?_⟩, ?_, ?_, ?_⟩
  · intro i inside
    rw [slot i inside, used]
    exact sound.counted i inside
  · intro i hi j hj
    rw [slot i hi, slot j hj]
    exact sound.distinct i hi j hj
  · intro i inside
    rw [slot i inside, used]
    intro live n below place
    obtain ⟨⟨e, cmd, args, time, hc, ha, bytes⟩, programmed⟩ :=
      sound.written i inside live n below place
    exact ⟨⟨e, cmd, args, time, hc, ha, flash ▸ bytes⟩, log ▸ programmed⟩
  · rw [used, log]
    exact sound.blank

theorem recovers_sound (works : Reliable dev) {ops : List NvOp}
    (recovers : Recovers dev s ops s'') (sound : Sound dev.endian AnyText s')
    (mirrored : Mirrored dev.endian s') (media : s'.media = replay s.media ops)
    (log : s'.log = ops.reverse ++ s.log) :
    Sound dev.endian AnyText s'' ∧ Mirrored dev.endian s'' ∧
      ∀ i ≤ schFpMaxEntries, s''.stFlightplanTlb i = s'.stFlightplanTlb i := by
  obtain ⟨init, mirrored', media', log'⟩ := recovers_mirrored works recovers
  have tlb : ∀ i ≤ schFpMaxEntries, s''.stFlightplanTlb i = s'.stFlightplanTlb i := by
    intro i inside
    refine mirrored_slot mirrored' inside ?_
    rw [media', ← media]
    exact mirrored i inside
  exact ⟨sound_congr sound init (by rw [media', media]) (by rw [log', log]) tlb, mirrored', tlb⟩

theorem counts_congr {tlb tlb' : Nat → FpAddr} (same : ∀ i ≤ schFpMaxEntries, tlb' i = tlb i) :
    usedPages tlb' = usedPages tlb ∧ liveCount tlb' = liveCount tlb := by
  constructor
  · rw [usedPages, same _ (Nat.le_refl _), usedPages]
  · rw [liveCount, liveCount]
    congr 1
    apply contents_congr
    intro i inside
    rw [liveSlot, same i (Nat.le_of_lt inside), liveSlot]

theorem cut_dangles (works : Reliable dev) (sound : Sound dev.endian AnyText s) {row : FpEntry}
    (real : row.unixtime ≠ stFpNull) {index : Nat}
    (free : storageFlightplanFindIndexTlb s stFpNull = some index)
    (room : usedPages s.stFlightplanTlb < commandsPerSection) (cmd args : CString) {k : Nat}
    (started : 1 ≤ k) (cut : k < 3)
    (recovers : Recovers dev s ((insertOps dev.endian
      (insertTlb s.stFlightplanTlb index row.unixtime) index
      (flightplanBase + usedPages s.stFlightplanTlb * fpContainerSize)
      (newEntry row cmd args)).take k) s'') : ¬ NoDangling dev s'' := by
  have inside := (first_eq_some_iff.mp free).1
  obtain ⟨-, mirrored, media, log⟩ := recovers_mirrored works recovers
  have slot : s''.stFlightplanTlb index = ⟨pageOf (usedPages s.stFlightplanTlb), row.unixtime⟩ := by
    refine mirrored_slot mirrored (Nat.le_of_lt inside) ?_
    have new : insertTlb s.stFlightplanTlb index row.unixtime index =
        ⟨pageOf (usedPages s.stFlightplanTlb), row.unixtime⟩ := tlbWith_same inside
    rw [media, ← new]
    obtain rfl | rfl : k = 1 ∨ k = 2 := by omega
    · simp [insertOps, replay, slotImage_slotOp]
    · simp [insertOps, replay, slotImage_slotOp, Nat.ne_of_lt inside]
  have unprogrammed : ∀ x, Programmed s''.log x ↔ Programmed s.log x := by
    intro x
    rw [log]
    obtain rfl | rfl : k = 1 ∨ k = 2 := by omega
    · simp [insertOps, slotOp, Programmed]
    · simp [insertOps, slotOp, Programmed]
  intro fine
  obtain ⟨n, bound, place, holds⟩ := fine.written index inside (by rw [slot]; exact real)
  rw [slot] at place
  obtain rfl := pageOf_inj room bound place
  have first := holds.2 0 (by decide)
  have page := page_in_section room
  have positive : 0 < fpContainerSize := by decide
  exact sound.blank _ (by omega) (by omega) ((unprogrammed _).mp first)

theorem cut_before (works : Reliable dev) (sound : Sound dev.endian AnyText s)
    (mirrored : Mirrored dev.endian s) (recovers : Recovers dev s [] s'') :
    Sound dev.endian AnyText s'' ∧ Mirrored dev.endian s'' ∧
      usedPages s''.stFlightplanTlb = usedPages s.stFlightplanTlb ∧
      liveCount s''.stFlightplanTlb = liveCount s.stFlightplanTlb := by
  obtain ⟨sound', mirrored', tlb⟩ := recovers_sound works recovers sound mirrored rfl rfl
  exact ⟨sound', mirrored', counts_congr tlb⟩

theorem cut_after (works : Reliable dev) (sound : Sound dev.endian AnyText s)
    (mirrored : Mirrored dev.endian s) {row : FpEntry} {cmd args : CString}
    (real : row.unixtime ≠ stFpNull) (hc : row.cmd = some cmd) (ha : row.args = some args)
    {index : Nat} (free : storageFlightplanFindIndexTlb s stFpNull = some index)
    (room : usedPages s.stFlightplanTlb < commandsPerSection) {k : Nat} (done : 3 ≤ k)
    (recovers : Recovers dev s ((insertOps dev.endian
      (insertTlb s.stFlightplanTlb index row.unixtime) index
      (flightplanBase + usedPages s.stFlightplanTlb * fpContainerSize)
      (newEntry row cmd args)).take k) s'') :
    Sound dev.endian AnyText s'' ∧ Mirrored dev.endian s'' ∧
      usedPages s''.stFlightplanTlb = usedPages s.stFlightplanTlb + 1 ∧
      liveCount s''.stFlightplanTlb = liveCount s.stFlightplanTlb + 1 := by
  obtain ⟨inside, null, -⟩ := first_eq_some_iff.mp free
  rw [List.take_of_length_le (by simpa [insertOps] using done)] at recovers
  have inserted := insertEntry_backedUp works.writes sound.toInitialised mirrored
    (insertEntry_reliable works sound.toInitialised row hc ha free room)
  obtain ⟨sound', mirrored', tlb⟩ := recovers_sound works recovers
    (sound_inserted sound inside room trivial trivial) inserted.mirrored rfl rfl
  have counts := counts_congr tlb
  refine ⟨sound', mirrored', ?_, ?_⟩
  · rw [counts.1, insertedStore_used dev.endian inside room]
  · rw [counts.2]
    exact liveCount_tlbWith inside (by simpa using null) real

section Safe
variable {row : FpEntry} {k : Nat}

theorem CutSafe.room (safe : CutSafe s.stFlightplanTlb k) {index : Nat}
    (free : storageFlightplanFindIndexTlb s stFpNull = some index) :
    usedPages s.stFlightplanTlb < commandsPerSection ∧ (k = 0 ∨ 3 ≤ k ∧
      (usedPages s.stFlightplanTlb + 1 < commandsPerSection ∨
        liveCount s.stFlightplanTlb + 1 = schFpMaxEntries)) := by
  refine safe.resolve_left ?_
  intro full
  rw [findIndex_none_iff.mpr full] at free
  contradiction

theorem cutSafe_recovers (works : Reliable dev) (sound : Sound dev.endian AnyText s)
    (mirrored : Mirrored dev.endian s) (valid : Row row) (safe : CutSafe s.stFlightplanTlb k) :
    ∃ ops, Inserts dev s row ops ∧ ∀ s'', Recovers dev s (ops.take k) s'' →
      Sound dev.endian AnyText s'' ∧ Mirrored dev.endian s'' ∧
      (usedPages s''.stFlightplanTlb < commandsPerSection ∨
        liveCount s''.stFlightplanTlb = schFpMaxEntries) := by
  obtain ⟨cmd, hc⟩ := Option.isSome_iff_exists.mp valid.cmd
  obtain ⟨args, ha⟩ := Option.isSome_iff_exists.mp valid.args
  cases free : storageFlightplanFindIndexTlb s stFpNull with
  | none =>
    refine ⟨[], inserts_nothing sound free row, ?_⟩
    intro s'' recovers
    rw [List.take_nil] at recovers
    obtain ⟨sound', mirrored', -, live⟩ := cut_before works sound mirrored recovers
    exact ⟨sound', mirrored', .inr (live.trans (findIndex_none_iff.mp free))⟩
  | some index =>
    obtain ⟨room, when⟩ := safe.room free
    refine ⟨_, inserts_ops works sound row hc ha free room, ?_⟩
    intro s'' recovers
    rcases when with rfl | ⟨done, next⟩
    · obtain ⟨sound', mirrored', used, -⟩ := cut_before works sound mirrored recovers
      exact ⟨sound', mirrored', .inl (by omega)⟩
    · obtain ⟨sound', mirrored', used, live⟩ := cut_after works sound mirrored valid.real hc ha free
        room done recovers
      rw [used, live]
      exact ⟨sound', mirrored', next⟩

theorem cutSafe_of_powerLossSafe (works : Reliable dev) (sound : Sound dev.endian AnyText s)
    (mirrored : Mirrored dev.endian s) (valid : Row row) (safe : PowerLossSafe dev s row k) :
    CutSafe s.stFlightplanTlb k := by
  obtain ⟨cmd, hc⟩ := Option.isSome_iff_exists.mp valid.cmd
  obtain ⟨args, ha⟩ := Option.isSome_iff_exists.mp valid.args
  obtain ⟨ops, inserts, fine⟩ := safe
  cases free : storageFlightplanFindIndexTlb s stFpNull with
  | none => exact .inl (findIndex_none_iff.mp free)
  | some index =>
    rcases Nat.lt_or_eq_of_le sound.few with room | full
    · obtain rfl := inserts_unique inserts (inserts_ops works sound row hc ha free room)
      obtain ⟨s'', recovers⟩ := recovers_exists dev s (List.take k _)
      have good := fine s'' recovers
      refine .inr ⟨room, ?_⟩
      rcases Nat.eq_zero_or_pos k with zero | started
      · exact .inl zero
      · have done : 3 ≤ k := by
          by_contra cut
          exact cut_dangles works sound valid.real free room cmd args started (by omega) recovers
            good
        obtain ⟨sound', -, used, live⟩ := cut_after works sound mirrored valid.real hc ha free room
          done recovers
        refine .inr ⟨done, ?_⟩
        -- the next entry finds a page, or no slot
        cases free' : storageFlightplanFindIndexTlb s'' stFpNull with
        | none => exact .inr (live.symm.trans (findIndex_none_iff.mp free'))
        | some other =>
          left
          by_contra last
          obtain ⟨ops', inserts', -⟩ := good.next row valid
          exact not_inserts sound' free' (by omega) row ops' inserts'
    · exact absurd inserts (not_inserts sound free full row ops)

theorem powerLossSafe_iff (works : Reliable dev) (sound : Sound dev.endian AnyText s)
    (mirrored : Mirrored dev.endian s) (valid : Row row) :
    PowerLossSafe dev s row k ↔ CutSafe s.stFlightplanTlb k := by
  constructor
  · exact cutSafe_of_powerLossSafe works sound mirrored valid
  · intro safe
    obtain ⟨ops, inserts, fine⟩ := cutSafe_recovers works sound mirrored valid safe
    refine ⟨ops, inserts, ?_⟩
    intro s'' recovers
    obtain ⟨sound', -, ready⟩ := fine s'' recovers
    exact noDangling_of_sound works sound' ready

end Safe

/-! Runs with power losses. -/

/-- The tables that are reached from a reset on by calls, restarts, and power
    losses during insertions, as long as these come at safe points. -/
inductive Reached (dev : Device) : FlashStore → Prop where
  | reset {media : Media} {log : List NvOp} {lastSensor : Nat} {s s' : FlashStore} {rc : Int32}
      (boot : datRepoInit dev (powerOn media log) lastSensor = some s)
      (run : storageFlightPlanReset dev s = some (rc, s')) : Reached dev s'
  | call {s s' : FlashStore} {call : FlashCall} {rc : Int32} (before : Reached dev s)
      (run : stepCall dev s call = some (rc, s')) : Reached dev s'
  | restart {s s' : FlashStore} (before : Reached dev s) (recovers : Recovers dev s [] s') :
      Reached dev s'
  | powerLoss {s s' : FlashStore} {row : FpEntry} {ops : List NvOp} {k : Nat}
      (before : Reached dev s) (valid : Row row) (inserts : Inserts dev s row ops)
      (safe : CutSafe s.stFlightplanTlb k) (recovers : Recovers dev s (ops.take k) s') :
      Reached dev s'

theorem texts_any (call : FlashCall) : Texts AnyText call := by
  cases call with
  | set t command args executions period node => exact ⟨fun _ _ => trivial, fun _ _ => trivial⟩
  | getArgs t => trivial
  | deleteRow t => trivial
  | deleteRowIdx index => trivial
  | reset => trivial

theorem reached_sound (works : Reliable dev) (reached : Reached dev s) :
    Sound dev.endian AnyText s ∧ Mirrored dev.endian s := by
  induction reached with
  | reset boot run =>
    obtain ⟨init, -⟩ := boot_mirrored (fun n => works.reads n _) boot
    have backed := reset_backedUp works.writes init run
    rw [storageFlightPlanReset_reliable works.writes init] at run
    obtain ⟨-, rfl⟩ := Prod.mk.inj (Option.some.inj run)
    exact ⟨sound_reset init, backed.mirrored⟩
  | call before run ih =>
    obtain ⟨sound, mirrored⟩ := ih
    have change := stepCall_change works sound.toInitialised sound.few run
    exact ⟨change_sound sound (texts_any _) change,
      (stepCall_backedUp works.writes sound.toInitialised mirrored run).mirrored⟩
  | restart before recovers ih =>
    obtain ⟨sound, mirrored, -⟩ := cut_before works ih.1 ih.2 recovers
    exact ⟨sound, mirrored⟩
  | powerLoss before valid inserts safe recovers ih =>
    obtain ⟨ops', inserts', fine⟩ := cutSafe_recovers works ih.1 ih.2 valid safe
    obtain rfl := inserts_unique inserts inserts'
    obtain ⟨sound, mirrored, -⟩ := fine _ recovers
    exact ⟨sound, mirrored⟩

/-- On every table that is reached, and for every entry, a power loss leaves
    no dangling entry exactly at the safe points. -/
theorem power_loss_safe_iff (works : Reliable dev) (reached : Reached dev s) {row : FpEntry}
    (valid : Row row) (k : Nat) : PowerLossSafe dev s row k ↔ CutSafe s.stFlightplanTlb k := by
  obtain ⟨sound, mirrored⟩ := reached_sound works reached
  exact powerLossSafe_iff works sound mirrored valid

theorem row_ping : Row pingRow := ⟨by decide, rfl, rfl⟩

theorem power_loss_safe_after_ping :
    ∃ s s₀, datRepoInit idealDevice (powerOn blankMedia []) 1 = some s ∧
      storageFlightPlanReset idealDevice s = some (schStOk, s₀) ∧
      PowerLossSafe idealDevice s₀ pingRow 3 := by
  have works := idealDevice_reliable
  obtain ⟨s, s₀, boot, -, reset, -, -, empty⟩ := boot_reset works blankMedia AnyText
  refine ⟨s, s₀, boot, reset, (power_loss_safe_iff works (.reset boot reset) row_ping 3).mpr ?_⟩
  right
  rw [empty]
  exact ⟨by decide, .inr ⟨by decide, .inl (by decide)⟩⟩

theorem power_loss_dangles :
    ∃ s s₀, datRepoInit idealDevice (powerOn blankMedia []) 1 = some s ∧
      storageFlightPlanReset idealDevice s = some (schStOk, s₀) ∧
      ¬ PowerLossSafe idealDevice s₀ pingRow 2 := by
  have works := idealDevice_reliable
  obtain ⟨s, s₀, boot, -, reset, sound, free, empty⟩ := boot_reset works blankMedia AnyText
  refine ⟨s, s₀, boot, reset, ?_⟩
  rintro ⟨ops, inserts, fine⟩
  have room : usedPages s₀.stFlightplanTlb < commandsPerSection := by
    rw [empty]
    decide
  have slot := findIndex_allFree free
  obtain rfl := inserts_unique inserts
    (inserts_ops works sound pingRow rfl rfl slot room)
  obtain ⟨s'', recovers⟩ := recovers_exists idealDevice s₀ (List.take 2 _)
  exact cut_dangles works sound row_ping.real slot room _ _ (by decide) (by decide) recovers
    (fine s'' recovers)

end FlashPowerLoss
