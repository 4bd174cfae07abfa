import SuchaiFlight.FlashTable
import SuchaiFlight.FlightPlanCalls
import SuchaiFlight.RepoFlightPlan

/-!
A free slot of the flight plan table is one of time `ST_FP_NULL`, which is -1,
and every lookup by time compares with the times of free slots as well. The
calls of `repoData.c` on the RAM and the FLASH back end, for every integer that
a time can be.
-/
namespace FreeSlotSentinel
open CStrings NonVolatile StorageApi RepoData RepoFlightPlan SlotTable

section Calls
variable {σ : Type} (S : Storage σ) (c : Config)

/-- Both calls return an error and leave the store, with its table and its
    `dat_fpl_queue`, as it is. -/
def Refused (s : σ) (t : Int32) : Prop :=
  (∃ rc, rc ≠ schStOk ∧ datDelFp S c s t = some (rc, s)) ∧
    ∃ rc, rc ≠ schStOk ∧ datGetFp S c s t = some (.error rc, s)

/-- `dat_del_fp(t)` and `dat_get_fp(t)` succeed only for an entry of time `t`
    that was set and is still in the table, whose times are `times`. -/
structure EntriesOnly (times : σ → Int32 → Prop) (history : List (PlanCall × Int32)) (s : σ)
    (t : Int32) : Prop where
  del_ok : ∀ s', datDelFp S c s t = some (schStOk, s') → times s t ∧ WasSet history t
  get_ok : ∀ out s', datGetFp S c s t = some (.ok out, s') → times s t ∧ WasSet history t
  refused : ¬ (times s t ∧ WasSet history t) → Refused S c s t

variable {S c}

theorem entriesOnly_of_refused {times : σ → Int32 → Prop} {history : List (PlanCall × Int32)}
    {s : σ} {t : Int32} (refused : ¬ (times s t ∧ WasSet history t) → Refused S c s t) :
    EntriesOnly S c times history s t where
  del_ok := by
    intro s' ok
    by_contra absent
    obtain ⟨⟨rc, failed, run⟩, -⟩ := refused absent
    rw [run] at ok
    cases ok
    exact failed rfl
  get_ok := by
    intro out s' ok
    by_contra absent
    obtain ⟨-, rc, failed, run⟩ := refused absent
    rw [run] at ok
    cases ok
  refused := refused

theorem takes_fewer {α κ : Type} {key : α → κ} {k : κ} {m m' : Multiset α} {found : Option α}
    (takes : Takes key k m found m') : ∀ a ∈ m', a ∈ m := by
  intro a mem
  cases found with
  | none => rwa [takes.2] at mem
  | some b =>
    rw [takes.2]
    exact Multiset.mem_cons_of_mem mem

end Calls

/-! The RAM back end. -/

section Ram
open RamStorage RamFlightPlan FlightPlanCalls
variable {c : Config} {s s' : RamStore} {db : Nat → FpEntry} {status : Nat → UInt32}
  {history : List (PlanCall × Int32)} {t : Int32}

def ramTimes (s : RamStore) (t : Int32) : Prop := ∃ e ∈ liveEntries s, e.unixtime = t

def ramHasFree (s : RamStore) : Prop := (liveEntries s).card < schFpMaxEntries

theorem live_withSlot_clear (stocked : Stocked c s db status) {i : Nat} {status' : Nat → UInt32}
    (stocked' : Stocked c s' (Function.update db i (fpEntryClear c.schCommNode)) status') :
    ∀ e ∈ liveEntries s', e ∈ liveEntries s := by
  intro e mem
  rw [stocked'.live_eq, slots_update, slotOf_clear] at mem
  rw [stocked.live_eq]
  obtain ⟨j, bound, slot⟩ := mem_contents.mp mem
  by_cases eq : j = i
  · rw [eq, Function.update_self] at slot
    cases slot
  · rw [Function.update_of_ne eq] at slot
    exact mem_contents.mpr ⟨j, bound, slot⟩

theorem datDelFp_null (stocked : Stocked c s db status) (free : ramHasFree s) :
    ∃ s' db' status', datDelFp (ramStorage c) c s stFpNull = some (schStOk, s') ∧
      Stocked c s' db' status' ∧ ∀ e ∈ liveEntries s', e ∈ liveEntries s := by
  cases scan : first schFpMaxEntries fun i => decide (stFpNull = (db i).unixtime) with
  | none => exact absurd free ((scan_null_eq_none_iff stocked).mp scan)
  | some i =>
    obtain ⟨s', status', write, -, stocked', -, -⟩ :=
      queue_write (stocked.withSlot i (Or.inl rfl)) (counter c status - 1)
    have delete : (ramStorage c).storageFlightPlanDeleteRow s stFpNull = some (schStOk,
        { s with flightplanDb := some (Function.update db i (fpEntryClear c.schCommNode)) }) := by
      simp [ramStorage, storageFlightPlanDeleteRow, stocked.isOpen, stocked.dbEq, stocked.sizeEq,
        scan]
    refine ⟨s', _, status', ?_, stocked', live_withSlot_clear stocked stocked'⟩
    simp [datDelFp, queue_read stocked.toReady, delete, write]

theorem datDelFp_null_full (stocked : Stocked c s db status) (full : ¬ ramHasFree s) :
    datDelFp (ramStorage c) c s stFpNull = some (schStError, s) := by
  have scan := (scan_null_eq_none_iff stocked).mpr full
  have delete : (ramStorage c).storageFlightPlanDeleteRow s stFpNull = some (schStError, s) := by
    simp [ramStorage, storageFlightPlanDeleteRow, stocked.isOpen, stocked.dbEq, stocked.sizeEq,
      scan]
  simp [datDelFp, queue_read stocked.toReady, delete, schStError_ne]

theorem ramTimes_ne_null (stocked : Stocked c s db status) (live : ramTimes s t) :
    t ≠ stFpNull := by
  obtain ⟨e, mem, rfl⟩ := live
  rw [stocked.live_eq] at mem
  obtain ⟨i, -, slot⟩ := mem_contents.mp mem
  simp only [slots, slotOf] at slot
  split at slot
  · cases slot
  · rename_i real
    cases slot
    exact real

theorem ram_refused (stocked : Stocked c s db status) (real : t ≠ stFpNull)
    (absent : ¬ ramTimes s t) : Refused (ramStorage c) c s t := by
  constructor
  · obtain ⟨found, rc, s', db', status', run, -, ok, takes, -, same⟩ := datDelFp_spec stocked real
    have miss := takes_none takes absent
    obtain ⟨rfl, -⟩ := same miss
    exact ⟨rc, fun yes => by simp [miss] at ok; exact ok yes, run⟩
  · obtain ⟨found, res, s', db', status', run, -, delivers, takes, -, same⟩ :=
      datGetFp_spec stocked real
    have miss := takes_none takes absent
    obtain ⟨rfl, -⟩ := same miss
    subst miss
    cases res with
    | ok out => exact absurd delivers (by simp [Delivers])
    | error rc =>
      simp only [Delivers] at delivers
      exact ⟨rc, by rw [delivers]; exact schStError_ne, run⟩

theorem ram_entriesOnly_iff (stocked : Stocked c s db status)
    (known : ∀ t, ramTimes s t → WasSet history t) :
    EntriesOnly (ramStorage c) c ramTimes history s t ↔ t ≠ stFpNull ∨ ¬ ramHasFree s := by
  constructor
  · intro only
    by_contra null
    simp only [not_or, not_not] at null
    obtain ⟨rfl, free⟩ := null
    obtain ⟨s', db', status', run, -, -⟩ := datDelFp_null stocked free
    exact ramTimes_ne_null stocked (only.del_ok s' run).1 rfl
  · intro safe
    apply entriesOnly_of_refused
    intro absent
    have gone : ¬ ramTimes s t := fun live => absent ⟨live, known t live⟩
    by_cases real : t = stFpNull
    · subst real
      have full : ¬ ramHasFree s := safe.resolve_left (by simp)
      refine ⟨⟨schStError, schStError_ne, datDelFp_null_full stocked full⟩, schStError,
        schStError_ne, ?_⟩
      rw [datGetFp_null stocked]
      exact if_neg full
    · exact ram_refused stocked real gone

def RamKnown (c : Config) (history : List (PlanCall × Int32)) (s : RamStore) : Prop :=
  (∃ db status, Stocked c s db status) ∧ ∀ t, ramTimes s t → WasSet history t

theorem datSetFp_refused (stocked : Stocked c s db status) {command args : Option CString}
    {executions periodical : Int32} (bad : t < 0 ∨ command = none ∨ args = none) :
    datSetFp (ramStorage c) c s t command args executions periodical = some (schStError, s) := by
  have refuse : (ramStorage c).storageFlightPlanSet s t command args executions periodical
      c.schCommNode = some (schStError, s) := by
    rcases bad with early | rfl | rfl <;> simp [ramStorage, storageFlightPlanSet, *]
  simp [datSetFp, queue_read stocked.toReady, refuse, schStError_ne]

theorem fewer_known (known : ∀ t, ramTimes s t → WasSet history t) (last : PlanCall × Int32)
    (fewer : ∀ e ∈ liveEntries s', e ∈ liveEntries s) :
    ∀ t, ramTimes s' t → WasSet (last :: history) t := by
  rintro t ⟨e, mem, time⟩
  exact (known t ⟨e, fewer e mem, time⟩).later last

theorem ram_known_step (known : RamKnown c history s) {call : PlanCall} {rc : Int32}
    (run : stepPlan (ramStorage c) c s call = some (rc, s')) :
    RamKnown c ((call, rc) :: history) s' := by
  obtain ⟨⟨db, status, stocked⟩, times⟩ := known
  have unchanged : s' = s → RamKnown c ((call, rc) :: history) s' := by
    rintro rfl
    exact ⟨⟨db, status, stocked⟩, fewer_known times _ fun _ mem => mem⟩
  cases call with
  | set t command args executions periodical =>
    by_cases bad : t < 0 ∨ command = none ∨ args = none
    · rw [stepPlan, datSetFp_refused stocked bad] at run
      cases run
      exact unchanged rfl
    · simp only [not_or, Int32.not_lt] at bad
      obtain ⟨sign, hc, ha⟩ := bad
      obtain ⟨cmd, rfl⟩ := Option.ne_none_iff_exists'.mp hc
      obtain ⟨text, rfl⟩ := Option.ne_none_iff_exists'.mp ha
      obtain ⟨rc', s'', db', status', set, stocked', puts, -, -⟩ :=
        datSetFp_spec stocked sign cmd text executions periodical
      rw [stepPlan, set] at run
      cases run
      refine ⟨⟨db', status', stocked'⟩, ?_⟩
      rintro t' ⟨e, mem, time⟩
      by_cases ok : rc = schStOk
      · rw [puts.2.1 ok, Multiset.mem_cons] at mem
        rcases mem with rfl | old
        · subst time
          exact ⟨some cmd, some text, executions, periodical, by simp [ok]⟩
        · exact (times t' ⟨e, old, time⟩).later _
      · rw [puts.2.2 ok] at mem
        exact (times t' ⟨e, mem, time⟩).later _
  | get t =>
    obtain ⟨⟨res, s''⟩, get, eq⟩ := Option.bind_eq_some_iff.mp run
    have next : s'' = s' := by
      cases res <;> cases eq <;> rfl
    subst next
    by_cases null : t = stFpNull
    · rw [null, datGetFp_null stocked] at get
      split at get
      · cases get
      · cases get
        exact unchanged rfl
    · obtain ⟨found, res', s₁, db', status', got, stocked', -, takes, -, -⟩ :=
        datGetFp_spec stocked null
      rw [got] at get
      cases get
      refine ⟨⟨db', status', stocked'⟩, fewer_known times _ ?_⟩
      exact takes_fewer takes
  | del t =>
    by_cases null : t = stFpNull
    · by_cases free : ramHasFree s
      · obtain ⟨s₁, db', status', del, stocked', fewer⟩ := datDelFp_null stocked free
        rw [stepPlan, null, del] at run
        cases run
        exact ⟨⟨db', status', stocked'⟩, fewer_known times _ fewer⟩
      · rw [stepPlan, null, datDelFp_null_full stocked free] at run
        cases run
        exact unchanged rfl
    · obtain ⟨found, rc', s₁, db', status', del, stocked', -, takes, -, -⟩ :=
        datDelFp_spec stocked null
      rw [stepPlan, del] at run
      cases run
      exact ⟨⟨db', status', stocked'⟩, fewer_known times _ (takes_fewer takes)⟩
  | reset =>
    obtain ⟨s₁, status', -, reset, -, stocked'⟩ := datResetFp_spec stocked
    rw [stepPlan, reset] at run
    cases run
    exact ⟨⟨_, status', stocked'⟩, fewer_known times _ (live_withSlot_clear stocked stocked')⟩
  | deleteMemorySections =>
    obtain ⟨s₁, status', delete, -, stocked'⟩ := datDeleteMemorySections_spec stocked
    rw [stepPlan, delete] at run
    cases run
    exact ⟨⟨_, status', stocked'⟩, fewer_known times _ (live_withSlot_clear stocked stocked')⟩

theorem ram_known_reached {lastSensor : Nat} {s₀ : RamStore}
    (boot : RamStorage.datRepoInit c lastSensor = some s₀)
    (reached : Reached (ramStorage c) c s₀ history s) : RamKnown c history s := by
  induction reached with
  | start =>
    obtain ⟨s₁, boot', fresh⟩ := datRepoInit_fresh c lastSensor
    rw [boot'] at boot
    cases boot
    obtain ⟨⟨db, status, stocked, -⟩, empty⟩ := fresh.kept
    refine ⟨⟨db, status, stocked⟩, ?_⟩
    rintro t ⟨e, mem, -⟩
    simp [empty] at mem
  | call before run ih => exact ram_known_step ih run

end Ram

/-! The FLASH back end. -/

section Flash
open FlashStorage FlashOperations FlashSections FlashTable
variable {dev : Device} {c : Config} {s s' : FlashStore} {rc : Int32}
  {history : List (PlanCall × Int32)} {t : Int32}

def flashTimes (s : FlashStore) (t : Int32) : Prop :=
  t ≠ stFpNull ∧ ∃ i < schFpMaxEntries, (s.stFlightplanTlb i).unixtime = t

def flashHasFree (s : FlashStore) : Prop :=
  ∃ i < schFpMaxEntries, (s.stFlightplanTlb i).unixtime = stFpNull

theorem find_eq_none_iff : storageFlightplanFindIndexTlb s t = none ↔
    ∀ i < schFpMaxEntries, (s.stFlightplanTlb i).unixtime ≠ t := by
  simp [storageFlightplanFindIndexTlb, first_eq_none_iff]

def SameRam (s s' : FlashStore) : Prop :=
  ∃ media log, s' = { s with media := media, log := log }

theorem SameRam.trans {u : FlashStore} (one : SameRam s s') (two : SameRam s' u) : SameRam s u := by
  obtain ⟨media, log, rfl⟩ := one
  obtain ⟨media', log', rfl⟩ := two
  exact ⟨media', log', rfl⟩

theorem SameRam.bounded (same : SameRam s s') (bounded : Bounded s) : Bounded s' := by
  obtain ⟨media, log, rfl⟩ := same
  exact ⟨bounded.of_ram media log s.stFlightplanTlb, bounded.few, bounded.counted⟩

theorem SameRam.times (same : SameRam s s') : flashTimes s' = flashTimes s := by
  obtain ⟨media, log, rfl⟩ := same
  rfl

theorem nvOperation_sameRam (op : NvOp) : SameRam s (nvOperation dev s op).2 := by
  obtain ⟨media, eq⟩ := nvOperation_ram dev s op
  exact ⟨media, op :: s.log, eq⟩

structure FramOnly (s s' : FlashStore) : Prop where
  ram : SameRam s s'
  flash : s'.media.flash = s.media.flash
  programmed : ∀ x, Programmed s'.log x ↔ Programmed s.log x

theorem FramOnly.trans {u : FlashStore} (one : FramOnly s s') (two : FramOnly s' u) :
    FramOnly s u :=
  ⟨one.ram.trans two.ram, two.flash.trans one.flash,
    fun x => (two.programmed x).trans (one.programmed x)⟩

theorem framWrite_framOnly (dev : Device) (s : FlashStore) (addr : Nat) (data : List UInt8) :
    FramOnly s (nvOperation dev s (.framWrite addr data)).2 := by
  refine ⟨nvOperation_sameRam _, ?_, fun x => ?_⟩
  · rw [nvOperation]
    split <;> rfl
  · rw [nvOperation]
    split <;> rfl

theorem statusSet_framOnly (dev : Device) (s : FlashStore) (k : Nat) (value : UInt32) :
    ∃ rc s', (flashStorage dev).storageStatusSetValueIdx s k value = some (rc, s') ∧
      FramOnly s s' := ⟨_, _, rfl, framWrite_framOnly dev s _ _⟩

theorem datSetStatusVar_framOnly (dev : Device) (c : Config) (s : FlashStore) (index : Nat)
    (value : UInt32) :
    ∃ rc s', datSetStatusVar (flashStorage dev) c s index value = some (rc, s') ∧
      FramOnly s s' := by
  unfold datSetStatusVar
  obtain ⟨rc₁, s₁, run₁, same₁⟩ := statusSet_framOnly dev s index value
  obtain ⟨rc₂, s₂, run₂, same₂⟩ :=
    statusSet_framOnly dev s₁ (index + c.datStatusLastAddress) value
  obtain ⟨rc₃, s₃, run₃, same₃⟩ :=
    statusSet_framOnly dev s₂ (index + c.datStatusLastAddress * 2) value
  cases triple : c.schStorageTripleWr with
  | false => exact ⟨rc₁, s₁, by simp [run₁], same₁⟩
  | true =>
    refine ⟨rc₁ ||| rc₂ ||| rc₃, s₃, by simp [run₁, run₂, run₃], ?_⟩
    exact (same₁.trans same₂).trans same₃

theorem datSetStatusVar_sameRam (dev : Device) (c : Config) (s : FlashStore) (index : Nat)
    (value : UInt32) :
    ∃ rc s', datSetStatusVar (flashStorage dev) c s index value = some (rc, s') ∧
      SameRam s s' := by
  obtain ⟨rc, s', run, same⟩ := datSetStatusVar_framOnly dev c s index value
  exact ⟨rc, s', run, same.ram⟩

theorem datSetSystemVar_sameRam (dev : Device) (c : Config) (s : FlashStore) (index : Nat)
    (value : Int32) :
    ∃ rc s', datSetSystemVar (flashStorage dev) c s index value = some (rc, s') ∧
      SameRam s s' := datSetStatusVar_sameRam dev c s index value.toUInt32

theorem readStatusCopy_defined (works : Reliable dev) (s : FlashStore) (k : Nat) :
    ∃ value, readStatusCopy (flashStorage dev) s k = some value := by
  simp [readStatusCopy, flashStorage, FlashStorage.storageStatusGetValueIdx, storageReadFram,
    works.reads, Except.toOption]

theorem datGetSystemVar_defined (works : Reliable dev) (s : FlashStore) (index : Nat) :
    ∃ value, datGetSystemVar (flashStorage dev) c s index = some value := by
  obtain ⟨value₁, read₁⟩ := readStatusCopy_defined works s index
  obtain ⟨value₂, read₂⟩ := readStatusCopy_defined works s (index + c.datStatusLastVar)
  obtain ⟨value₃, read₃⟩ := readStatusCopy_defined works s (index + c.datStatusLastVar * 2)
  unfold datGetSystemVar datGetStatusVar
  simp only [read₁, read₂, read₃, Option.bind_eq_bind, Option.bind_some]
  split
  · split
    · exact ⟨_, rfl⟩
    · split <;> exact ⟨_, rfl⟩
  · exact ⟨_, rfl⟩

theorem flash_refused (works : Reliable dev)
    (missing : storageFlightplanFindIndexTlb s t = none) : Refused (flashStorage dev) c s t := by
  obtain ⟨entries, queue⟩ := datGetSystemVar_defined (c := c) works s c.datFplQueue
  have delete : (flashStorage dev).storageFlightPlanDeleteRow s t = some (schStError, s) :=
    deleteRow_missing missing
  have get : (flashStorage dev).storageFlightPlanGetArgs s t = some (.error schStError) := by
    simp [flashStorage, FlashStorage.storageFlightPlanGetArgs, storageFlightPlanGetSt, missing]
  constructor
  · exact ⟨schStError, schStError_ne, by simp [datDelFp, queue, delete, schStError_ne]⟩
  · exact ⟨schStError, schStError_ne, by simp [datGetFp, queue, fetchAndDelete, get]⟩

theorem flash_null_deleted (works : Reliable dev) (init : Initialised s) (free : flashHasFree s) :
    ∃ s', datDelFp (flashStorage dev) c s stFpNull = some (schStOk, s') := by
  obtain ⟨entries, queue⟩ := datGetSystemVar_defined (c := c) works s c.datFplQueue
  cases found : storageFlightplanFindIndexTlb s stFpNull with
  | none =>
    obtain ⟨i, bound, null⟩ := free
    exact absurd null (find_eq_none_iff.mp found i bound)
  | some index =>
    have delete : (flashStorage dev).storageFlightPlanDeleteRow s stFpNull =
        some (schStOk, clearedStore dev.endian s index) :=
      (deleteRow_found init found).trans (congrArg some (eraseSlot_reliable works index))
    obtain ⟨rc, s', write, -⟩ := datSetSystemVar_sameRam dev c (clearedStore dev.endian s index)
      c.datFplQueue (entries - 1)
    exact ⟨s', by simp [datDelFp, queue, delete, write]⟩

theorem flash_entriesOnly_iff (works : Reliable dev) (init : Initialised s)
    (known : ∀ t, flashTimes s t → WasSet history t) :
    EntriesOnly (flashStorage dev) c flashTimes history s t ↔
      t ≠ stFpNull ∨ ¬ flashHasFree s := by
  constructor
  · intro only
    by_contra null
    simp only [not_or, not_not] at null
    obtain ⟨rfl, free⟩ := null
    obtain ⟨s', run⟩ := flash_null_deleted (c := c) works init free
    exact (only.del_ok s' run).1.1 rfl
  · intro safe
    apply entriesOnly_of_refused
    intro absent
    have gone : ¬ flashTimes s t := fun live => absent ⟨live, known t live⟩
    apply flash_refused works
    rw [find_eq_none_iff]
    intro i bound time
    by_cases real : t = stFpNull
    · exact safe.resolve_left (by simp [real]) ⟨i, bound, time.trans real⟩
    · exact gone ⟨real, i, bound, time⟩

def FlashKnown (history : List (PlanCall × Int32)) (s : FlashStore) : Prop :=
  Bounded s ∧ ∀ t, flashTimes s t → WasSet history t

theorem eraseSections_sameRam (addr : Nat → UInt32) (sections : List Nat) :
    SameRam s (eraseSections dev addr s sections).2 := by
  induction sections generalizing s with
  | nil => exact ⟨s.media, s.log, rfl⟩
  | cons i rest ih => exact (nvOperation_sameRam _).trans ih

theorem payloadReset_sameRam (dev : Device) (s : FlashStore) :
    ∃ rc s', (flashStorage dev).storagePayloadReset s = some (rc, s') ∧ SameRam s s' := by
  have same : SameRam s s := ⟨s.media, s.log, rfl⟩
  simp only [flashStorage, FlashStorage.storagePayloadReset]
  split
  · exact ⟨_, s, rfl, same⟩
  · split
    · exact ⟨_, s, rfl, same⟩
    · exact ⟨_, _, rfl, eraseSections_sameRam _ _⟩

theorem clearSysIndexes_sameRam (dev : Device) (c : Config) (s : FlashStore) (indexes : List Nat) :
    ∃ s', clearSysIndexes (flashStorage dev) c s indexes = some s' ∧ SameRam s s' := by
  induction indexes generalizing s with
  | nil => exact ⟨s, rfl, s.media, s.log, rfl⟩
  | cons i rest ih =>
    obtain ⟨rc, s₁, write, same₁⟩ := datSetSystemVar_sameRam dev c s i 0
    obtain ⟨s₂, clear, same₂⟩ := ih s₁
    exact ⟨s₂, by simp [clearSysIndexes, write, clear], same₁.trans same₂⟩

theorem change_known (call : FlashCall) (last : PlanCall × Int32) (works : Reliable dev)
    (known : FlashKnown history s) (run : FlashSections.stepCall dev s call = some (rc, s'))
    (sets : ∀ t command args executions period node,
      call = .set t command args executions period node → rc = schStOk →
        ∃ executions periodical, last = (.set t command args executions periodical, schStOk)) :
    FlashKnown (last :: history) s' := by
  obtain ⟨bounded, times⟩ := known
  refine ⟨stepCall_bounded bounded run, ?_⟩
  have cleared : ∀ index t, flashTimes (clearedStore dev.endian s index) t → flashTimes s t := by
    rintro index t ⟨real, i, bound, time⟩
    by_cases eq : i = index
    · subst eq
      simp only [clearedStore, Function.update_self, freeSlot] at time
      exact absurd time.symm real
    · simp only [clearedStore, Function.update_of_ne eq] at time
      exact ⟨real, i, bound, time⟩
  cases stepCall_change works bounded.toInitialised bounded.few run with
  | refused => exact fun t live => (times t live).later last
  | read => exact fun t live => (times t live).later last
  | missing none => exact fun t live => (times t live).later last
  | outside => exact fun t live => (times t live).later last
  | deleted found => exact fun t live => (times t (cleared _ t live)).later last
  | deletedIdx inside => exact fun t live => (times t (cleared _ t live)).later last
  | reset =>
    rintro t ⟨real, i, bound, time⟩
    have free : ((resetStore dev.endian s).stFlightplanTlb i).unixtime = stFpNull :=
      clearedTlb_free bound
    exact absurd (time.symm.trans free) real
  | @inserted index t cmd args executions period node sign free room =>
    rintro t' ⟨real, i, bound, time⟩
    rw [insertedStore_slot dev.endian (first_eq_some_iff.mp free).1 bound] at time
    split at time
    · obtain ⟨executions', periodical, eq⟩ := sets _ _ _ _ _ _ rfl rfl
      rw [eq, ← time]
      exact ⟨some cmd, some args, executions', periodical, List.mem_cons_self⟩
    · exact (times t' ⟨real, i, bound, time⟩).later last

theorem FlashKnown.sameRam (known : FlashKnown history s) (same : SameRam s s') :
    FlashKnown history s' := by
  refine ⟨same.bounded known.1, ?_⟩
  rw [same.times]
  exact known.2

theorem FlashKnown.counted (known : FlashKnown history s)
    (write : s' = s ∨ ∃ entries rc',
      datSetSystemVar (flashStorage dev) c s c.datFplQueue entries = some (rc', s')) :
    FlashKnown history s' := by
  rcases write with rfl | ⟨entries, rc', write⟩
  · exact known
  · obtain ⟨rc₁, s₁, run, same⟩ := datSetSystemVar_sameRam dev c s c.datFplQueue entries
    rw [run] at write
    cases write
    exact known.sameRam same

theorem flash_known_step (works : Reliable dev) (known : FlashKnown history s) {call : PlanCall}
    (run : stepPlan (flashStorage dev) c s call = some (rc, s')) :
    FlashKnown ((call, rc) :: history) s' := by
  have deleted : ∀ {t rc' : Int32} {s₁ : FlashStore},
      (flashStorage dev).storageFlightPlanDeleteRow s t = some (rc', s₁) →
        FlashKnown ((call, rc) :: history) s₁ := by
    intro t rc' s₁ delete
    exact change_known (.deleteRow t) _ works known delete nofun
  cases call with
  | set t command args executions periodical =>
    obtain ⟨s₁, set, write⟩ := datSetFp_cases run
    refine FlashKnown.counted ?_ write
    apply change_known (.set t command args executions periodical c.schCommNode) _ works known set
    rintro t' command' args' executions' period node eq rfl
    cases eq
    exact ⟨_, _, rfl⟩
  | get t =>
    obtain ⟨⟨res, s₂⟩, get, eq⟩ := Option.bind_eq_some_iff.mp run
    have next : s₂ = s' := by
      cases res <;> cases eq <;> rfl
    subst next
    obtain ⟨s₁, taken, write⟩ := datGetFp_cases get
    refine FlashKnown.counted ?_ write
    rcases taken with rfl | ⟨rc', delete⟩
    · exact ⟨known.1, fun t live => (known.2 t live).later _⟩
    · exact deleted delete
  | del t =>
    obtain ⟨s₁, delete, write⟩ := datDelFp_cases run
    exact (deleted delete).counted write
  | reset =>
    obtain ⟨s₁, reset, write⟩ := datResetFp_cases run
    exact (change_known .reset _ works known reset nofun).counted write
  | deleteMemorySections =>
    obtain ⟨rc₁, s₁, payload, same₁⟩ := payloadReset_sameRam dev s
    obtain ⟨⟨rc₀, s₀⟩, payload', run⟩ := Option.bind_eq_some_iff.mp run
    rw [payload] at payload'
    cases payload'
    obtain ⟨⟨rc₂, s₂⟩, reset, run⟩ := Option.bind_eq_some_iff.mp run
    obtain ⟨s₃, clear, same₃⟩ := clearSysIndexes_sameRam dev c s₂ c.sysIndex
    obtain ⟨s₃', clear', run⟩ := Option.bind_eq_some_iff.mp run
    rw [clear] at clear'
    cases clear'
    obtain ⟨⟨rc₄, s₄⟩, write, eq⟩ := Option.bind_eq_some_iff.mp run
    cases eq
    have emptied := change_known .reset (.deleteMemorySections, rc) works
      (known.sameRam same₁) reset nofun
    exact (emptied.sameRam same₃).counted (.inr ⟨_, _, write⟩)

theorem flash_known_reached (works : Reliable dev) {media : Media} {log : List NvOp}
    {lastSensor : Nat} {s₀ s₁ : FlashStore}
    (boot : FlashStorage.datRepoInit dev (powerOn media log) lastSensor = some s₀)
    (reset : datResetFp (flashStorage dev) c s₀ = some (rc, s₁))
    (reached : Reached (flashStorage dev) c s₁ history s) : FlashKnown history s := by
  induction reached with
  | start =>
    obtain ⟨s', boot', init⟩ := datRepoInit_initialised dev media log lastSensor
    rw [boot'] at boot
    cases boot
    obtain ⟨s₂, emptied, write⟩ := datResetFp_cases reset
    obtain ⟨rc', s₃, emptied', init', cleared⟩ := storageFlightPlanReset_ram dev init
    have same : (rc, s₂) = (rc', s₃) := Option.some.inj (emptied.symm.trans emptied')
    cases same
    have empty : FlashKnown [] s₂ := by
      refine ⟨bounded_of_cleared init' cleared, ?_⟩
      rintro t ⟨real, i, bound, time⟩
      rw [cleared, clearedTlb_free bound] at time
      exact absurd time.symm real
    exact empty.counted write
  | call before run ih => exact flash_known_step works ih run

end Flash

/-- In every reachable state of either back end a time is treated as an entry
    only when it is one, except `ST_FP_NULL` while a slot is free. -/
theorem sentinel_not_an_entry_iff (c : Config) (lastSensor : Nat)
    (history : List (PlanCall × Int32)) (t : Int32) :
    (∀ s₀ s, RamStorage.datRepoInit c lastSensor = some s₀ →
      Reached (RamStorage.ramStorage c) c s₀ history s →
      (EntriesOnly (RamStorage.ramStorage c) c ramTimes history s t ↔
        t ≠ stFpNull ∨ ¬ ramHasFree s)) ∧
    (∀ (dev : FlashStorage.Device) (media : Media) (log : List NvOp) s₀ s₁ s rc,
      FlashOperations.Reliable dev →
      FlashStorage.datRepoInit dev (FlashStorage.powerOn media log) lastSensor = some s₀ →
      datResetFp (FlashStorage.flashStorage dev) c s₀ = some (rc, s₁) →
      Reached (FlashStorage.flashStorage dev) c s₁ history s →
      (EntriesOnly (FlashStorage.flashStorage dev) c flashTimes history s t ↔
        t ≠ stFpNull ∨ ¬ flashHasFree s)) := by
  constructor
  · intro s₀ s boot reached
    obtain ⟨⟨db, status, stocked⟩, known⟩ := ram_known_reached boot reached
    exact ram_entriesOnly_iff stocked known
  · intro dev media log s₀ s₁ s rc works boot reset reached
    obtain ⟨bounded, known⟩ := flash_known_reached works boot reset reached
    exact flash_entriesOnly_iff works bounded.toInitialised known

theorem flash_reset_defined {dev : FlashStorage.Device} {c : Config} {s : FlashStorage.FlashStore}
    (init : FlashOperations.Initialised s) :
    ∃ rc s', datResetFp (FlashStorage.flashStorage dev) c s = some (rc, s') := by
  obtain ⟨rc, s₁, reset, -, -⟩ := FlashOperations.storageFlightPlanReset_ram dev init
  have reset : (FlashStorage.flashStorage dev).storageFlightPlanReset s = some (rc, s₁) := reset
  obtain ⟨rc', s₂, write, -⟩ := datSetSystemVar_sameRam dev c s₁ c.datFplQueue 0
  by_cases ok : rc = schStOk
  · exact ⟨rc, s₂, by simp [datResetFp, reset, ok, write]⟩
  · exact ⟨rc, s₁, by simp [datResetFp, reset, ok]⟩

theorem sentinel_not_an_entry_after_boot :
    (∃ s₀, RamStorage.datRepoInit simpleConfig 1 = some s₀ ∧
      EntriesOnly (RamStorage.ramStorage simpleConfig) simpleConfig ramTimes [] s₀ (-2)) ∧
    ∃ s₀ s₁ rc, FlashStorage.datRepoInit FlashSections.idealDevice
        (FlashStorage.powerOn FlashSections.blankMedia []) 1 = some s₀ ∧
      datResetFp (FlashStorage.flashStorage FlashSections.idealDevice) simpleConfig s₀ =
        some (rc, s₁) ∧
      EntriesOnly (FlashStorage.flashStorage FlashSections.idealDevice) simpleConfig flashTimes []
        s₁ (-2) := by
  have real : (-2 : Int32) ≠ stFpNull := by decide
  constructor
  · obtain ⟨s₀, boot, -⟩ := FlightPlanCalls.datRepoInit_fresh simpleConfig 1
    exact ⟨s₀, boot, ((sentinel_not_an_entry_iff _ _ _ _).1 _ _ boot .start).mpr (.inl real)⟩
  · obtain ⟨s₀, boot, init⟩ := FlashOperations.datRepoInit_initialised FlashSections.idealDevice
      FlashSections.blankMedia [] 1
    obtain ⟨rc, s₁, reset⟩ := flash_reset_defined (c := simpleConfig) init
    exact ⟨s₀, s₁, rc, boot, reset, ((sentinel_not_an_entry_iff _ _ _ _).2 _ _ _ _ _ _ _
      FlashTable.idealDevice_reliable boot reset .start).mpr (.inl real)⟩

theorem free_slot_deleted_after_boot :
    ∃ s₀ s', RamStorage.datRepoInit simpleConfig 1 = some s₀ ∧
      datDelFp (RamStorage.ramStorage simpleConfig) simpleConfig s₀ (-1) = some (schStOk, s') ∧
      ¬ EntriesOnly (RamStorage.ramStorage simpleConfig) simpleConfig ramTimes [] s₀ (-1) := by
  obtain ⟨s₀, boot, fresh⟩ := FlightPlanCalls.datRepoInit_fresh simpleConfig 1
  obtain ⟨⟨db, status, stocked, -⟩, empty⟩ := fresh.kept
  have free : ramHasFree s₀ := by simp [ramHasFree, empty, schFpMaxEntries]
  obtain ⟨s', db', status', run, -, -⟩ := datDelFp_null stocked free
  refine ⟨s₀, s', boot, run, ?_⟩
  intro only
  exact ramTimes_ne_null stocked (only.del_ok s' run).1 rfl

end FreeSlotSentinel
