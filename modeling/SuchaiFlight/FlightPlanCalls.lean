import SuchaiFlight.Library.SignedWord
import SuchaiFlight.RamFlightPlan

/-!
The calls `dat_set_fp`, `dat_get_fp`, `dat_del_fp` and `dat_reset_fp` on the
RAM back end, one after another. The abstract state is the multiset of live
entries; `dat_fpl_queue` must be its size after every call.
-/
namespace FlightPlanCalls
open CStrings StorageApi RepoData SlotTable RamStorage RamFlightPlan SignedWord

variable {c : Config} {s : RamStore} {db : Nat → FpEntry} {status : Nat → UInt32}

def counter (c : Config) (status : Nat → UInt32) : Int32 :=
  (vote c status c.datFplQueue).toInt32

theorem queue_read (ready : Ready c s status) :
    datGetSystemVar (ramStorage c) c s c.datFplQueue = some (counter c status) :=
  datGetSystemVar_ready ready c.fplQueue_lt

theorem queue_write (stocked : Stocked c s db status) (value : Int32) :
    ∃ s' status', datSetSystemVar (ramStorage c) c s c.datFplQueue value = some (schStOk, s') ∧
      s' = { s with statusDb := some status' } ∧ Stocked c s' db status' ∧
      counter c status' = value ∧ liveEntries s' = liveEntries s := by
  refine ⟨_, _, datSetSystemVar_ready stocked.toReady value c.fplQueue_lt, rfl,
    stocked.withStatus _, ?_, rfl⟩
  rw [counter, vote_storeCopies_same, Int32.toInt32_toUInt32]

theorem datSetFp_spec (stocked : Stocked c s db status) {t : Int32} (time : 0 ≤ t)
    (command args : CString) (executions periodical : Int32) :
    ∃ rc s' db' status', datSetFp (ramStorage c) c s t (some command) (some args) executions
        periodical = some (rc, s') ∧ Stocked c s' db' status' ∧
      Puts schFpMaxEntries ⟨t, executions, periodical, c.schCommNode, some command, some args⟩
        (rc = schStOk) (liveEntries s) (liveEntries s') ∧
      (rc = schStOk → counter c status' = counter c status + 1) ∧
      (rc ≠ schStOk → s' = s ∧ status' = status) := by
  obtain ⟨rc, s₁, run, ⟨db₁, shape, stocked₁⟩, puts, fail⟩ :=
    storageFlightPlanSet_spec stocked time command args executions periodical c.schCommNode
  by_cases ok : rc = schStOk
  · obtain ⟨s₂, status₂, write, -, stocked₂, value, live⟩ :=
      queue_write stocked₁ (counter c status + 1)
    refine ⟨rc, s₂, db₁, status₂, ?_, stocked₂, by rw [live]; exact puts, fun _ => value,
      fun no => absurd ok no⟩
    simp only [datSetFp, queue_read stocked.toReady, Option.bind_eq_bind, Option.bind_some]
    rw [show (ramStorage c).storageFlightPlanSet = storageFlightPlanSet from rfl, run]
    simp [ok, write]
  · obtain ⟨-, same⟩ := fail ok
    subst same
    refine ⟨rc, s₁, db₁, status, ?_, stocked₁, puts, fun yes => absurd yes ok,
      fun _ => ⟨rfl, rfl⟩⟩
    simp only [datSetFp, queue_read stocked.toReady, Option.bind_eq_bind, Option.bind_some]
    rw [show (ramStorage c).storageFlightPlanSet = storageFlightPlanSet from rfl, run]
    simp [ok]

theorem datGetFp_spec (stocked : Stocked c s db status) {t : Int32} (real : t ≠ stFpNull) :
    ∃ found res s' db' status', datGetFp (ramStorage c) c s t = some (res, s') ∧
      Stocked c s' db' status' ∧ Delivers found res ∧
      Takes FpEntry.unixtime t (liveEntries s) found (liveEntries s') ∧
      (found.isSome → counter c status' = counter c status - 1) ∧
      (found = none → s' = s ∧ status' = status) := by
  obtain ⟨found, res, s₁, run, ⟨db₁, shape, stocked₁⟩, takes, delivers, miss⟩ :=
    fetchAndDelete_spec stocked real
  cases found with
  | none =>
    cases res with
    | ok out => exact absurd delivers (by simp [Delivers])
    | error rc =>
      obtain rfl := miss rfl
      refine ⟨none, .error rc, s₁, db₁, status, ?_, stocked₁, delivers, takes, by simp,
        fun _ => ⟨rfl, rfl⟩⟩
      simp [datGetFp, queue_read stocked.toReady, run]
  | some e =>
    cases res with
    | error rc => exact absurd delivers (by simp [Delivers])
    | ok out =>
      obtain ⟨s₂, status₂, write, -, stocked₂, value, live⟩ :=
        queue_write stocked₁ (counter c status - 1)
      refine ⟨some e, .ok out, s₂, db₁, status₂, ?_, stocked₂, delivers, by rw [live]; exact takes,
        fun _ => value, by simp⟩
      simp [datGetFp, queue_read stocked.toReady, run, write]

/-- Looking for the time `ST_FP_NULL` finds a free slot, whose command is `NULL`. -/
theorem datGetFp_null (stocked : Stocked c s db status) :
    datGetFp (ramStorage c) c s stFpNull =
      if (liveEntries s).card < schFpMaxEntries then none else some (.error schStError, s) := by
  have room := scan_null_eq_none_iff stocked
  simp only [datGetFp, queue_read stocked.toReady, Option.bind_eq_bind, Option.bind_some]
  simp only [fetchAndDelete, ramStorage, storageFlightPlanGetArgs, storageFlightPlanGet,
    stocked.isOpen, stocked.dbEq, stocked.sizeEq]
  cases scan : first schFpMaxEntries fun i => decide (stFpNull = (db i).unixtime) with
  | none => simp [room.mp scan]
  | some i =>
    obtain ⟨bound, hit, -⟩ := first_eq_some_iff.mp scan
    have null : (db i).unixtime = stFpNull := Eq.symm (by simpa using hit)
    have free : (liveEntries s).card < schFpMaxEntries := by
      by_contra full
      rw [room.mpr full] at scan
      contradiction
    simp [free, fpEntryCopy, stocked.blank i bound null, fpEntryClear]

theorem datDelFp_spec (stocked : Stocked c s db status) {t : Int32} (real : t ≠ stFpNull) :
    ∃ found rc s' db' status', datDelFp (ramStorage c) c s t = some (rc, s') ∧
      Stocked c s' db' status' ∧ (rc = schStOk ↔ found.isSome) ∧
      Takes FpEntry.unixtime t (liveEntries s) found (liveEntries s') ∧
      (found.isSome → counter c status' = counter c status - 1) ∧
      (found = none → s' = s ∧ status' = status) := by
  obtain ⟨found, rc, s₁, run, ⟨db₁, shape, stocked₁⟩, takes, ok, miss, -, -⟩ :=
    storageFlightPlanDeleteRow_spec stocked real
  have call : (ramStorage c).storageFlightPlanDeleteRow s t = some (rc, s₁) := run
  cases found with
  | none =>
    obtain ⟨rfl, rfl⟩ := miss rfl
    refine ⟨none, schStError, s₁, db₁, status, ?_, stocked₁, by simp [schStError, schStOk], takes,
      by simp, fun _ => ⟨rfl, rfl⟩⟩
    simp [datDelFp, queue_read stocked.toReady, call, schStError, schStOk]
  | some e =>
    obtain rfl := ok rfl
    obtain ⟨s₂, status₂, write, -, stocked₂, value, live⟩ :=
      queue_write stocked₁ (counter c status - 1)
    refine ⟨some e, schStOk, s₂, db₁, status₂, ?_, stocked₂, by simp, by rw [live]; exact takes,
      fun _ => value, by simp⟩
    simp [datDelFp, queue_read stocked.toReady, call, write]

inductive FpCall where
  | set (timetodo : Int32) (command args : CString) (executions periodical : Int32)
  | get (elapsedSec : Int32)
  | del (timetodo : Int32)
  deriving DecidableEq

def FpCall.time : FpCall → Int32
  | .set t _ _ _ _ => t
  | .get t => t
  | .del t => t

structure FpReply where
  rc : Int32
  out : Option FpArgs
  deriving DecidableEq

def perform (c : Config) (s : RamStore) : FpCall → Option (FpReply × RamStore)
  | .set t command args executions periodical => do
    let (rc, s) ← datSetFp (ramStorage c) c s t (some command) (some args) executions periodical
    return (⟨rc, none⟩, s)
  | .get t => do
    let (res, s) ← datGetFp (ramStorage c) c s t
    match res with
    | .ok out => return (⟨schStOk, some out⟩, s)
    | .error rc => return (⟨rc, none⟩, s)
  | .del t => do
    let (rc, s) ← datDelFp (ramStorage c) c s t
    return (⟨rc, none⟩, s)

def performAll (c : Config) : RamStore → List FpCall → Option (List (FpReply × RamStore))
  | _, [] => some []
  | s, call :: calls => do
    let (reply, s) ← perform c s call
    let rest ← performAll c s calls
    return (reply, s) :: rest

def Meets (c : Config) (m : Multiset FpEntry) :
    FpCall → FpReply → Multiset FpEntry → Prop
  | .set t command args executions periodical, reply, m' =>
    Puts schFpMaxEntries ⟨t, executions, periodical, c.schCommNode, some command, some args⟩
      (reply.rc = schStOk) m m'
  | .get t, reply, m' => ∃ found, Takes FpEntry.unixtime t m found m' ∧
      (reply.rc = schStOk ↔ found.isSome) ∧
      ∀ e, found = some e → ∃ out, reply.out = some out ∧ e.cmd = some out.command ∧
        e.args = some out.args ∧ e.executions = out.executions ∧ e.periodical = out.period
  | .del t, reply, m' => ∃ found, Takes FpEntry.unixtime t m found m' ∧
      (reply.rc = schStOk ↔ found.isSome)

def QueueExact (c : Config) (s : RamStore) : Prop :=
  ∃ q, datGetSystemVar (ramStorage c) c s c.datFplQueue = some q ∧
    q.toInt = (liveEntries s).card

inductive Refines (c : Config) : RamStore → List FpCall → List (FpReply × RamStore) → Prop where
  | nil (s : RamStore) : Refines c s [] []
  | cons {s s' : RamStore} {call : FpCall} {reply : FpReply} {calls : List FpCall}
      {trace : List (FpReply × RamStore)}
      (meets : Meets c (liveEntries s) call reply (liveEntries s'))
      (failed : reply.rc ≠ schStOk → s'.flightplanDb = s.flightplanDb)
      (queue : QueueExact c s') (rest : Refines c s' calls trace) :
      Refines c s (call :: calls) ((reply, s') :: trace)

def Kept (c : Config) (s : RamStore) : Prop :=
  ∃ db status, Stocked c s db status ∧ counter c status = Int32.ofNat (liveEntries s).card

theorem live_card_le (stocked : Stocked c s db status) :
    (liveEntries s).card ≤ schFpMaxEntries := by
  rw [stocked.live_eq]
  exact contents_card_le _ _

theorem Kept.queueExact (kept : Kept c s) : QueueExact c s := by
  obtain ⟨db, status, stocked, counted⟩ := kept
  refine ⟨_, queue_read stocked.toReady, ?_⟩
  have le := live_card_le stocked
  rw [counted, Int32.toInt_ofNat_of_lt (by simp only [schFpMaxEntries] at le; omega)]

theorem perform_meets (kept : Kept c s) (call : FpCall) (time : 0 ≤ call.time) :
    ∃ reply s', perform c s call = some (reply, s') ∧ Kept c s' ∧
      Meets c (liveEntries s) call reply (liveEntries s') ∧
      (reply.rc ≠ schStOk → s'.flightplanDb = s.flightplanDb) := by
  obtain ⟨db, status, stocked, counted⟩ := kept
  have real : call.time ≠ stFpNull := ne_stFpNull time
  cases call with
  | set t command args executions periodical =>
    simp only [FpCall.time] at time
    obtain ⟨rc, s', db', status', run, stocked', puts, up, same⟩ :=
      datSetFp_spec stocked time command args executions periodical
    refine ⟨⟨rc, none⟩, s', by simp [perform, run], ⟨db', status', stocked', ?_⟩, puts, ?_⟩
    · by_cases ok : rc = schStOk
      · rw [up ok, puts.2.1 ok, Multiset.card_cons, counted, ← ofNat_add_one]
      · rw [(same ok).1, (same ok).2, counted]
    · intro failed
      rw [(same failed).1]
  | get t =>
    simp only [FpCall.time] at real
    obtain ⟨found, res, s', db', status', run, stocked', delivers, takes, down, same⟩ :=
      datGetFp_spec stocked real
    cases found with
    | none =>
      cases res with
      | ok out => exact absurd delivers (by simp [Delivers])
      | error rc =>
        obtain ⟨rfl, rfl⟩ := same rfl
        refine ⟨⟨rc, none⟩, s', by simp [perform, run], ⟨db', status', stocked', counted⟩,
          ⟨none, takes, ?_, by simp⟩, fun _ => rfl⟩
        simp only [Delivers] at delivers
        simp [delivers, schStError, schStOk]
    | some e =>
      cases res with
      | error rc => exact absurd delivers (by simp [Delivers])
      | ok out =>
        obtain ⟨hc, ha, he, hp, -⟩ := delivers
        refine ⟨⟨schStOk, some out⟩, s', by simp [perform, run], ⟨db', status', stocked', ?_⟩,
          ⟨some e, takes, by simp, ?_⟩, fun no => absurd rfl no⟩
        · rw [down rfl, counted, takes.2, Multiset.card_cons, ← ofNat_add_one]
          exact Int32.add_sub_cancel _ _
        · intro e' eq
          cases eq
          exact ⟨out, rfl, hc, ha, he, hp⟩
  | del t =>
    simp only [FpCall.time] at real
    obtain ⟨found, rc, s', db', status', run, stocked', ok, takes, down, same⟩ :=
      datDelFp_spec stocked real
    refine ⟨⟨rc, none⟩, s', by simp [perform, run], ⟨db', status', stocked', ?_⟩,
      ⟨found, takes, ok⟩, ?_⟩
    · cases found with
      | none => rw [(same rfl).1, (same rfl).2, counted]
      | some e =>
        rw [down rfl, counted, takes.2, Multiset.card_cons, ← ofNat_add_one]
        exact Int32.add_sub_cancel _ _
    · intro failed
      cases found with
      | none => rw [(same rfl).1]
      | some e => exact absurd (ok.mpr rfl) failed

theorem performAll_refines (calls : List FpCall) (kept : Kept c s)
    (times : ∀ call ∈ calls, 0 ≤ call.time) :
    ∃ trace, performAll c s calls = some trace ∧ Refines c s calls trace := by
  induction calls generalizing s with
  | nil => exact ⟨[], rfl, .nil s⟩
  | cons call calls ih =>
    obtain ⟨reply, s', run, kept', meets, failed⟩ :=
      perform_meets kept call (times call (by simp))
    obtain ⟨trace, rest, refines⟩ := ih kept' fun x mem => times x (by simp [mem])
    exact ⟨(reply, s') :: trace, by simp [performAll, run, rest],
      .cons meets failed kept'.queueExact refines⟩

def Fresh (c : Config) (s : RamStore) : Prop :=
  ∃ db status, Ready c s status ∧ s.flightplanDb = some db ∧
    s.flightplanEntries = schFpMaxEntries ∧
    (∀ i < schFpMaxEntries, db i = fpEntryClear c.schCommNode) ∧
    datGetSystemVar (ramStorage c) c s c.datFplQueue = some 0

theorem Fresh.kept (fresh : Fresh c s) : Kept c s ∧ liveEntries s = 0 := by
  obtain ⟨db, status, ready, dbEq, size, clear, zero⟩ := fresh
  have empty : contents schFpMaxEntries (slots db) = 0 :=
    contents_eq_zero_iff.mpr fun i bound => by simp [slots, clear i bound]
  have stocked : Stocked c s db status :=
    ⟨ready, dbEq, size, fun i bound _ => clear i bound, by simp [empty]⟩
  have live : liveEntries s = 0 := by rw [stocked.live_eq, empty]
  refine ⟨⟨db, status, stocked, ?_⟩, live⟩
  rw [queue_read ready] at zero
  rw [live, Option.some.inj zero]
  rfl

theorem resetStatusVars_ready (indexes : List Nat) (ready : Ready c s status)
    (bound : ∀ i ∈ indexes, i < c.datStatusLastAddress) :
    ∃ rc status', resetStatusVars (ramStorage c) c s indexes =
        some (rc, { s with statusDb := some status' }) ∧
      ∀ j < c.datStatusLastAddress, vote c status' j =
        if j ∈ indexes then c.statusDefault j else vote c status j := by
  induction indexes generalizing s status with
  | nil => exact ⟨schStOk, status, by simp [resetStatusVars, ← ready.statusEq], by simp⟩
  | cons i rest ih =>
    have here : i < c.datStatusLastAddress := bound i (by simp)
    obtain ⟨rc, status', run, votes⟩ :=
      ih (ready.withStatus (storeCopies c status i (c.statusDefault i)))
        fun j mem => bound j (by simp [mem])
    refine ⟨schStOk + rc, status', ?_, ?_⟩
    · simp [resetStatusVars, datSetStatusVar_ready ready (c.statusDefault i) here, run]
    · intro j hj
      rw [votes j hj]
      by_cases mem : j ∈ rest
      · simp [mem]
      · by_cases eq : j = i
        · subst eq
          simp [vote_storeCopies_same]
        · simp [mem, eq, vote_storeCopies_other c status (c.statusDefault i) here hj eq]

theorem datRepoInit_fresh (c : Config) (lastSensor : Nat) :
    ∃ s, datRepoInit c lastSensor = some s ∧ Fresh c s := by
  let opened : RamStore :=
    { unopened with storageIsOpen := true, statusDb := some fun _ => 0,
                    statusEntries := statusCopies c * c.datStatusLastVar }
  have ready : Ready c opened fun _ => 0 := ⟨rfl, rfl, rfl⟩
  obtain ⟨rc, status, run, votes⟩ :=
    resetStatusVars_ready (List.range c.datStatusLastAddress) ready (by simp)
  let booted : RamStore :=
    { opened with statusDb := some status, payloadDb := some fun _ => 0,
                  payloadsEntries := lastSensor,
                  flightplanDb := some fun _ => fpEntryClear c.schCommNode,
                  flightplanEntries := schFpMaxEntries }
  have ready' : Ready c booted status := ⟨rfl, rfl, rfl⟩
  refine ⟨booted, ?_, _, status, ready', rfl, rfl, fun _ _ => rfl, ?_⟩
  · have steps : datResetStatusVars (ramStorage c) c opened =
        some (if rc = schStOk then schStOk else schStError,
          { opened with statusDb := some status }) := by
      simp [datResetStatusVars, run]
    simp only [datRepoInit, storageInit, storageTableStatusInit]
    simp only [unopened, Bool.not_true, Bool.false_eq_true, ↓reduceIte, Option.isSome_none,
      Bool.false_and]
    simp only [opened, unopened] at steps
    rw [steps]
    simp [storageTablePayloadInit, storageTableFlightPlanInit, booted, opened]
  · rw [queue_read ready', counter, votes _ c.fplQueue_lt]
    simp [c.fplQueue_lt, c.fplQueue_default]

/-- The RAM flight plan is a bounded multimap with an exact counter. -/
theorem ram_flight_plan_is_multimap (fresh : Fresh c s) (calls : List FpCall)
    (times : ∀ call ∈ calls, 0 ≤ call.time) :
    liveEntries s = 0 ∧
      ∃ trace, performAll c s calls = some trace ∧ Refines c s calls trace :=
  ⟨fresh.kept.2, performAll_refines calls fresh.kept.1 times⟩

theorem ram_flight_plan_after_boot :
    ∃ s, datRepoInit simpleConfig 1 = some s ∧
      ∃ trace, performAll simpleConfig s
        [.set 10 pingText noText 1 0, .set 10 pingText pingText 3 60, .get 10, .del 10, .get 10] =
          some trace ∧
        Refines simpleConfig s
          [.set 10 pingText noText 1 0, .set 10 pingText pingText 3 60, .get 10, .del 10, .get 10]
          trace := by
  obtain ⟨s, boot, fresh⟩ := datRepoInit_fresh simpleConfig 1
  exact ⟨s, boot, (ram_flight_plan_is_multimap fresh _ (by decide)).2⟩

def Emptied (c : Config) (s : RamStore) : Prop :=
  (∀ db, s.flightplanDb = some db →
    ∀ i < s.flightplanEntries, (db i).unixtime = stFpNull) ∧
  (∀ t, 0 ≤ t → ∃ rc s', datGetFp (ramStorage c) c s t = some (.error rc, s')) ∧
  QueueExact c s

theorem emptied_of_free (stocked : Stocked c s db status) (zero : counter c status = 0)
    (free : ∀ i < schFpMaxEntries, (db i).unixtime = stFpNull) : Emptied c s := by
  have live : liveEntries s = 0 := by
    rw [stocked.live_eq]
    exact contents_eq_zero_iff.mpr fun i bound => by simp [slots, slotOf, free i bound]
  refine ⟨?_, ?_, ?_⟩
  · intro db' eq i bound
    rw [stocked.dbEq, Option.some.injEq] at eq
    rw [stocked.sizeEq] at bound
    exact eq ▸ free i bound
  · intro t time
    obtain ⟨found, res, s', -, -, run, -, delivers, takes, -, -⟩ :=
      datGetFp_spec stocked (ne_stFpNull time)
    cases found with
    | some e =>
      have mem : e ∈ liveEntries s := by rw [takes.2]; exact Multiset.mem_cons_self e _
      simp [live] at mem
    | none =>
      cases res with
      | ok out => exact absurd delivers (by simp [Delivers])
      | error rc => exact ⟨rc, s', run⟩
  · exact ⟨0, by rw [queue_read stocked.toReady, zero], by simp [live]⟩

theorem datResetFp_spec (stocked : Stocked c s db status) :
    ∃ s' status', storageFlightPlanReset c s = some (schStOk,
        { s with flightplanDb := some (Function.update db 0 (fpEntryClear c.schCommNode)) }) ∧
      datResetFp (ramStorage c) c s = some (schStOk, s') ∧ counter c status' = 0 ∧
      Stocked c s' (Function.update db 0 (fpEntryClear c.schCommNode)) status' := by
  have reset : storageFlightPlanReset c s = some (schStOk,
      { s with flightplanDb := some (Function.update db 0 (fpEntryClear c.schCommNode)) }) := by
    simp [storageFlightPlanReset, stocked.isOpen, stocked.dbEq, stocked.sizeEq, schFpMaxEntries]
  obtain ⟨s', status', write, -, stocked', value, -⟩ :=
    queue_write (stocked.withSlot 0 (Or.inl rfl)) 0
  refine ⟨s', status', reset, ?_, value, stocked'⟩
  have call : (ramStorage c).storageFlightPlanReset s = some (schStOk, _) := reset
  simp [datResetFp, call, write]

theorem clearSysIndexes_spec (indexes : List Nat) (stocked : Stocked c s db status)
    (bound : ∀ i ∈ indexes, i < c.datStatusLastAddress) :
    ∃ s' status', clearSysIndexes (ramStorage c) c s indexes = some s' ∧
      Stocked c s' db status' := by
  induction indexes generalizing s status with
  | nil => exact ⟨s, status, rfl, stocked⟩
  | cons i rest ih =>
    have write := datSetSystemVar_ready stocked.toReady 0 (bound i (by simp))
    obtain ⟨s', status', run, stocked'⟩ :=
      ih (stocked.withStatus (storeCopies c status i (0 : Int32).toUInt32))
        fun j mem => bound j (by simp [mem])
    exact ⟨s', status', by simp [clearSysIndexes, write, run], stocked'⟩

theorem datDeleteMemorySections_spec (stocked : Stocked c s db status) :
    ∃ s' status', datDeleteMemorySections (ramStorage c) c s = some (schStOk, s') ∧
      counter c status' = 0 ∧
      Stocked c s' (Function.update db 0 (fpEntryClear c.schCommNode)) status' := by
  let s₁ : RamStore := { s with payloadDb := some fun _ => 0 }
  have stocked₁ : Stocked c s₁ db status :=
    ⟨⟨stocked.isOpen, stocked.statusEq, stocked.entriesEq⟩, stocked.dbEq, stocked.sizeEq,
      stocked.blank, stocked.texts⟩
  have payload : (ramStorage c).storagePayloadReset s = some (schStOk, s₁) := by
    simp [ramStorage, storagePayloadReset, storageTablePayloadInit, stocked.isOpen, s₁]
  obtain ⟨-, -, reset, -⟩ := datResetFp_spec stocked₁
  have call : (ramStorage c).storageFlightPlanReset s₁ = some (schStOk, _) := reset
  obtain ⟨s₂, status₂, clear, stocked₂⟩ :=
    clearSysIndexes_spec c.sysIndex (stocked₁.withSlot 0 (Or.inl rfl)) c.sysIndex_lt
  obtain ⟨s', status', write, -, stocked', value, -⟩ := queue_write stocked₂ 0
  refine ⟨s', status', ?_, value, stocked'⟩
  simp [datDeleteMemorySections, payload, call, clear, write]

theorem emptied_iff_rest_free {s' : RamStore} {status' : Nat → UInt32} (db : Nat → FpEntry)
    (zero : counter c status' = 0)
    (stocked' : Stocked c s' (Function.update db 0 (fpEntryClear c.schCommNode)) status') :
    Emptied c s' ↔ ∀ i, 0 < i → i < schFpMaxEntries → (db i).unixtime = stFpNull := by
  constructor
  · intro emptied i pos bound
    have free := emptied.1 _ stocked'.dbEq i (by rw [stocked'.sizeEq]; exact bound)
    rwa [Function.update_of_ne (by omega)] at free
  · intro free
    refine emptied_of_free stocked' zero ?_
    intro i bound
    by_cases eq : i = 0
    · subst eq; simp [fpEntryClear]
    · rw [Function.update_of_ne eq]
      exact free i (by omega) bound

/-- A reset empties exactly the tables that hold nothing beyond slot 0. -/
theorem flight_plan_reset_empties_iff (stocked : Stocked c s db status) :
    ∃ s₁ s₂, datResetFp (ramStorage c) c s = some (schStOk, s₁) ∧
      datDeleteMemorySections (ramStorage c) c s = some (schStOk, s₂) ∧
      (Emptied c s₁ ↔ ∀ i, 0 < i → i < schFpMaxEntries → (db i).unixtime = stFpNull) ∧
      (Emptied c s₂ ↔ ∀ i, 0 < i → i < schFpMaxEntries → (db i).unixtime = stFpNull) := by
  obtain ⟨s₁, status₁, -, run₁, zero₁, stocked₁⟩ := datResetFp_spec stocked
  obtain ⟨s₂, status₂, run₂, zero₂, stocked₂⟩ := datDeleteMemorySections_spec stocked
  exact ⟨s₁, s₂, run₁, run₂, emptied_iff_rest_free db zero₁ stocked₁,
    emptied_iff_rest_free db zero₂ stocked₂⟩

def firstPing : FpEntry := ⟨10, 1, 0, simpleConfig.schCommNode, some pingText, some noText⟩

theorem flight_plan_reset_of_first_slot :
    ∃ s db, datRepoInit simpleConfig 1 = some s ∧ s.flightplanDb = some db ∧
      ∃ s₁, datResetFp (ramStorage simpleConfig) simpleConfig
          { s with flightplanDb := some (Function.update db 0 firstPing) } = some (schStOk, s₁) ∧
        Emptied simpleConfig s₁ := by
  obtain ⟨s, boot, fresh⟩ := datRepoInit_fresh simpleConfig 1
  obtain ⟨db, status, stocked, -⟩ := fresh.kept.1
  have stocked' := stocked.withSlot 0
    (Or.inr (a := firstPing = fpEntryClear simpleConfig.schCommNode)
      ⟨show firstPing.unixtime ≠ stFpNull by decide, by decide, by decide⟩)
  obtain ⟨s₁, -, run, -, iff, -⟩ := flight_plan_reset_empties_iff stocked'
  refine ⟨s, db, boot, stocked.dbEq, s₁, run, iff.mpr fun i pos bound => ?_⟩
  obtain ⟨db', -, -, dbEq, -, clear, -⟩ := fresh
  rw [stocked.dbEq, Option.some.injEq] at dbEq
  rw [Function.update_of_ne (by omega), dbEq, clear i bound]
  rfl

def resetAfterTwo : Option (Int32 × RamStore) := do
  let s ← datRepoInit simpleConfig 1
  let (_, s) ← perform simpleConfig s (.set 10 pingText noText 1 0)
  let (_, s) ← perform simpleConfig s (.set 20 pingText noText 1 0)
  datResetFp (ramStorage simpleConfig) simpleConfig s

theorem flight_plan_reset_keeps_second_entry :
    ∃ s', resetAfterTwo = some (schStOk, s') ∧ ¬ Emptied simpleConfig s' := by
  have later : (resetAfterTwo.bind fun r =>
      (datGetFp (ramStorage simpleConfig) simpleConfig r.2 20).map fun got =>
        (r.1, got.1.toOption.isSome)) = some (schStOk, true) := by decide
  obtain ⟨⟨rc, s'⟩, run, got⟩ := Option.bind_eq_some_iff.mp later
  obtain ⟨⟨res, s''⟩, get, pair⟩ := Option.map_eq_some_iff.mp got
  simp only [Prod.mk.injEq] at pair
  refine ⟨s', by rw [run, pair.1], ?_⟩
  intro emptied
  obtain ⟨rc', s₃, failed⟩ := emptied.2.1 20 (by decide)
  rw [get, Option.some.injEq, Prod.mk.injEq] at failed
  simp [failed.1, Except.toOption] at pair

end FlightPlanCalls
