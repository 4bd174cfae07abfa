import SuchaiFlight.FlightPlanCalls
import SuchaiFlight.SqliteFlightPlan
import SuchaiFlight.FlightPlanPurge
import SuchaiFlight.Library.Refinement

/-!
One flight plan over three back ends. The plan is a map from seconds to tasks;
RAM, FLASH and SQLite answer the calls of `repoData.c` as this map does, as long
as no second is set twice and no absent one is deleted.
-/
namespace PlanBackEnds
open CStrings StorageApi RepoData SlotTable Refinement FlightPlanCalls
open SqliteStorage (hasQuote)
open FlashStorage (commandsPerSection)
open FlashTable (Fits)

/-! The plan. -/

structure Plan where
  entry : Int32 → Option FpArgs
  live : Nat
  settings : Nat

def emptyPlan : Plan := ⟨fun _ => none, 0, 0⟩

def Plan.set (plan : Plan) (t : Int32) (task : FpArgs) : Plan :=
  { entry := Function.update plan.entry t (some task)
    live := plan.live + 1
    settings := plan.settings + 1 }

def Plan.remove (plan : Plan) (t : Int32) : Plan :=
  { plan with entry := Function.update plan.entry t none, live := plan.live - 1 }

@[simp] theorem Plan.set_entry (plan : Plan) (t : Int32) (task : FpArgs) :
    (plan.set t task).entry = Function.update plan.entry t (some task) := rfl

@[simp] theorem Plan.remove_entry (plan : Plan) (t : Int32) :
    (plan.remove t).entry = Function.update plan.entry t none := rfl

@[simp] theorem Plan.remove_live (plan : Plan) (t : Int32) :
    (plan.remove t).live = plan.live - 1 := rfl

def planCall (c : Config) (plan : Plan) : FpCall → FpReply × Plan
  | .set t command args executions periodical =>
    (⟨schStOk, none⟩, plan.set t ⟨command, args, executions, periodical, c.schCommNode⟩)
  | .get t =>
    match plan.entry t with
    | some task => (⟨schStOk, some task⟩, plan.remove t)
    | none => (⟨schStError, none⟩, plan)
  | .del t => (⟨schStOk, none⟩, plan.remove t)

/-- A free second, a free slot and a free page, and texts that all back ends
    can store. -/
structure Settable (plan : Plan) (t : Int32) (command args : CString) : Prop where
  time : 0 ≤ t
  fresh : plan.entry t = none
  slot : plan.live < schFpMaxEntries
  page : plan.settings < commandsPerSection
  plain : hasQuote command = false ∧ hasQuote args = false
  fits : Fits command ∧ Fits args

def Admitted (plan : Plan) : FpCall → Prop
  | .set t command args _ _ => Settable plan t command args
  | .get t => 0 ≤ t
  | .del t => 0 ≤ t ∧ (plan.entry t).isSome

/-! The calls over any back end. -/

def perform {σ : Type} (S : Storage σ) (c : Config) (s : σ) : FpCall → Option (FpReply × σ)
  | .set t command args executions periodical => do
    let (rc, s) ← datSetFp S c s t (some command) (some args) executions periodical
    return (⟨rc, none⟩, s)
  | .get t => do
    let (res, s) ← datGetFp S c s t
    match res with
    | .ok out => return (⟨schStOk, some out⟩, s)
    | .error rc => return (⟨rc, none⟩, s)
  | .del t => do
    let (rc, s) ← datDelFp S c s t
    return (⟨rc, none⟩, s)

def taskOf (e : FpEntry) : Option FpArgs := do
  let command ← e.cmd
  let args ← e.args
  return ⟨command, args, e.executions, e.periodical, e.node⟩

inductive Served (c : Config) (m : Multiset FpEntry) :
    FpCall → FpReply → Multiset FpEntry → Prop where
  | added {t executions periodical : Int32} {command args : CString} :
      Served c m (.set t command args executions periodical) ⟨schStOk, none⟩
        (⟨t, executions, periodical, c.schCommNode, some command, some args⟩ ::ₘ m)
  | taken {e : FpEntry} {task : FpArgs} {m' : Multiset FpEntry} (split : m = e ::ₘ m')
      (delivers : taskOf e = some task) : Served c m (.get e.unixtime) ⟨schStOk, some task⟩ m'
  | absent {t : Int32} (free : ∀ e ∈ m, e.unixtime ≠ t) :
      Served c m (.get t) ⟨schStError, none⟩ m
  | deleted {e : FpEntry} {m' : Multiset FpEntry} (split : m = e ::ₘ m') :
      Served c m (.del e.unixtime) ⟨schStOk, none⟩ m'

structure Represents (plan : Plan) (m : Multiset FpEntry) : Prop where
  entry : ∀ t task, plan.entry t = some task ↔ ∃ e ∈ m, e.unixtime = t ∧ taskOf e = some task
  distinct : (m.map FpEntry.unixtime).Nodup
  texts : ∀ e ∈ m, (taskOf e).isSome
  live : m.card = plan.live

section Plan
variable {c : Config} {plan : Plan} {m m' : Multiset FpEntry} {e : FpEntry} {t : Int32}
  {task : FpArgs}

theorem represents_empty : Represents emptyPlan 0 where
  entry := fun t task => by simp [emptyPlan]
  distinct := by simp
  texts := by simp
  live := rfl

theorem Represents.absent_iff (represents : Represents plan m) :
    plan.entry t = none ↔ ∀ e ∈ m, e.unixtime ≠ t := by
  constructor
  · intro none e mem time
    obtain ⟨task, delivers⟩ := Option.isSome_iff_exists.mp (represents.texts e mem)
    rw [(represents.entry t task).mpr ⟨e, mem, time, delivers⟩] at none
    cases none
  · intro absent
    by_contra present
    obtain ⟨task, found⟩ := Option.ne_none_iff_exists'.mp present
    obtain ⟨e, mem, time, -⟩ := (represents.entry t task).mp found
    exact absent e mem time

theorem Represents.set (represents : Represents plan m) (fresh : plan.entry e.unixtime = none)
    (delivers : taskOf e = some task) :
    Represents (plan.set e.unixtime task) (e ::ₘ m) where
  entry := by
    intro t other
    rw [Plan.set_entry, Function.update_apply]
    simp only [Multiset.mem_cons, exists_eq_or_imp]
    have absent := represents.absent_iff.mp fresh
    by_cases here : t = e.unixtime
    · subst here
      rw [if_pos rfl, delivers]
      have none_else : ¬ ∃ f ∈ m, f.unixtime = e.unixtime ∧ taskOf f = some other := by
        rintro ⟨f, mem, time, -⟩
        exact absent f mem time
      simp [none_else]
    · rw [if_neg here, represents.entry t other]
      have other_time : ¬ e.unixtime = t := fun same => here same.symm
      simp [other_time]
  distinct := by
    rw [Multiset.map_cons, Multiset.nodup_cons]
    refine ⟨fun mem => ?_, represents.distinct⟩
    obtain ⟨f, inside, time⟩ := Multiset.mem_map.mp mem
    exact represents.absent_iff.mp fresh f inside time
  texts := by
    intro f mem
    rcases Multiset.mem_cons.mp mem with rfl | old
    · rw [delivers]
      rfl
    · exact represents.texts f old
  live := by rw [Multiset.card_cons, represents.live, Plan.set]

theorem Represents.remove (represents : Represents plan (e ::ₘ m)) :
    Represents (plan.remove e.unixtime) m := by
  have distinct := represents.distinct
  rw [Multiset.map_cons, Multiset.nodup_cons] at distinct
  have apart : ∀ f ∈ m, f.unixtime ≠ e.unixtime := fun f mem same =>
    distinct.1 (same ▸ Multiset.mem_map_of_mem _ mem)
  have live := represents.live
  rw [Multiset.card_cons] at live
  refine ⟨fun t other => ?_, distinct.2,
    fun f mem => represents.texts f (Multiset.mem_cons_of_mem mem), ?_⟩
  · rw [Plan.remove_entry, Function.update_apply]
    by_cases here : t = e.unixtime
    · subst here
      rw [if_pos rfl]
      constructor
      · nofun
      · rintro ⟨f, mem, time, -⟩
        exact absurd time (apart f mem)
    · rw [if_neg here, represents.entry t other]
      have other_time : ¬ e.unixtime = t := fun same => here same.symm
      simp [other_time]
  · rw [Plan.remove_live]
    omega

theorem Represents.entry_head (represents : Represents plan (e ::ₘ m)) :
    plan.entry e.unixtime = taskOf e := by
  have mem : e ∈ e ::ₘ m := Multiset.mem_cons_self e m
  obtain ⟨task, delivers⟩ := Option.isSome_iff_exists.mp (represents.texts e mem)
  rw [delivers]
  exact (represents.entry _ task).mpr ⟨e, mem, rfl, delivers⟩

theorem taskOf_inj {f : FpEntry} (time : e.unixtime = f.unixtime) (one : taskOf e = some task)
    (other : taskOf f = some task) : e = f := by
  obtain ⟨t, executions, periodical, node, command, args⟩ := e
  obtain ⟨t', executions', periodical', node', command', args'⟩ := f
  cases command <;> cases args <;> cases command' <;> cases args' <;> simp_all [taskOf]
  grind

theorem Represents.unique (one : Represents plan m) (other : Represents plan m') : m = m' := by
  have inside : ∀ {m m'}, Represents plan m → Represents plan m' → ∀ e ∈ m, e ∈ m' := by
    intro m m' one other e mem
    obtain ⟨task, delivers⟩ := Option.isSome_iff_exists.mp (one.texts e mem)
    have found := (one.entry e.unixtime task).mpr ⟨e, mem, rfl, delivers⟩
    obtain ⟨f, mem', time, delivers'⟩ := (other.entry e.unixtime task).mp found
    rwa [taskOf_inj time.symm delivers delivers']
  refine (Multiset.Nodup.ext one.distinct.of_map other.distinct.of_map).mpr fun e => ?_
  exact ⟨inside one other e, inside other one e⟩

theorem served_answers (represents : Represents plan m) {call : FpCall} {reply : FpReply}
    (admitted : Admitted plan call) (served : Served c m call reply m') :
    reply = (planCall c plan call).1 ∧ Represents (planCall c plan call).2 m' := by
  cases served with
  | added =>
    have settable : Settable plan _ _ _ := admitted
    exact ⟨rfl, represents.set (e := ⟨_, _, _, c.schCommNode, _, _⟩) settable.fresh rfl⟩
  | taken split delivers =>
    subst split
    have found := represents.entry_head
    rw [delivers] at found
    rw [planCall, found]
    exact ⟨rfl, represents.remove⟩
  | absent free =>
    rw [planCall, represents.absent_iff.mpr free]
    exact ⟨rfl, represents⟩
  | deleted split =>
    subst split
    exact ⟨rfl, represents.remove⟩

end Plan

/-- A back end serves the calls that the plan admits, in the states `Keeps` with
    the entries `content`; the pages used so far are those of the settings. -/
def Serves {σ : Type} (S : Storage σ) (c : Config) (content : σ → Multiset FpEntry)
    (Keeps : Plan → σ → Prop) : Prop :=
  ∀ plan s call, Represents plan (content s) → Keeps plan s → Admitted plan call →
    ∃ reply s', perform S c s call = some (reply, s') ∧
      Served c (content s) call reply (content s') ∧ Keeps (planCall c plan call).2 s'

theorem Serves.implements {σ : Type} {S : Storage σ} {c : Config} {content : σ → Multiset FpEntry}
    {Keeps : Plan → σ → Prop} (serves : Serves S c content Keeps) :
    Implements (planCall c) Admitted (perform S c)
      fun plan s => Represents plan (content s) ∧ Keeps plan s := by
  rintro plan s call ⟨represents, keeps⟩ admitted
  obtain ⟨reply, s', run, served, keeps'⟩ := serves plan s call represents keeps admitted
  obtain ⟨rfl, represents'⟩ := served_answers represents admitted served
  exact ⟨s', run, represents', keeps'⟩

/-! The calls over a back end, from what its storage calls do. -/

section Calls
variable {σ : Type} {S : Storage σ} {c : Config} {s s' : σ} {t : Int32}

theorem perform_get {task : FpArgs} (run : datGetFp S c s t = some (.ok task, s')) :
    perform S c s (.get t) = some (⟨schStOk, some task⟩, s') := by
  simp [perform, run]

theorem perform_get_error {rc : Int32} (run : datGetFp S c s t = some (.error rc, s')) :
    perform S c s (.get t) = some (⟨rc, none⟩, s') := by
  simp [perform, run]

end Calls

/-! RAM. -/

section Ram
open RamStorage RamFlightPlan

def ramKeeps (c : Config) (_ : Plan) (s : RamStore) : Prop := ∃ db status, Stocked c s db status

theorem taskOf_delivered {e : FpEntry} {task : FpArgs} (delivers : Delivers (some e) (.ok task)) :
    taskOf e = some task := by
  obtain ⟨hc, ha, he, hp, hn⟩ := delivers
  simp [taskOf, hc, ha, he, hp, hn]

theorem ram_serves (c : Config) : Serves (ramStorage c) c liveEntries (ramKeeps c) := by
  rintro plan s call represents ⟨db, status, stocked⟩ admitted
  cases call with
  | set t command args executions periodical =>
    have settable : Settable plan t command args := admitted
    obtain ⟨rc, s', db', status', run, stocked', puts, -, -⟩ :=
      datSetFp_spec stocked settable.time command args executions periodical
    have room : (liveEntries s).card < schFpMaxEntries := represents.live ▸ settable.slot
    obtain rfl := puts.1.mpr room
    refine ⟨⟨schStOk, none⟩, s', by simp [perform, run], ?_, db', status', stocked'⟩
    rw [puts.2.1 rfl]
    exact .added
  | get t =>
    have sign : 0 ≤ t := admitted
    obtain ⟨found, res, s', db', status', run, stocked', delivers, takes, -, -⟩ :=
      datGetFp_spec stocked (ne_stFpNull sign)
    cases found with
    | none =>
      cases res with
      | ok task => exact absurd delivers (by simp [Delivers])
      | error rc =>
        obtain rfl : rc = schStError := delivers
        refine ⟨_, s', perform_get_error run, ?_, db', status', stocked'⟩
        rw [takes.2]
        exact .absent takes.1
    | some e =>
      cases res with
      | error rc => exact absurd delivers (by simp [Delivers])
      | ok task =>
        obtain ⟨rfl, split⟩ := takes
        exact ⟨_, s', perform_get run, .taken split (taskOf_delivered delivers), db', status',
          stocked'⟩
  | del t =>
    obtain ⟨sign, present⟩ : 0 ≤ t ∧ (plan.entry t).isSome := admitted
    obtain ⟨found, rc, s', db', status', run, stocked', ok, takes, -, -⟩ :=
      datDelFp_spec stocked (ne_stFpNull sign)
    cases found with
    | none =>
      have absent := represents.absent_iff.mpr takes.1
      simp [absent] at present
    | some e =>
      obtain ⟨rfl, split⟩ := takes
      obtain rfl := ok.mpr rfl
      exact ⟨_, s', by simp [perform, run], .deleted split, db', status', stocked'⟩

end Ram

/-! SQLite. -/

section Sqlite
open SqliteStorage SqliteFlightPlan RepoFlightPlan Runs RowTables

def sqliteContent (s : SqliteStore) : Multiset FpEntry := ↑(planRows s)

def sqliteKeeps (c : Config) (_ : Plan) (s : SqliteStore) : Prop := Counted c s

variable {c : Config} {s s' : SqliteStore} {t : Int32} {e : FpEntry}

theorem rows_split {rows : List FpEntry} (distinct : (rows.map FpEntry.unixtime).Nodup)
    (mem : e ∈ rows) : (rows : Multiset FpEntry) = e ::ₘ ↑(withoutTime e.unixtime rows) := by
  induction rows with
  | nil => simp at mem
  | cons f rest ih =>
    rw [List.map_cons, List.nodup_cons] at distinct
    rcases List.mem_cons.mp mem with rfl | later
    · have absent : ∀ g ∈ rest, g.unixtime ≠ e.unixtime := fun g inside same =>
        distinct.1 (same ▸ List.mem_map_of_mem inside)
      have rest_eq := withoutTime_of_absent absent
      rw [withoutTime, List.filter_cons_of_neg (by simp), ← withoutTime, rest_eq]
      rfl
    · have apart : f.unixtime ≠ e.unixtime := fun same =>
        distinct.1 (same ▸ List.mem_map_of_mem later)
      rw [withoutTime, List.filter_cons_of_pos (by simpa using apart), ← withoutTime,
        ← Multiset.cons_coe, ih distinct.2 later, Multiset.cons_swap, Multiset.cons_coe]

theorem sqlite_read (counted : Counted c s) (mem : e ∈ planRows s) :
    ∃ task, taskOf e = some task ∧
      sqliteStorage.storageFlightPlanGetArgs s e.unixtime = some (.ok task) := by
  obtain ⟨table, eq⟩ := Option.isSome_iff_exists.mp counted.table
  have rows : planRows s = values table := by simp [planRows, eq]
  obtain ⟨command, hasCommand⟩ := Option.isSome_iff_exists.mp (counted.texts e mem).1
  obtain ⟨args, hasArgs⟩ := Option.isSome_iff_exists.mp (counted.texts e mem).2
  have found : selectFirst (fun f : FpEntry => decide (f.unixtime = e.unixtime)) table =
      some e := by
    cases select : selectFirst (fun f : FpEntry => decide (f.unixtime = e.unixtime)) table with
    | none =>
      have absent := List.find?_eq_none.mp select e (rows ▸ mem)
      simp at absent
    | some f =>
      have inside : f ∈ planRows s := rows ▸ List.mem_of_find?_eq_some select
      have time : f.unixtime = e.unixtime := by simpa using List.find?_some select
      exact congrArg some (List.inj_on_of_nodup_map counted.distinct inside mem time)
  refine ⟨⟨command, args, e.executions, e.periodical, e.node⟩, ?_, ?_⟩
  · simp [taskOf, hasCommand, hasArgs]
  · simp [sqliteStorage, storageFlightPlanGetArgs, storageFlightPlanGetSt, eq, found, hasCommand,
      hasArgs]

theorem sqlite_get (counted : Counted c s) (mem : e ∈ planRows s) :
    ∃ task s', taskOf e = some task ∧ datGetFp sqliteStorage c s e.unixtime = some (.ok task, s') ∧
      planRows s' = withoutTime e.unixtime (planRows s) := by
  obtain ⟨q, queue, -⟩ := counted.queue
  obtain ⟨task, delivers, get⟩ := sqlite_read counted mem
  obtain ⟨s₁, delete, isOpen, -, table, rows⟩ := delete_rows counted.table e.unixtime
  obtain ⟨s', write, holds⟩ :=
    Holds.write (c := c) (isOpen.trans counted.isOpen) table rows (q - 1)
  exact ⟨task, s', delivers, by simp [datGetFp, fetchAndDelete, queue, get, delete, write],
    holds.rows⟩

theorem sqlite_get_absent (counted : Counted c s) (free : ∀ e ∈ planRows s, e.unixtime ≠ t) :
    datGetFp sqliteStorage c s t = some (.error schStError, s) := by
  obtain ⟨q, queue, -⟩ := counted.queue
  rcases get_rows counted.table counted.texts t with ⟨⟨e, mem, time⟩, -⟩ | ⟨-, get⟩
  · exact absurd time (free e mem)
  · simp [datGetFp, fetchAndDelete, queue, get]

theorem counted_after {call : PlanCall} {rc : Int32} (counted : Counted c s)
    (step : stepPlan sqliteStorage c s call = some (rc, s')) (ordinary : Ordinary call)
    (fits : CallFits s call) : Counted c s' := by
  have stepped : planStep c s call = some s' := by
    rw [planStep, step]
    rfl
  exact counted_step counted ordinary ((call_exact_iff counted ordinary).mpr fits) stepped

theorem sqlite_serves (c : Config) :
    Serves sqliteStorage c sqliteContent (sqliteKeeps c) := by
  intro plan s call represents keeps admitted
  have counted : Counted c s := keeps
  obtain ⟨q, queue, -⟩ := counted.queue
  cases call with
  | set t command args executions periodical =>
    have settable : Settable plan t command args := admitted
    have fresh : ∀ e ∈ planRows s, e.unixtime ≠ t := represents.absent_iff.mp settable.fresh
    have count : (planRows s).length = plan.live := represents.live
    have few : (planRows s).length < 2147483647 := by
      have slot := settable.slot
      simp only [schFpMaxEntries] at slot
      omega
    obtain ⟨s', step, holds⟩ :=
      step_set counted queue settable.time settable.plain executions periodical
    have run : datSetFp sqliteStorage c s t (some command) (some args) executions periodical =
        some (schStOk, s') := step
    have content : sqliteContent s' =
        ⟨t, executions, periodical, c.schCommNode, some command, some args⟩ ::ₘ
          sqliteContent s := by
      rw [sqliteContent, holds.rows, withoutTime_of_absent fresh, ← Multiset.coe_add,
        Multiset.add_comm, Multiset.coe_singleton, Multiset.singleton_add, ← sqliteContent]
    refine ⟨⟨schStOk, none⟩, s', by simp [perform, run], ?_,
      counted_after counted step ⟨settable.time, settable.plain⟩ ⟨fresh, few⟩⟩
    rw [content]
    exact .added
  | get t =>
    have sign : 0 ≤ t := admitted
    by_cases live : ∃ e ∈ planRows s, e.unixtime = t
    · obtain ⟨e, mem, rfl⟩ := live
      obtain ⟨task, s', delivers, run, rows⟩ := sqlite_get counted mem
      have step : stepPlan sqliteStorage c s (.get e.unixtime) = some (schStOk, s') := by
        simp [stepPlan, run]
      refine ⟨_, s', perform_get run, .taken ?_ delivers, counted_after counted step sign trivial⟩
      rw [sqliteContent, sqliteContent, rows]
      exact rows_split counted.distinct mem
    · have free : ∀ e ∈ planRows s, e.unixtime ≠ t := fun e mem time => live ⟨e, mem, time⟩
      exact ⟨_, s, perform_get_error (sqlite_get_absent counted free), .absent free, counted⟩
  | del t =>
    obtain ⟨sign, present⟩ : 0 ≤ t ∧ (plan.entry t).isSome := admitted
    have live : ∃ e ∈ planRows s, e.unixtime = t := by
      by_contra none
      have free : ∀ e ∈ sqliteContent s, e.unixtime ≠ t := fun e mem time => none ⟨e, mem, time⟩
      simp [represents.absent_iff.mpr free] at present
    obtain ⟨s', step, holds⟩ := step_del counted queue t
    have keeps' := counted_after counted step sign live
    have run : datDelFp sqliteStorage c s t = some (schStOk, s') := step
    obtain ⟨e, mem, rfl⟩ := live
    refine ⟨_, s', by simp [perform, run], .deleted ?_, keeps'⟩
    rw [sqliteContent, sqliteContent, holds.rows]
    exact rows_split counted.distinct mem

end Sqlite

/-! FLASH, on devices that do not fail. -/

section Flash
open ByteMemory NonVolatile FlashStorage FlashOperations FlashTable FreeSlotSentinel

def flashContent (dev : Device) (s : FlashStore) : Multiset FpEntry :=
  contents schFpMaxEntries (entrySlot dev.endian s)

structure FlashKeeps (dev : Device) (plan : Plan) (s : FlashStore) : Prop where
  sound : Sound dev.endian Fits s
  used : usedPages s.stFlightplanTlb = plan.settings

variable {dev : Device} {c : Config} {s s₁ s' : FlashStore} {t : Int32} {plan : Plan}

theorem sound_framOnly {endian : Endian} {short : CString → Prop} (same : FramOnly s s')
    (sound : Sound endian short s) : Sound endian short s' := by
  obtain ⟨media, log, rfl⟩ := same.ram
  refine ⟨same.ram.bounded sound.toBounded, sound.distinct, ?_, ?_⟩
  · intro i inside live n below place
    obtain ⟨⟨e, cmd, args, time, hc, ha, bytes⟩, programmed⟩ :=
      sound.written i inside live n below place
    refine ⟨⟨e, cmd, args, time, hc, ha, ?_⟩, fun k bound => ?_⟩
    · rw [same.flash]
      exact bytes
    · exact (same.programmed _).mpr (programmed k bound)
  · intro x low high programmed
    exact sound.blank x low high ((same.programmed x).mp programmed)

theorem counter_written (dev : Device) (c : Config) (s : FlashStore) (value : Int32) :
    ∃ rc s', datSetSystemVar (flashStorage dev) c s c.datFplQueue value = some (rc, s') ∧
      FramOnly s s' ∧ flashContent dev s' = flashContent dev s ∧
      usedPages s'.stFlightplanTlb = usedPages s.stFlightplanTlb := by
  obtain ⟨rc, s', write, same⟩ := datSetStatusVar_framOnly dev c s c.datFplQueue value.toUInt32
  refine ⟨rc, s', write, same, ?_, ?_⟩
  · exact contents_congr fun i _ => FlightPlanPurge.framOnly_entrySlot same dev.endian i
  · obtain ⟨media, log, rfl⟩ := same.ram
    rfl

theorem entrySlot_of_null {endian : Endian} {i : Nat}
    (null : (s.stFlightplanTlb i).unixtime = stFpNull) : entrySlot endian s i = none := by
  simp [entrySlot, null]

theorem free_slot (sound : Sound dev.endian Fits s)
    (room : (flashContent dev s).card < schFpMaxEntries) :
    ∃ index, storageFlightplanFindIndexTlb s stFpNull = some index ∧ index < schFpMaxEntries ∧
      entrySlot dev.endian s index = none := by
  obtain ⟨i, inside, none⟩ := contents_card_lt_iff.mp room
  cases free : storageFlightplanFindIndexTlb s stFpNull with
  | none =>
    have live := find_eq_none_iff.mp free i inside
    obtain ⟨e, cmd, args, entry, -⟩ := sound.entry inside live
    simp [none] at entry
  | some index =>
    obtain ⟨bound, null, -⟩ := first_eq_some_iff.mp free
    exact ⟨index, rfl, bound, entrySlot_of_null (by simpa using null)⟩

theorem flash_set (works : Reliable dev) (keeps : FlashKeeps dev plan s)
    (represents : Represents plan (flashContent dev s)) {command args : CString}
    (settable : Settable plan t command args) (executions periodical : Int32) :
    ∃ s', datSetFp (flashStorage dev) c s t (some command) (some args) executions periodical =
        some (schStOk, s') ∧ Sound dev.endian Fits s' ∧
      usedPages s'.stFlightplanTlb = plan.settings + 1 ∧
      flashContent dev s' = ⟨t, executions, periodical, c.schCommNode, some command, some args⟩ ::ₘ
        flashContent dev s := by
  have sound := keeps.sound
  have page : usedPages s.stFlightplanTlb < commandsPerSection := keeps.used ▸ settable.page
  obtain ⟨index, free, inside, none⟩ := free_slot sound (represents.live ▸ settable.slot)
  obtain ⟨entries, queue⟩ := datGetSystemVar_defined (c := c) works s c.datFplQueue
  have set : (flashStorage dev).storageFlightPlanSet s t (some command) (some args) executions
      periodical c.schCommNode = some (schStOk, insertedStore dev.endian s index
        ⟨t, executions, periodical, c.schCommNode, some command, some args⟩ command args) :=
    (storageFlightPlanSet_eq sound.toInitialised sound.few settable.time _ _ _ _ _).trans
      (insertEntry_reliable works sound.toInitialised _ rfl rfl free page)
  obtain ⟨rc, s', write, same, content, used⟩ := counter_written dev c (insertedStore dev.endian s
    index ⟨t, executions, periodical, c.schCommNode, some command, some args⟩ command args)
    (entries + 1)
  refine ⟨s', by simp [datSetFp, queue, set, write], sound_framOnly same
    (sound_inserted sound inside page settable.fits.1 settable.fits.2), ?_, ?_⟩
  · rw [used, insertedStore_used dev.endian inside page, keeps.used]
  · rw [content, flashContent, flashContent, ← contents_fill inside none]
    refine contents_congr fun i bound => ?_
    exact entrySlot_inserted sound inside page (ne_stFpNull settable.time) rfl rfl settable.fits
      bound

theorem flash_find (sound : Sound dev.endian Fits s) (sign : 0 ≤ t) :
    (∃ i e cmd args, storageFlightplanFindIndexTlb s t = some i ∧ i < schFpMaxEntries ∧
        entrySlot dev.endian s i = some e ∧ e.unixtime = t ∧ e.cmd = some cmd ∧
        e.args = some args ∧ Fits cmd ∧ Fits args) ∨
      storageFlightplanFindIndexTlb s t = none ∧ ∀ e ∈ flashContent dev s, e.unixtime ≠ t := by
  rw [sound.find_time (ne_stFpNull sign)]
  cases found : first schFpMaxEntries fun i =>
      (entrySlot dev.endian s i).any fun e => e.unixtime = t with
  | none =>
    refine .inr ⟨rfl, fun e mem time => ?_⟩
    obtain ⟨i, inside, entry⟩ := mem_contents.mp mem
    have miss := first_eq_none_iff.mp found i inside
    simp [entry, time] at miss
  | some i =>
    obtain ⟨inside, hit, -⟩ := first_eq_some_iff.mp found
    have live : (s.stFlightplanTlb i).unixtime ≠ stFpNull := by
      intro null
      simp [entrySlot_of_null null] at hit
    obtain ⟨e, cmd, args, entry, -, hc, ha, fits⟩ := sound.entry inside live
    rw [entry] at hit
    exact .inl ⟨i, e, cmd, args, rfl, inside, entry, by simpa using hit, hc, ha, fits⟩

theorem flash_cleared (c : Config) (keeps : FlashKeeps dev plan s) {i : Nat} {e : FpEntry}
    (inside : i < schFpMaxEntries) (entry : entrySlot dev.endian s i = some e) (value : Int32) :
    ∃ rc s', datSetSystemVar (flashStorage dev) c (clearedStore dev.endian s i) c.datFplQueue
        value = some (rc, s') ∧ Sound dev.endian Fits s' ∧
      usedPages s'.stFlightplanTlb = plan.settings ∧
      flashContent dev s = e ::ₘ flashContent dev s' := by
  obtain ⟨rc, s', write, same, content, used⟩ :=
    counter_written dev c (clearedStore dev.endian s i) value
  refine ⟨rc, s', write, sound_framOnly same (sound_cleared keeps.sound inside), ?_, ?_⟩
  · rw [used, ← keeps.used]
    exact usedPages_update inside freeSlot
  · have slots := fun j (_ : j < schFpMaxEntries) => entrySlot_cleared (s := s) dev.endian i j
    rw [content, flashContent, flashContent, contents_congr slots]
    exact contents_clear inside entry

theorem flash_delete (works : Reliable dev) (sound : Sound dev.endian Fits s) {i : Nat}
    (scan : storageFlightplanFindIndexTlb s t = some i) :
    (flashStorage dev).storageFlightPlanDeleteRow s t =
      some (schStOk, clearedStore dev.endian s i) :=
  (deleteRow_found sound.toInitialised scan).trans (congrArg some (eraseSlot_reliable works i))

theorem flash_serves (works : Reliable dev) (c : Config) :
    Serves (flashStorage dev) c (flashContent dev) (FlashKeeps dev) := by
  intro plan s call represents keeps admitted
  have sound := keeps.sound
  obtain ⟨entries, queue⟩ := datGetSystemVar_defined (c := c) works s c.datFplQueue
  cases call with
  | set t command args executions periodical =>
    have settable : Settable plan t command args := admitted
    obtain ⟨s', run, sound', used, content⟩ :=
      flash_set (c := c) works keeps represents settable executions periodical
    refine ⟨⟨schStOk, none⟩, s', by simp [perform, run], ?_, sound', used⟩
    rw [content]
    exact .added
  | get t =>
    have sign : 0 ≤ t := admitted
    rcases flash_find sound sign with ⟨i, e, cmd, args, scan, inside, entry, rfl, hc, ha, fits⟩ |
      ⟨scan, free⟩
    · have back := getIdx_exact works sound inside
      rw [entry] at back
      have get : (flashStorage dev).storageFlightPlanGetArgs s e.unixtime = _ :=
        getArgs_of_found scan back hc ha fits
      have delete := flash_delete works sound scan
      obtain ⟨rc, s', write, sound', used, split⟩ :=
        flash_cleared c keeps inside entry (entries - 1)
      have found : plan.entry e.unixtime = taskOf e := by
        rw [split] at represents
        exact represents.entry_head
      have delivers : taskOf e = some ⟨cmd, args, e.executions, e.periodical, e.node⟩ := by
        simp [taskOf, hc, ha]
      refine ⟨_, s', perform_get (by simp [datGetFp, fetchAndDelete, queue, get, delete, write]),
        .taken split delivers, sound', ?_⟩
      rw [used, planCall, found, delivers]
      rfl
    · obtain ⟨-, rc, failed, run⟩ := flash_refused (c := c) works scan
      have get : (flashStorage dev).storageFlightPlanGetArgs s t = some (.error schStError) := by
        simp [flashStorage, FlashStorage.storageFlightPlanGetArgs, storageFlightPlanGetSt, scan]
      refine ⟨_, s, perform_get_error (by simp [datGetFp, fetchAndDelete, queue, get]),
        .absent free, sound, ?_⟩
      rw [planCall, represents.absent_iff.mpr free]
      exact keeps.used
  | del t =>
    obtain ⟨sign, present⟩ : 0 ≤ t ∧ (plan.entry t).isSome := admitted
    rcases flash_find sound sign with ⟨i, e, cmd, args, scan, inside, entry, rfl, -⟩ | ⟨-, free⟩
    · have delete := flash_delete works sound scan
      obtain ⟨rc, s', write, sound', used, split⟩ :=
        flash_cleared c keeps inside entry (entries - 1)
      exact ⟨⟨schStOk, none⟩, s', by simp [perform, datDelFp, queue, delete, write],
        .deleted split, sound', used⟩
    · have absent := represents.absent_iff.mpr free
      simp [absent] at present

end Flash

/-! The three together. -/

section Agreement
open RamStorage RamFlightPlan SqliteStorage SqliteFlightPlan NonVolatile FlashStorage
  FlashOperations FlashSections FlashTable
variable {c : Config} {dev : Device}

theorem ram_started {ram : RamStore} {lastSensor : Nat}
    (boot : RamStorage.datRepoInit c lastSensor = some ram) :
    Represents emptyPlan (liveEntries ram) ∧ ramKeeps c emptyPlan ram := by
  obtain ⟨s, boot', fresh⟩ := datRepoInit_fresh c lastSensor
  rw [boot] at boot'
  cases boot'
  obtain ⟨⟨db, status, stocked, -⟩, live⟩ := fresh.kept
  exact ⟨live ▸ represents_empty, db, status, stocked⟩

theorem sqlite_started {sqlite : SqliteStore} (opened : OpenedEmpty c sqlite) :
    Represents emptyPlan (sqliteContent sqlite) ∧ sqliteKeeps c emptyPlan sqlite := by
  have none : sqliteContent sqlite = 0 := by simp [sqliteContent, planRows, opened.table]
  exact ⟨none ▸ represents_empty, opened.counted⟩

theorem flash_starts (works : Reliable dev) (media : Media) (log : List NvOp) (lastSensor : Nat) :
    ∃ booted flash, FlashStorage.datRepoInit dev (powerOn media log) lastSensor = some booted ∧
      datResetFp (flashStorage dev) c booted = some (schStOk, flash) := by
  obtain ⟨booted, boot, init⟩ := datRepoInit_initialised dev media log lastSensor
  have cleared : (flashStorage dev).storageFlightPlanReset booted =
      some (schStOk, resetStore dev.endian booted) :=
    storageFlightPlanReset_reliable works.writes init
  obtain ⟨rc, flash, write, -⟩ := counter_written dev c (resetStore dev.endian booted) 0
  exact ⟨booted, flash, boot, by simp [datResetFp, cleared, write]⟩

theorem flash_started (works : Reliable dev) {media : Media} {log : List NvOp} {lastSensor : Nat}
    {booted flash : FlashStore} {rc : Int32}
    (boot : FlashStorage.datRepoInit dev (powerOn media log) lastSensor = some booted)
    (reset : datResetFp (flashStorage dev) c booted = some (rc, flash)) :
    Represents emptyPlan (flashContent dev flash) ∧ FlashKeeps dev emptyPlan flash := by
  obtain ⟨s, boot', init⟩ := datRepoInit_initialised dev media log lastSensor
  rw [boot] at boot'
  cases boot'
  have cleared : (flashStorage dev).storageFlightPlanReset booted =
      some (schStOk, resetStore dev.endian booted) :=
    storageFlightPlanReset_reliable works.writes init
  obtain ⟨rc', s', write, same, content, used⟩ :=
    counter_written dev c (resetStore dev.endian booted) 0
  obtain ⟨-, rfl⟩ : schStOk = rc ∧ s' = flash := by simpa [datResetFp, cleared, write] using reset
  have none : flashContent dev s' = 0 := by
    rw [content, flashContent, contents_eq_zero_iff]
    exact fun i inside => entrySlot_of_null (clearedTlb_free inside)
  refine ⟨none ▸ represents_empty, sound_framOnly same (sound_reset init), ?_⟩
  rw [used]
  exact usedPages_cleared

/-- From their starts the three back ends give the replies of the plan to every
    history that it admits, and hold the same entries after it. -/
theorem plan_back_ends_agree {lastSensor : Nat} {ram : RamStore} {sqlite : SqliteStore}
    {media : Media} {log : List NvOp} {booted flash : FlashStore} {rc : Int32}
    (bootRam : RamStorage.datRepoInit c lastSensor = some ram) (opened : OpenedEmpty c sqlite)
    (works : Reliable dev)
    (bootFlash : FlashStorage.datRepoInit dev (powerOn media log) lastSensor = some booted)
    (reset : datResetFp (flashStorage dev) c booted = some (rc, flash)) {calls : List FpCall}
    (admitted : AdmitsAll (planCall c) Admitted emptyPlan calls) :
    ∃ ram' sqlite' flash',
      replies (perform (ramStorage c) c) ram calls =
        some ((answers (planCall c) emptyPlan calls).1, ram') ∧
      replies (perform sqliteStorage c) sqlite calls =
        some ((answers (planCall c) emptyPlan calls).1, sqlite') ∧
      replies (perform (flashStorage dev) c) flash calls =
        some ((answers (planCall c) emptyPlan calls).1, flash') ∧
      Represents (answers (planCall c) emptyPlan calls).2 (liveEntries ram') ∧
      sqliteContent sqlite' = liveEntries ram' ∧ flashContent dev flash' = liveEntries ram' := by
  obtain ⟨ram', runRam, inRam, -⟩ :=
    (ram_serves c).implements.replies (ram_started bootRam) admitted
  obtain ⟨sqlite', runSqlite, inSqlite, -⟩ :=
    (sqlite_serves c).implements.replies (sqlite_started opened) admitted
  obtain ⟨flash', runFlash, inFlash, -⟩ :=
    (flash_serves works c).implements.replies (flash_started works bootFlash reset) admitted
  exact ⟨ram', sqlite', flash', runRam, runSqlite, runFlash, inRam, inSqlite.unique inRam,
    inFlash.unique inRam⟩

def twoTasks : List FpCall :=
  [.set 10 pingText noText 1 0, .set 20 pingText pingText 3 60, .get 10, .get 10, .del 20]

theorem twoTasks_admitted : AdmitsAll (planCall simpleConfig) Admitted emptyPlan twoTasks := by
  have plain : hasQuote pingText = false ∧ hasQuote noText = false := by decide
  refine ⟨⟨by decide, rfl, by decide, by decide, plain, ping_fits⟩,
    ⟨by decide, rfl, by decide, by decide, ⟨plain.1, plain.1⟩, ⟨ping_fits.1, ping_fits.1⟩⟩,
    show (0 : Int32) ≤ 10 by decide, show (0 : Int32) ≤ 10 by decide, ⟨by decide, rfl⟩, trivial⟩

theorem plan_back_ends_agree_on_two_tasks :
    ∃ ram booted rc flash, RamStorage.datRepoInit simpleConfig 1 = some ram ∧
      FlashStorage.datRepoInit idealDevice (powerOn blankMedia []) 1 = some booted ∧
      datResetFp (flashStorage idealDevice) simpleConfig booted = some (rc, flash) ∧
      ∃ ram' sqlite' flash',
        replies (perform (ramStorage simpleConfig) simpleConfig) ram twoTasks =
          some ((answers (planCall simpleConfig) emptyPlan twoTasks).1, ram') ∧
        replies (perform sqliteStorage simpleConfig) openedStore twoTasks =
          some ((answers (planCall simpleConfig) emptyPlan twoTasks).1, sqlite') ∧
        replies (perform (flashStorage idealDevice) simpleConfig) flash twoTasks =
          some ((answers (planCall simpleConfig) emptyPlan twoTasks).1, flash') ∧
        sqliteContent sqlite' = liveEntries ram' ∧
        flashContent idealDevice flash' = liveEntries ram' := by
  obtain ⟨ram, bootRam, -⟩ := datRepoInit_fresh simpleConfig 1
  obtain ⟨booted, flash, bootFlash, reset⟩ :=
    flash_starts (c := simpleConfig) idealDevice_reliable blankMedia [] 1
  obtain ⟨ram', sqlite', flash', one, two, three, -, same⟩ := plan_back_ends_agree bootRam
    openedStore_empty idealDevice_reliable bootFlash reset twoTasks_admitted
  exact ⟨ram, booted, schStOk, flash, bootRam, bootFlash, reset, ram', sqlite', flash', one, two,
    three, same⟩

end Agreement

end PlanBackEnds
