import SuchaiFlight.Library.Runs
import SuchaiFlight.RepoFlightPlan
import SuchaiFlight.SqliteStorage

/-!
The flight plan calls of `repoData.c` on the SQLite back end. An insertion
replaces the row of the same time and a deletion of no row succeeds, but the
repository counts by the results of the calls.
-/
namespace SqliteFlightPlan
open CStrings StorageApi RepoData RowTables Runs StatusVariables SqliteStorage
open RepoFlightPlan

def Ordinary : PlanCall → Prop
  | .set t (some command) (some args) _ _ =>
    0 ≤ t ∧ hasQuote command = false ∧ hasQuote args = false
  | .get t => 0 ≤ t
  | .del t => 0 ≤ t
  | _ => False

def planStep (c : Config) (s : SqliteStore) (call : PlanCall) : Option SqliteStore :=
  (stepPlan sqliteStorage c s call).map Prod.snd

def planRows (s : SqliteStore) : List FpEntry :=
  match s.fpTable with
  | none => []
  | some table => values table

def QueueExact (c : Config) (s : SqliteStore) : Prop :=
  ∃ q, datGetSystemVar sqliteStorage c s c.datFplQueue = some q ∧
    q.toInt = (planRows s).length

structure Counted (c : Config) (s : SqliteStore) : Prop where
  isOpen : s.storageIsOpen = true
  table : s.fpTable.isSome
  distinct : ((planRows s).map FpEntry.unixtime).Nodup
  texts : ∀ e ∈ planRows s, e.cmd.isSome ∧ e.args.isSome
  queue : QueueExact c s

def CallExact (c : Config) (s : SqliteStore) (call : PlanCall) : Prop :=
  ∃ rc s', stepPlan sqliteStorage c s call = some (rc, s') ∧ QueueExact c s' ∧
    ∀ t, call = .del t → (rc = schStOk ↔ ∃ e ∈ planRows s, e.unixtime = t)

/-- The condition on a call: no row of that time is set again, a row that is
    deleted exists, and the counter does not overflow. -/
def CallFits (s : SqliteStore) : PlanCall → Prop
  | .set t _ _ _ _ => (∀ e ∈ planRows s, e.unixtime ≠ t) ∧ (planRows s).length < 2147483647
  | .del t => ∃ e ∈ planRows s, e.unixtime = t
  | _ => True

variable {c : Config} {s : SqliteStore} {t : Int32}

theorem queue_write (isOpen : s.storageIsOpen = true) (value : Int32) :
    ∃ s', datSetSystemVar sqliteStorage c s c.datFplQueue value = some (schStOk, s') ∧
      s'.storageIsOpen = true ∧ s'.fpTable = s.fpTable ∧
      datGetSystemVar sqliteStorage c s' c.datFplQueue = some value := by
  obtain ⟨s', set, isOpen', rest, vote⟩ :=
    datSetSystemVar_spec (sqlite_status c) isOpen c.fplQueue_lt value
  refine ⟨s', set, isOpen', congrArg Prod.fst rest, ?_⟩
  rw [datGetSystemVar_eq (sqlite_status c) isOpen' c.fplQueue_lt, vote _ c.fplQueue_lt, if_pos rfl]
  simp

def withoutTime (t : Int32) (rows : List FpEntry) : List FpEntry :=
  rows.filter fun e => !decide (e.unixtime = t)

theorem withoutTime_of_absent {rows : List FpEntry} (absent : ∀ e ∈ rows, e.unixtime ≠ t) :
    withoutTime t rows = rows := by
  rw [withoutTime, List.filter_eq_self]
  intro e mem
  simpa using absent e mem

theorem withoutTime_length {rows : List FpEntry}
    (distinct : (rows.map FpEntry.unixtime).Nodup) (live : ∃ e ∈ rows, e.unixtime = t) :
    (withoutTime t rows).length + 1 = rows.length := by
  induction rows with
  | nil => simp at live
  | cons e rest ih =>
    rw [List.map_cons, List.nodup_cons] at distinct
    by_cases hit : e.unixtime = t
    · have absent : ∀ f ∈ rest, f.unixtime ≠ t := by
        intro f mem same
        exact distinct.1 (hit ▸ same ▸ List.mem_map_of_mem mem)
      have rest_eq := withoutTime_of_absent absent
      simp only [withoutTime] at rest_eq ⊢
      simp [hit, rest_eq]
    · obtain ⟨f, mem, time⟩ := live
      have inRest : f ∈ rest := by
        rcases List.mem_cons.mp mem with rfl | mem
        · exact absurd time hit
        · exact mem
      have shorter := ih distinct.2 ⟨f, inRest, time⟩
      simp only [withoutTime] at shorter ⊢
      simp [hit, shorter]

theorem withoutTime_distinct {rows : List FpEntry} (distinct : (rows.map FpEntry.unixtime).Nodup) :
    ((withoutTime t rows).map FpEntry.unixtime).Nodup :=
  distinct.sublist (List.filter_sublist.map FpEntry.unixtime)

/-! What the storage calls do to the rows. -/

theorem set_eq {table : RowTable FpEntry} (fpTable : s.fpTable = some table) (sign : 0 ≤ t)
    {command args : CString} (plain : hasQuote command = false ∧ hasQuote args = false)
    (executions period node : Int32) :
    sqliteStorage.storageFlightPlanSet s t (some command) (some args) executions period node =
      some (schStOk, { s with fpTable := some (insertOrReplace (fun e => e.unixtime = t)
        ⟨t, executions, period, node, some command, some args⟩ table) }) := by
  have nonneg : ¬ t < 0 := Int32.not_lt.mpr sign
  simp [sqliteStorage, storageFlightPlanSet, storageFlightPlanSetSt, nonneg, fpTable, plain]

theorem set_rows (open_ : s.fpTable.isSome) {command args : CString} (sign : 0 ≤ t)
    (plain : hasQuote command = false ∧ hasQuote args = false) (executions period node : Int32) :
    ∃ s', sqliteStorage.storageFlightPlanSet s t (some command) (some args) executions period
        node = some (schStOk, s') ∧ s'.storageIsOpen = s.storageIsOpen ∧
      s'.statusTable = s.statusTable ∧ s'.fpTable.isSome ∧
      planRows s' = withoutTime t (planRows s) ++
        [⟨t, executions, period, node, some command, some args⟩] := by
  obtain ⟨table, eq⟩ := Option.isSome_iff_exists.mp open_
  refine ⟨_, set_eq eq sign plain executions period node, rfl, rfl, rfl, ?_⟩
  simp [planRows, eq, withoutTime]

theorem delete_rows (open_ : s.fpTable.isSome) (t : Int32) :
    ∃ s', sqliteStorage.storageFlightPlanDeleteRow s t = some (schStOk, s') ∧
      s'.storageIsOpen = s.storageIsOpen ∧ s'.statusTable = s.statusTable ∧ s'.fpTable.isSome ∧
      planRows s' = withoutTime t (planRows s) := by
  obtain ⟨table, eq⟩ := Option.isSome_iff_exists.mp open_
  refine ⟨{ s with fpTable := some (deleteRows (fun r => r.2.unixtime = t) table) },
    ?_, rfl, rfl, rfl, ?_⟩
  · simp [sqliteStorage, storageFlightPlanDeleteRow, eq]
  · simp only [planRows, eq, withoutTime]
    exact values_deleteRows fun e : FpEntry => decide (e.unixtime = t)

theorem get_rows (open_ : s.fpTable.isSome)
    (texts : ∀ e ∈ planRows s, e.cmd.isSome ∧ e.args.isSome) (t : Int32) :
    (∃ e ∈ planRows s, e.unixtime = t) ∧
        (∃ out, sqliteStorage.storageFlightPlanGetArgs s t = some (.ok out)) ∨
      (∀ e ∈ planRows s, e.unixtime ≠ t) ∧
        sqliteStorage.storageFlightPlanGetArgs s t = some (.error schStError) := by
  obtain ⟨table, eq⟩ := Option.isSome_iff_exists.mp open_
  have rows : planRows s = values table := by simp [planRows, eq]
  cases found : selectFirst (fun e : FpEntry => decide (e.unixtime = t)) table with
  | none =>
    have absent := List.find?_eq_none.mp found
    refine .inr ⟨?_, by simp [sqliteStorage, storageFlightPlanGetArgs, storageFlightPlanGetSt, eq, found]⟩
    intro e mem
    simpa using absent e (rows ▸ mem)
  | some row =>
    have mem : row ∈ planRows s := rows ▸ List.mem_of_find?_eq_some found
    have time := List.find?_some found
    obtain ⟨command, hasCommand⟩ := Option.isSome_iff_exists.mp (texts row mem).1
    obtain ⟨args, hasArgs⟩ := Option.isSome_iff_exists.mp (texts row mem).2
    refine .inl ⟨⟨row, mem, by simpa using time⟩, ?_⟩
    simp [sqliteStorage, storageFlightPlanGetArgs, storageFlightPlanGetSt, eq, found, hasCommand,
      hasArgs]

/-! What the calls of the repository do to the rows and to the counter. -/

structure Holds (c : Config) (s : SqliteStore) (rows : List FpEntry) (q : Int32) : Prop where
  isOpen : s.storageIsOpen = true
  table : s.fpTable.isSome
  rows : planRows s = rows
  queue : datGetSystemVar sqliteStorage c s c.datFplQueue = some q

theorem Holds.queue_exact {rows : List FpEntry} {q : Int32} (holds : Holds c s rows q) :
    QueueExact c s ↔ q.toInt = rows.length := by
  rw [QueueExact, holds.queue, holds.rows]
  simp

theorem Counted.of_holds {rows : List FpEntry} {q : Int32} (holds : Holds c s rows q)
    (distinct : (rows.map FpEntry.unixtime).Nodup)
    (texts : ∀ e ∈ rows, e.cmd.isSome ∧ e.args.isSome) (exact_ : QueueExact c s) :
    Counted c s where
  isOpen := holds.isOpen
  table := holds.table
  distinct := holds.rows ▸ distinct
  texts := holds.rows ▸ texts
  queue := exact_

theorem Holds.write {s₁ : SqliteStore} {rows : List FpEntry} (isOpen : s₁.storageIsOpen = true)
    (table : s₁.fpTable.isSome) (eq : planRows s₁ = rows) (q : Int32) :
    ∃ s', datSetSystemVar sqliteStorage c s₁ c.datFplQueue q = some (schStOk, s') ∧
      Holds c s' rows q := by
  obtain ⟨s', write, isOpen', same, queue⟩ := queue_write (c := c) isOpen q
  refine ⟨s', write, isOpen', same ▸ table, ?_, queue⟩
  rw [planRows, same, ← planRows, eq]

theorem step_set {q : Int32} (counted : Counted c s)
    (queue : datGetSystemVar sqliteStorage c s c.datFplQueue = some q) {command args : CString}
    (sign : 0 ≤ t) (plain : hasQuote command = false ∧ hasQuote args = false)
    (executions period : Int32) :
    ∃ s', stepPlan sqliteStorage c s (.set t (some command) (some args) executions period) =
        some (schStOk, s') ∧
      Holds c s' (withoutTime t (planRows s) ++
        [⟨t, executions, period, c.schCommNode, some command, some args⟩]) (q + 1) := by
  obtain ⟨s₁, set, isOpen, -, table, rows⟩ :=
    set_rows counted.table sign plain executions period c.schCommNode
  obtain ⟨s', write, holds⟩ := Holds.write (c := c) (isOpen.trans counted.isOpen) table rows (q + 1)
  exact ⟨s', by simp [stepPlan, datSetFp, queue, set, write], holds⟩

theorem step_del {q : Int32} (counted : Counted c s)
    (queue : datGetSystemVar sqliteStorage c s c.datFplQueue = some q) (t : Int32) :
    ∃ s', stepPlan sqliteStorage c s (.del t) = some (schStOk, s') ∧
      Holds c s' (withoutTime t (planRows s)) (q - 1) := by
  obtain ⟨s₁, delete, isOpen, -, table, rows⟩ := delete_rows counted.table t
  obtain ⟨s', write, holds⟩ := Holds.write (c := c) (isOpen.trans counted.isOpen) table rows (q - 1)
  exact ⟨s', by simp [stepPlan, datDelFp, queue, delete, write], holds⟩

theorem step_get {q : Int32} (counted : Counted c s)
    (queue : datGetSystemVar sqliteStorage c s c.datFplQueue = some q) (t : Int32) :
    ∃ rc s', stepPlan sqliteStorage c s (.get t) = some (rc, s') ∧
      ((∃ e ∈ planRows s, e.unixtime = t) ∧ Holds c s' (withoutTime t (planRows s)) (q - 1) ∨
        s' = s) := by
  rcases get_rows counted.table counted.texts t with ⟨live, out, get⟩ | ⟨-, get⟩
  · obtain ⟨s₁, delete, isOpen, -, table, rows⟩ := delete_rows counted.table t
    obtain ⟨s', write, holds⟩ :=
      Holds.write (c := c) (isOpen.trans counted.isOpen) table rows (q - 1)
    refine ⟨schStOk, s', ?_, .inl ⟨live, holds⟩⟩
    simp [stepPlan, datGetFp, fetchAndDelete, queue, get, delete, write]
  · exact ⟨schStError, s, by simp [stepPlan, datGetFp, fetchAndDelete, queue, get], .inr rfl⟩

theorem count_up {q : Int32} {n : Nat} (count : q.toInt = n) :
    (q + 1).toInt = (n + 1 : Nat) ↔ n < 2147483647 := by
  have bound := q.toInt_lt
  rw [Int32.toInt_add, show (1 : Int32).toInt = 1 from rfl, Int.bmod_def]
  omega

theorem count_up_ne {q : Int32} {n : Nat} (count : q.toInt = n) : (q + 1).toInt ≠ n := by
  have bound := q.toInt_lt
  rw [Int32.toInt_add, show (1 : Int32).toInt = 1 from rfl, Int.bmod_def]
  omega

theorem count_down {q : Int32} {n : Nat} (count : q.toInt = n + 1) : (q - 1).toInt = n := by
  have bound := q.toInt_lt
  rw [Int32.toInt_sub, show (1 : Int32).toInt = 1 from rfl, Int.bmod_def]
  omega

theorem callExact_of_step {call : PlanCall} {rc : Int32} {s' : SqliteStore}
    (step : stepPlan sqliteStorage c s call = some (rc, s')) :
    CallExact c s call ↔ QueueExact c s' ∧
      ∀ t, call = .del t → (rc = schStOk ↔ ∃ e ∈ planRows s, e.unixtime = t) := by
  simp [CallExact, step]

theorem set_exact_iff (counted : Counted c s) {command args : CString} {executions period : Int32}
    (ordinary : Ordinary (.set t (some command) (some args) executions period)) :
    CallExact c s (.set t (some command) (some args) executions period) ↔
      CallFits s (.set t (some command) (some args) executions period) := by
  obtain ⟨q, queue, count⟩ := counted.queue
  obtain ⟨sign, plain⟩ := ordinary
  obtain ⟨s', step, holds⟩ := step_set counted queue sign plain executions period
  rw [callExact_of_step step, holds.queue_exact]
  simp only [CallFits, List.length_append, List.length_singleton, reduceCtorEq, false_implies,
    implies_true, and_true]
  by_cases live : ∃ e ∈ planRows s, e.unixtime = t
  · have fewer := withoutTime_length counted.distinct live
    have not_fresh : ¬ ∀ e ∈ planRows s, e.unixtime ≠ t := by
      obtain ⟨e, mem, time⟩ := live
      exact fun fresh => fresh e mem time
    have off := count_up_ne count
    constructor
    · intro same
      omega
    · rintro ⟨fresh, -⟩
      exact absurd fresh not_fresh
  · have fresh : ∀ e ∈ planRows s, e.unixtime ≠ t := fun e mem time => live ⟨e, mem, time⟩
    rw [withoutTime_of_absent fresh, count_up count]
    exact ⟨fun room => ⟨fresh, room⟩, And.right⟩

theorem del_exact_iff (counted : Counted c s) (t : Int32) :
    CallExact c s (.del t) ↔ CallFits s (.del t) := by
  obtain ⟨q, queue, count⟩ := counted.queue
  obtain ⟨s', step, holds⟩ := step_del counted queue t
  rw [callExact_of_step step, holds.queue_exact]
  simp only [CallFits, PlanCall.del.injEq, forall_eq', true_iff]
  refine ⟨And.right, fun live => ⟨?_, live⟩⟩
  have fewer := withoutTime_length counted.distinct live
  exact count_down (by omega)

theorem get_exact (counted : Counted c s) (t : Int32) : CallExact c s (.get t) := by
  obtain ⟨q, queue, count⟩ := counted.queue
  obtain ⟨rc, s', step, ⟨live, holds⟩ | rfl⟩ := step_get counted queue t
  · rw [callExact_of_step step, holds.queue_exact]
    refine ⟨?_, nofun⟩
    have fewer := withoutTime_length counted.distinct live
    exact count_down (by omega)
  · rw [callExact_of_step step]
    exact ⟨counted.queue, nofun⟩

theorem call_exact_iff {call : PlanCall} (counted : Counted c s) (ordinary : Ordinary call) :
    CallExact c s call ↔ CallFits s call := by
  cases call with
  | set t command args executions period =>
    match command, args with
    | some command, some args => exact set_exact_iff counted ordinary
    | none, _ => exact ordinary.elim
    | some _, none => exact ordinary.elim
  | get t => exact iff_of_true (get_exact counted t) trivial
  | del t => exact del_exact_iff counted t
  | reset => exact ordinary.elim
  | deleteMemorySections => exact ordinary.elim

theorem counted_step {call : PlanCall} {s' : SqliteStore} (counted : Counted c s)
    (ordinary : Ordinary call) (exact_ : CallExact c s call)
    (stepped : planStep c s call = some s') : Counted c s' := by
  obtain ⟨q, queue, count⟩ := counted.queue
  obtain ⟨⟨rc, s₁⟩, step, rfl⟩ := Option.map_eq_some_iff.mp stepped
  have queue' := ((callExact_of_step step).mp exact_).1
  have fewer : ∀ t, ∀ e ∈ withoutTime t (planRows s), e ∈ planRows s :=
    fun t e mem => List.mem_of_mem_filter mem
  cases call with
  | set t command args executions period =>
    match command, args with
    | some command, some args =>
      obtain ⟨sign, plain⟩ := ordinary
      obtain ⟨s₂, run, holds⟩ := step_set counted queue sign plain executions period
      obtain ⟨-, rfl⟩ := Prod.mk.inj (Option.some.inj (step.symm.trans run))
      refine .of_holds holds ?_ ?_ queue'
      · rw [List.map_append, List.nodup_append]
        refine ⟨withoutTime_distinct counted.distinct, by simp, ?_⟩
        rintro time mem other single rfl
        obtain ⟨e, mem, rfl⟩ := List.mem_map.mp mem
        simp_all [withoutTime]
      · intro e mem
        rcases List.mem_append.mp mem with old | new
        · exact counted.texts e (fewer t e old)
        · rw [List.mem_singleton.mp new]
          exact ⟨rfl, rfl⟩
    | none, _ => exact ordinary.elim
    | some _, none => exact ordinary.elim
  | get t =>
    obtain ⟨rc₂, s₂, run, ⟨-, holds⟩ | rfl⟩ := step_get counted queue t
    · obtain ⟨-, rfl⟩ := Prod.mk.inj (Option.some.inj (step.symm.trans run))
      exact .of_holds holds (withoutTime_distinct counted.distinct)
        (fun e mem => counted.texts e (fewer t e mem)) queue'
    · obtain ⟨-, rfl⟩ := Prod.mk.inj (Option.some.inj (step.symm.trans run))
      exact counted
  | del t =>
    obtain ⟨s₂, run, holds⟩ := step_del counted queue t
    obtain ⟨-, rfl⟩ := Prod.mk.inj (Option.some.inj (step.symm.trans run))
    exact .of_holds holds (withoutTime_distinct counted.distinct)
      (fun e mem => counted.texts e (fewer t e mem)) queue'
  | reset => exact ordinary.elim
  | deleteMemorySections => exact ordinary.elim

structure OpenedEmpty (c : Config) (s : SqliteStore) : Prop where
  isOpen : s.storageIsOpen = true
  table : s.fpTable = some empty
  queue : datGetSystemVar sqliteStorage c s c.datFplQueue = some 0

theorem OpenedEmpty.counted (opened : OpenedEmpty c s) : Counted c s where
  isOpen := opened.isOpen
  table := by simp [opened.table]
  distinct := by simp [planRows, opened.table]
  texts := by simp [planRows, opened.table]
  queue := ⟨0, opened.queue, by simp [planRows, opened.table]⟩

/-- In a history from the empty table every call leaves an exact counter and
    reports deletions rightly if and only if no live time is set again and no
    absent time deleted. -/
theorem sqlite_counter_exact_iff (opened : OpenedEmpty c s) {calls : List PlanCall}
    (ordinary : ∀ call ∈ calls, Ordinary call) :
    Along (planStep c) (CallExact c) s calls ↔ Along (planStep c) CallFits s calls :=
  along_iff (I := Counted c) (D := Ordinary) (fun _ _ => call_exact_iff)
    (fun _ _ _ => counted_step) opened.counted ordinary

def openedStore : SqliteStore where
  storageIsOpen := true
  statusTable _ := some 0
  fpTable := some empty
  payloadsSchema := false
  payloadsEntries := 0
  payloadTables _ := empty

def pingAt (t : Int32) : PlanCall := .set t (some pingText) (some noText) 1 0

theorem openedStore_empty : OpenedEmpty simpleConfig openedStore := ⟨rfl, rfl, rfl⟩

theorem sqlite_counter_exact_pair :
    Along (planStep simpleConfig) (CallExact simpleConfig) openedStore [pingAt 100, .del 100] ↔
      Along (planStep simpleConfig) CallFits openedStore [pingAt 100, .del 100] := by
  apply sqlite_counter_exact_iff openedStore_empty
  simp [Ordinary, pingAt, hasQuote, pingText, noText]

theorem sqlite_counter_drifts :
    OpenedEmpty simpleConfig openedStore ∧ Ordinary (.del 100) ∧ Ordinary (pingAt 100) ∧
      ¬ Along (planStep simpleConfig) (CallExact simpleConfig) openedStore [.del 100] ∧
      ¬ Along (planStep simpleConfig) (CallExact simpleConfig) openedStore
        [pingAt 100, pingAt 100] := by
  have ordinary : Ordinary (pingAt 100) := by simp [Ordinary, pingAt, hasQuote, pingText, noText]
  refine ⟨openedStore_empty, by simp [Ordinary], ordinary, ?_, ?_⟩
  · intro along
    have deleted := (del_exact_iff openedStore_empty.counted 100).mp (along_cons.mp along).1
    simp [CallFits, planRows, openedStore] at deleted
  · intro along
    obtain ⟨first, later⟩ := along_cons.mp along
    obtain ⟨s', step, holds⟩ := step_set openedStore_empty.counted openedStore_empty.queue
      ordinary.1 ordinary.2 1 0
    have stepped : planStep simpleConfig openedStore (pingAt 100) = some s' := by
      rw [planStep, pingAt, step]
      rfl
    have counted := counted_step openedStore_empty.counted ordinary first stepped
    have again := (call_exact_iff counted ordinary).mp (along_cons.mp (later s' stepped)).1
    have fresh := again.1 ⟨100, 1, 0, simpleConfig.schCommNode, some pingText, some noText⟩
    simp [holds.rows] at fresh

end SqliteFlightPlan
