import SuchaiFlight.SqliteFlightPlan

/-!
The scans of the flight plan by index on the SQLite back end. They read the
rows with numbers 1 to `SCH_FP_MAX_ENTRIES`, and a new row is numbered after
the greatest number in use.
-/
namespace SqliteScan
open StorageApi RepoData RowTables Runs StatusVariables SqliteStorage
open RepoFlightPlan SqliteFlightPlan

variable {c : Config} {s : SqliteStore} {table : RowTable FpEntry} {timeMin : Int32}

theorem index_value {i : Nat} (small : i < 255) :
    (Int32.ofNat i).toInt = i ∧ Int32.ofNat i ≠ 2147483647 := by
  have value : (Int32.ofNat i).toInt = i := Int32.toInt_ofNat_of_lt (by omega)
  refine ⟨value, ?_⟩
  rw [Ne, ← Int32.toInt_inj, value, show (2147483647 : Int32).toInt = 2147483647 from rfl]
  omega

theorem index_read {i : Nat} (small : i < 255) (fpTable : s.fpTable = some table) :
    sqliteStorage.storageFlightPlanGetIdx s (Int32.ofNat i) =
      some (match rowAt (i + 1) table with
        | some row => .ok row
        | none => .error schStError) := by
  obtain ⟨value, fits⟩ := index_value small
  have number : ((i : Int) + 1).toNat = i + 1 := rfl
  simp only [sqliteStorage, storageFlightPlanGetIdx, fpTable, fits, ↓reduceIte, value, number]
  cases rowAt (i + 1) table <;> rfl

theorem index_delete {i : Nat} (small : i < 255) (fpTable : s.fpTable = some table) :
    sqliteStorage.storageFlightPlanDeleteRowIdx s (Int32.ofNat i) =
      some (schStOk, { s with fpTable := some (deleteRows (fun r => r.1 = i + 1) table) }) := by
  obtain ⟨value, fits⟩ := index_value small
  have number : ((i : Int) + 1).toNat = i + 1 := rfl
  simp only [sqliteStorage, storageFlightPlanDeleteRowIdx, fpTable, fits, ↓reduceIte, value, number]

def Timed (table : RowTable FpEntry) : Prop := ∀ r ∈ table.rows, 0 ≤ r.2.unixtime

theorem show_eq (fpTable : s.fpTable = some table) (timed : Timed table) {indexes : List Nat}
    (small : ∀ i ∈ indexes, i < 255) :
    showEntries sqliteStorage s indexes =
      some (indexes.filterMap fun i => rowAt (i + 1) table) := by
  induction indexes with
  | nil => rfl
  | cons i rest ih =>
    have later := ih fun j mem => small j (List.mem_cons_of_mem i mem)
    rw [showEntries, index_read (small i List.mem_cons_self) fpTable]
    cases found : rowAt (i + 1) table with
    | none => simp [found, later]
    | some row =>
      have real := ne_stFpNull (timed _ (rowAt_eq_some_iff.mp found))
      simp [found, later, real]

theorem datShowFp_eq (fpTable : s.fpTable = some table) (timed : Timed table) :
    datShowFp sqliteStorage s = some (scan table 255) :=
  show_eq fpTable timed fun _ mem => List.mem_range.mp mem

def stale (timeMin : Int32) (k m : Nat) (r : Nat × FpEntry) : Bool :=
  decide (k < r.1) && decide (r.1 ≤ k + m) && !decide (timeMin < r.2.unixtime)

def fresh (timeMin : Int32) (e : FpEntry) : Bool := decide (timeMin < e.unixtime)

theorem rows_kept {k m : Nat} {rows : List (Nat × FpEntry)}
    (here : ∀ r ∈ rows, r.1 = k + 1 → fresh timeMin r.2 = true) :
    rows.filter (fun r => !stale timeMin (k + 1) m r) =
      rows.filter fun r => !stale timeMin k (m + 1) r := by
  apply List.filter_congr
  intro r mem
  by_cases first : r.1 = k + 1
  · have kept := here r mem first
    simp only [fresh, decide_eq_true_eq] at kept
    simp [stale, kept]
  · have low : k + 1 < r.1 ↔ k < r.1 := by omega
    have high : r.1 ≤ k + 1 + m ↔ r.1 ≤ k + (m + 1) := by omega
    simp only [stale, low, high]

theorem rows_deleted {k m : Nat} {rows : List (Nat × FpEntry)}
    (here : ∀ r ∈ rows, r.1 = k + 1 → fresh timeMin r.2 = false) :
    (rows.filter fun r => !decide (r.1 = k + 1)).filter (fun r => !stale timeMin (k + 1) m r) =
      rows.filter fun r => !stale timeMin k (m + 1) r := by
  rw [List.filter_filter]
  apply List.filter_congr
  intro r mem
  by_cases first : r.1 = k + 1
  · have old := here r mem first
    simp only [fresh, decide_eq_false_iff_not] at old
    simp [stale, old, first]
  · have low : k + 1 < r.1 ↔ k < r.1 := by omega
    have high : r.1 ≤ k + 1 + m ↔ r.1 ≤ k + (m + 1) := by omega
    simp only [stale, low, high, first, decide_false, Bool.not_false, Bool.and_true]

def readRows (table : RowTable FpEntry) (k m : Nat) : List FpEntry :=
  (List.range' k m).filterMap fun i => rowAt (i + 1) table

theorem readRows_deleted (k m : Nat) :
    readRows (deleteRows (fun r => r.1 = k + 1) table) (k + 1) m = readRows table (k + 1) m := by
  apply List.filterMap_congr
  intro i mem
  have after := (List.mem_range'_1.mp mem).1
  exact rowAt_deleteRows_of_ne (by omega)

theorem purge_eq (timeMin : Int32) (fpTable : s.fpTable = some table) (timed : Timed table)
    (k m : Nat) (small : k + m ≤ 255) (unixtime fpEntries : Int32) :
    ∃ table', purgeEntries sqliteStorage timeMin (List.range' k m) unixtime fpEntries s =
        some (fpEntries + Int32.ofNat ((readRows table k m).countP (fresh timeMin)),
          { s with fpTable := some table' }) ∧
      table'.rows = table.rows.filter fun r => !stale timeMin k m r := by
  induction m generalizing k s table unixtime fpEntries with
  | zero =>
    refine ⟨table, ?_, ?_⟩
    · simp [purgeEntries, readRows, ← fpTable]
    · rw [eq_comm, List.filter_eq_self]
      intro r _
      simp [stale]
      omega
  | succ m ih =>
    have inside : k < 255 := by omega
    have timed' : Timed (deleteRows (fun r => r.1 = k + 1) table) :=
      fun r mem => timed r (List.mem_of_mem_filter mem)
    have delete := index_delete inside fpTable
    rw [List.range'_succ, purgeEntries, index_read inside fpTable]
    cases found : rowAt (k + 1) table with
    | none =>
      have absent := rowAt_eq_none_iff.mp found
      have reads : readRows table k (m + 1) = readRows table (k + 1) m := by
        simp [readRows, List.range'_succ, found]
      by_cases null : unixtime = stFpNull
      · obtain ⟨table', run, rows⟩ := ih fpTable timed (k + 1) (by omega) unixtime fpEntries
        refine ⟨table', by simp [null, ← run, reads], ?_⟩
        rw [rows, rows_kept fun r mem first => absurd first (absent r mem)]
      · obtain ⟨table', run, rows⟩ := ih (s := { s with fpTable := _ }) rfl timed' (k + 1)
          (by omega) unixtime fpEntries
        refine ⟨table', by simp [null, delete, run, reads, readRows_deleted], ?_⟩
        rw [rows, ← rows_deleted fun r mem first => absurd first (absent r mem)]
        rfl
    | some row =>
      have mem := rowAt_eq_some_iff.mp found
      have only : ∀ r ∈ table.rows, r.1 = k + 1 → r.2 = row := by
        intro r other same
        have again : rowAt (k + 1) table = some r.2 := rowAt_eq_some_iff.mpr (same ▸ other)
        exact Option.some.inj (again.symm.trans found)
      have reads : readRows table k (m + 1) = row :: readRows table (k + 1) m := by
        simp [readRows, List.range'_succ, found]
      by_cases late : timeMin < row.unixtime
      · obtain ⟨table', run, rows⟩ :=
          ih fpTable timed (k + 1) (by omega) row.unixtime (fpEntries + 1)
        have kept : fresh timeMin row = true := by simp [fresh, late]
        refine ⟨table', ?_, ?_⟩
        · have count : Int32.ofNat ((readRows table (k + 1) m).countP (fresh timeMin) + 1) =
              1 + Int32.ofNat ((readRows table (k + 1) m).countP (fresh timeMin)) := by
            rw [Nat.add_comm, Int32.ofNat_add]
            rfl
          simp [late, run, reads, kept, count, Int32.add_assoc]
        · rw [rows, rows_kept fun r other first => only r other first ▸ kept]
      · have real := ne_stFpNull (timed _ mem)
        have old : fresh timeMin row = false := by simp [fresh, late]
        obtain ⟨table', run, rows⟩ := ih (s := { s with fpTable := _ }) rfl timed' (k + 1)
          (by omega) row.unixtime fpEntries
        refine ⟨table', by simp [late, real, delete, run, reads, readRows_deleted, old], ?_⟩
        rw [rows, ← rows_deleted fun r other first => only r other first ▸ old]
        rfl

structure InUse (s : SqliteStore) : Prop where
  isOpen : s.storageIsOpen = true
  table : ∃ table, s.fpTable = some table ∧ Timed table

theorem inUse_of_otherTables {s' : SqliteStore} (inUse : InUse s)
    (isOpen : s'.storageIsOpen = true) (rest : otherTables s' = otherTables s) : InUse s' where
  isOpen := isOpen
  table := by
    have same : s'.fpTable = s.fpTable := congrArg Prod.fst rest
    rw [same]
    exact inUse.table

theorem inUse_write {s' : SqliteStore} {index : Nat} {value rc : Int32} (inUse : InUse s)
    (bound : index < c.datStatusLastAddress)
    (write : datSetSystemVar sqliteStorage c s index value = some (rc, s')) : InUse s' := by
  obtain ⟨s₁, set, isOpen, rest, -⟩ :=
    datSetSystemVar_spec (sqlite_status c) inUse.isOpen bound value
  cases write.symm.trans set
  exact inUse_of_otherTables inUse isOpen rest

theorem inUse_delete {s' : SqliteStore} {t rc : Int32} (inUse : InUse s)
    (delete : sqliteStorage.storageFlightPlanDeleteRow s t = some (rc, s')) : InUse s' := by
  obtain ⟨isOpen, table, fpTable, timed⟩ := inUse
  simp only [sqliteStorage, storageFlightPlanDeleteRow, fpTable, Option.some.injEq,
    Prod.mk.injEq] at delete
  obtain ⟨-, rfl⟩ := delete
  exact ⟨isOpen, _, rfl, fun r mem => timed r (List.mem_of_mem_filter mem)⟩

theorem inUse_set {s' : SqliteStore} {t executions period node rc : Int32}
    {command args : Option CStrings.CString} (inUse : InUse s)
    (set : sqliteStorage.storageFlightPlanSet s t command args executions period node =
      some (rc, s')) : InUse s' := by
  obtain ⟨isOpen, table, fpTable, timed⟩ := inUse
  simp only [sqliteStorage, storageFlightPlanSet] at set
  split at set
  · cases set
    exact ⟨isOpen, table, fpTable, timed⟩
  · rename_i accepted
    have sign : 0 ≤ t := by
      simp only [Bool.or_eq_true, decide_eq_true_eq, not_or, Int32.not_lt] at accepted
      exact accepted.1.1
    simp only [storageFlightPlanSetSt, fpTable] at set
    split at set
    · cases set
    · cases set
      refine ⟨isOpen, _, rfl, fun r mem => ?_⟩
      rcases List.mem_append.mp mem with old | new
      · exact timed r (List.mem_of_mem_filter old)
      · rw [List.mem_singleton.mp new]
        exact sign

def isSet : PlanCall → Bool
  | .set .. => true
  | _ => false

def Edit : PlanCall → Prop
  | .reset => False
  | .deleteMemorySections => False
  | _ => True

theorem inUse_counted {s₁ s' : SqliteStore} (inUse : InUse s₁) (queue :
    s' = s₁ ∨ ∃ entries rc, datSetSystemVar sqliteStorage c s₁ c.datFplQueue entries =
      some (rc, s')) : InUse s' := by
  rcases queue with rfl | ⟨entries, rc, write⟩
  · exact inUse
  · exact inUse_write inUse c.fplQueue_lt write

theorem planStep_cases {call : PlanCall} {s' : SqliteStore} (edit : Edit call)
    (stepped : planStep c s call = some s') :
    ∃ s₁, ((isSet call = true ∧ ∃ t command args executions period rc,
          sqliteStorage.storageFlightPlanSet s t command args executions period c.schCommNode =
            some (rc, s₁)) ∨
        s₁ = s ∨ ∃ t rc, sqliteStorage.storageFlightPlanDeleteRow s t = some (rc, s₁)) ∧
      (s' = s₁ ∨ ∃ entries rc, datSetSystemVar sqliteStorage c s₁ c.datFplQueue entries =
        some (rc, s')) := by
  obtain ⟨⟨rc, s₂⟩, step, rfl⟩ := Option.map_eq_some_iff.mp stepped
  cases call with
  | set t command args executions periodical =>
    obtain ⟨s₁, set, queue⟩ := datSetFp_cases step
    exact ⟨s₁, .inl ⟨rfl, _, _, _, _, _, _, set⟩, queue⟩
  | get t =>
    obtain ⟨⟨res, s₃⟩, get, eq⟩ := Option.bind_eq_some_iff.mp step
    have same : s₃ = s₂ := by cases res <;> cases eq <;> rfl
    subst same
    obtain ⟨s₁, rfl | ⟨rc₁, delete⟩, queue⟩ := datGetFp_cases get
    · exact ⟨_, .inr (.inl rfl), queue⟩
    · exact ⟨s₁, .inr (.inr ⟨t, rc₁, delete⟩), queue⟩
  | del t =>
    obtain ⟨s₁, delete, queue⟩ := datDelFp_cases step
    exact ⟨s₁, .inr (.inr ⟨t, _, delete⟩), queue⟩
  | reset => exact edit.elim
  | deleteMemorySections => exact edit.elim

theorem inUse_step {call : PlanCall} {s' : SqliteStore} (inUse : InUse s) (edit : Edit call)
    (stepped : planStep c s call = some s') : InUse s' := by
  obtain ⟨s₁, table, queue⟩ := planStep_cases edit stepped
  rcases table with ⟨-, t, command, args, executions, period, rc, set⟩ | rfl | ⟨t, rc, delete⟩
  · exact inUse_counted (inUse_set inUse set) queue
  · exact inUse_counted inUse queue
  · exact inUse_counted (inUse_delete inUse delete) queue

/-! Row numbers grow with the settings alone. -/

def lastRow (s : SqliteStore) : Nat := (s.fpTable.map lastNumber).getD 0

theorem lastRow_counted {s₁ s' : SqliteStore} (isOpen : s₁.storageIsOpen = true) (queue :
    s' = s₁ ∨ ∃ entries rc, datSetSystemVar sqliteStorage c s₁ c.datFplQueue entries =
      some (rc, s')) : lastRow s' = lastRow s₁ := by
  rcases queue with rfl | ⟨entries, rc, write⟩
  · rfl
  · obtain ⟨s₂, set, -, same, -⟩ := queue_write (c := c) isOpen entries
    cases write.symm.trans set
    rw [lastRow, lastRow, same]

theorem lastRow_delete {s' : SqliteStore} {t rc : Int32} (inUse : InUse s)
    (delete : sqliteStorage.storageFlightPlanDeleteRow s t = some (rc, s')) :
    lastRow s' ≤ lastRow s := by
  obtain ⟨-, table, fpTable, -⟩ := inUse
  simp only [sqliteStorage, storageFlightPlanDeleteRow, fpTable, Option.some.injEq,
    Prod.mk.injEq] at delete
  obtain ⟨-, rfl⟩ := delete
  simpa [lastRow, fpTable] using lastNumber_deleteRows _

theorem lastRow_set {s' : SqliteStore} {t executions period node rc : Int32}
    {command args : Option CStrings.CString} (inUse : InUse s)
    (set : sqliteStorage.storageFlightPlanSet s t command args executions period node =
      some (rc, s')) : lastRow s' ≤ lastRow s + 1 := by
  obtain ⟨-, table, fpTable, -⟩ := inUse
  simp only [sqliteStorage, storageFlightPlanSet] at set
  split at set
  · cases set
    exact Nat.le_succ _
  · simp only [storageFlightPlanSetSt, fpTable] at set
    split at set
    · cases set
    · cases set
      simp [lastRow, fpTable]

theorem lastRow_step {call : PlanCall} {s' : SqliteStore} (inUse : InUse s) (edit : Edit call)
    (stepped : planStep c s call = some s') : lastRow s' ≤ lastRow s + (isSet call).toNat := by
  obtain ⟨s₁, table, queue⟩ := planStep_cases edit stepped
  rcases table with ⟨isSet, t, command, args, executions, period, rc, set⟩ | rfl | ⟨t, rc, delete⟩
  · have counted := lastRow_counted (inUse_set inUse set).isOpen queue
    rw [isSet]
    exact counted.le.trans (lastRow_set inUse set)
  · have counted := lastRow_counted inUse.isOpen queue
    exact counted.le.trans (Nat.le_add_right _ _)
  · have counted := lastRow_counted (inUse_delete inUse delete).isOpen queue
    exact counted.le.trans ((lastRow_delete inUse delete).trans (Nat.le_add_right _ _))

theorem numbers_of_few_settings {calls : List PlanCall} {s' : SqliteStore} (inUse : InUse s)
    (none : lastRow s = 0) (edits : ∀ call ∈ calls, Edit call)
    (reached : run (planStep c) s calls = some s')
    (few : calls.countP isSet ≤ schFpMaxEntries) (fpTable : s'.fpTable = some table) :
    ∀ r ∈ table.rows, r.1 ≤ schFpMaxEntries := by
  intro r mem
  have raised := run_raised (D := Edit) (fun _ _ _ => inUse_step) (fun _ _ _ => lastRow_step)
    inUse edits reached
  have last : lastRow s' = lastNumber table := by simp [lastRow, fpTable]
  have below := le_lastNumber mem
  omega

/-- The scan shows every row once, and after a purge, whatever `fp_i` held, the
    rows are counted and none is due. -/
structure ScanComplete (c : Config) (now : Int) (s : SqliteStore) : Prop where
  shown : ∃ entries, datShowFp sqliteStorage s = some entries ∧ entries.Perm (planRows s)
  purged : ∀ unixtime, ∃ s', datPurgeFp sqliteStorage c s now unixtime = some (schStOk, s') ∧
    QueueExact c s' ∧ ∀ e ∈ planRows s', now + 1 < e.unixtime.toInt

/-- Every row has one of the scanned numbers, and the clock cut down to an
    `int` neither overflows nor keeps a row that is due. -/
structure ScanFits (now : Int) (s : SqliteStore) : Prop where
  numbers : ∀ table, s.fpTable = some table → ∀ r ∈ table.rows, r.1 ≤ schFpMaxEntries
  clock : Int32.ofInt now ≠ 2147483647
  kept : ∀ e ∈ planRows s, Int32.ofInt now + 1 < e.unixtime → now + 1 < e.unixtime.toInt

theorem shown_iff (fpTable : s.fpTable = some table) (timed : Timed table) :
    (∃ entries, datShowFp sqliteStorage s = some entries ∧ entries.Perm (planRows s)) ↔
      ∀ r ∈ table.rows, r.1 ≤ schFpMaxEntries := by
  have rows : planRows s = values table := by simp [planRows, fpTable]
  rw [datShowFp_eq fpTable timed, rows]
  simp only [Option.some.injEq, exists_eq_left']
  exact scan_perm_iff table 255

theorem datPurgeFp_spec (isOpen : s.storageIsOpen = true) (fpTable : s.fpTable = some table)
    (timed : Timed table) (numbers : ∀ r ∈ table.rows, r.1 ≤ schFpMaxEntries)
    (few : (planRows s).length ≤ schFpMaxEntries) {now : Int}
    (clock : Int32.ofInt now ≠ 2147483647) (unixtime : Int32) :
    ∃ s', datPurgeFp sqliteStorage c s now unixtime = some (schStOk, s') ∧ QueueExact c s' ∧
      planRows s' = (planRows s).filter (fresh (Int32.ofInt now + 1)) := by
  have rows : planRows s = values table := by simp [planRows, fpTable]
  obtain ⟨table', purge, left⟩ :=
    purge_eq (Int32.ofInt now + 1) fpTable timed 0 255 (by decide) unixtime 0
  have read : readRows table 0 255 = values table := by
    rw [readRows, ← List.range_eq_range', ← scan, scan_eq, values]
    congr 1
    rw [List.filter_eq_self]
    intro r mem
    simpa [schFpMaxEntries] using numbers r mem
  have left' : values table' = (values table).filter (fresh (Int32.ofInt now + 1)) := by
    rw [values, values, left, List.filter_map]
    congr 1
    apply List.filter_congr
    intro r mem
    have low := table.positive r mem
    have high := numbers r mem
    simp only [schFpMaxEntries] at high
    simp [stale, fresh, low, high]
  rw [read, ← List.range_eq_range', Int32.zero_add] at purge
  set count := (values table).countP (fresh (Int32.ofInt now + 1)) with count_eq
  obtain ⟨s', write, isOpen', same, queue⟩ :=
    queue_write (c := c) (s := { s with fpTable := some table' }) isOpen (Int32.ofNat count)
  have rows' : planRows s' = (planRows s).filter (fresh (Int32.ofInt now + 1)) := by
    rw [planRows, same, rows, ← left']
  refine ⟨s', ?_, ⟨_, queue, ?_⟩, rows'⟩
  · simp [datPurgeFp, clock, schFpMaxEntries, purge, write]
  · have bound : count ≤ 255 := by
      rw [rows] at few
      exact List.countP_le_length.trans few
    rw [rows', rows, ← List.countP_eq_length_filter, ← count_eq]
    exact Int32.toInt_ofNat_of_lt (by omega)

/-- In every state of a history with no more rows than the scan has indexes,
    scan and purge are complete if and only if the row numbers are among the
    scanned ones and the clock fits. -/
theorem sqlite_scan_complete_iff {calls : List PlanCall} {s' : SqliteStore} (inUse : InUse s)
    (edits : ∀ call ∈ calls, Edit call) (reached : run (planStep c) s calls = some s')
    (few : (planRows s').length ≤ schFpMaxEntries) (now : Int) :
    ScanComplete c now s' ↔ ScanFits now s' := by
  obtain ⟨isOpen, table, fpTable, timed⟩ :=
    run_invariant_among (D := Edit) (fun _ _ _ => inUse_step) inUse edits reached
  constructor
  · rintro ⟨shown, purged⟩
    have numbers := (shown_iff fpTable timed).mp shown
    obtain ⟨after, purge, -, due⟩ := purged 0
    have clock : Int32.ofInt now ≠ 2147483647 := by
      intro overflow
      simp [datPurgeFp, overflow] at purge
    obtain ⟨after', purge', -, rows⟩ :=
      datPurgeFp_spec (c := c) isOpen fpTable timed numbers few clock 0
    cases purge.symm.trans purge'
    refine ⟨?_, clock, ?_⟩
    · intro table' same
      cases fpTable.symm.trans same
      exact numbers
    · intro e mem late
      apply due e
      rw [rows, List.mem_filter]
      exact ⟨mem, by simpa [fresh] using late⟩
  · rintro ⟨numbers, clock, kept⟩
    refine ⟨(shown_iff fpTable timed).mpr (numbers table fpTable), fun unixtime => ?_⟩
    obtain ⟨after, purge, queue, rows⟩ :=
      datPurgeFp_spec (c := c) isOpen fpTable timed (numbers table fpTable) few clock unixtime
    refine ⟨after, purge, queue, fun e mem => ?_⟩
    rw [rows, List.mem_filter] at mem
    exact kept e mem.1 (by simpa [fresh] using mem.2)

theorem openedStore_inUse : InUse openedStore where
  isOpen := rfl
  table := ⟨empty, rfl, nofun⟩

def pingRow : FpEntry := ⟨100, 1, 0, simpleConfig.schCommNode, some pingText, some noText⟩

theorem ping_step (isOpen : s.storageIsOpen = true) (fpTable : s.fpTable = some table)
    {q : Int32} (queue : datGetSystemVar sqliteStorage simpleConfig s 14 = some q) :
    ∃ s', planStep simpleConfig s (pingAt 100) = some s' ∧ s'.storageIsOpen = true ∧
      s'.fpTable = some (insertOrReplace (fun e => e.unixtime = 100) pingRow table) ∧
      datGetSystemVar sqliteStorage simpleConfig s' 14 = some (q + 1) := by
  have plain : hasQuote pingText = false ∧ hasQuote noText = false := by
    simp [hasQuote, pingText, noText]
  have set := set_eq fpTable (t := 100) (by decide) plain 1 0 simpleConfig.schCommNode
  rw [show (⟨100, 1, 0, simpleConfig.schCommNode, some pingText, some noText⟩ : FpEntry) =
    pingRow from rfl] at set
  obtain ⟨s', write, isOpen', same, queue'⟩ := queue_write (c := simpleConfig)
    (s := { s with fpTable := some (insertOrReplace (fun e => e.unixtime = 100) pingRow table) })
    isOpen (q + 1)
  refine ⟨s', ?_, isOpen', same, queue'⟩
  have read : datGetSystemVar sqliteStorage simpleConfig s simpleConfig.datFplQueue = some q :=
    queue
  simp [planStep, pingAt, stepPlan, datSetFp, read, set, write]

theorem pings_run (n : Nat) :
    ∃ s table, run (planStep simpleConfig) openedStore (List.replicate n (pingAt 100)) = some s ∧
      s.storageIsOpen = true ∧ s.fpTable = some table ∧ lastNumber table = n ∧
      values table = (if n = 0 then [] else [pingRow]) ∧
      ∃ q, datGetSystemVar sqliteStorage simpleConfig s 14 = some q := by
  induction n with
  | zero => exact ⟨openedStore, empty, rfl, rfl, rfl, rfl, rfl, 0, rfl⟩
  | succ n ih =>
    obtain ⟨s, table, reached, isOpen, fpTable, last, rows, q, queue⟩ := ih
    obtain ⟨s', step, isOpen', fpTable', queue'⟩ := ping_step isOpen fpTable queue
    refine ⟨s', _, ?_, isOpen', fpTable', ?_, ?_, q + 1, queue'⟩
    · rw [List.replicate_succ']
      exact run_trans reached (run_single step)
    · rw [lastNumber_insertOrReplace, last]
    · rw [values_insertOrReplace, rows]
      split <;> simp [pingRow]

theorem sqlite_scan_complete_ping :
    ∃ s, run (planStep simpleConfig) openedStore (List.replicate 1 (pingAt 100)) = some s ∧
      (ScanComplete simpleConfig 0 s ↔ ScanFits 0 s) := by
  obtain ⟨s, table, reached, -, fpTable, -, rows, -⟩ := pings_run 1
  refine ⟨s, reached, sqlite_scan_complete_iff openedStore_inUse ?_ reached ?_ 0⟩
  · intro call mem
    rw [List.eq_of_mem_replicate mem]
    trivial
  · simp [planRows, fpTable, rows, schFpMaxEntries]

theorem sqlite_scan_misses :
    (∀ call ∈ List.replicate 256 (pingAt 100), Edit call) ∧
      Throughout (planStep simpleConfig) (fun s => (planRows s).length ≤ 1) openedStore
        (List.replicate 256 (pingAt 100)) ∧
      ∃ s, run (planStep simpleConfig) openedStore (List.replicate 256 (pingAt 100)) = some s ∧
        planRows s = [pingRow] ∧ datShowFp sqliteStorage s = some [] ∧
        ¬ ScanComplete simpleConfig 0 s := by
  refine ⟨?_, ?_, ?_⟩
  · intro call mem
    rw [List.eq_of_mem_replicate mem]
    trivial
  · intro done rest t split reached
    have shape := (List.append_eq_replicate_iff.mp split.symm).2.1
    obtain ⟨s, table, reached', -, fpTable, -, rows, -⟩ := pings_run done.length
    rw [shape, reached'] at reached
    cases reached
    simp only [planRows, fpTable, rows]
    split <;> simp
  · obtain ⟨s, table, reached, -, fpTable, last, rows, -⟩ := pings_run 256
    have live : planRows s = [pingRow] := by simp [planRows, fpTable, rows]
    obtain ⟨⟨number, row⟩, only, rfl⟩ := List.map_eq_singleton_iff.mp rows
    have high : number = 256 := by simpa [lastNumber, only] using last
    subst high
    have timed : Timed table := by
      intro r mem
      rw [only, List.mem_singleton] at mem
      rw [mem]
      decide
    have shown : datShowFp sqliteStorage s = some [] := by
      rw [datShowFp_eq fpTable timed, scan_eq, only]
      rfl
    refine ⟨s, reached, live, shown, ?_⟩
    rintro ⟨⟨entries, shown', perm⟩, -⟩
    cases shown.symm.trans shown'
    rw [live] at perm
    exact absurd perm.length_eq (by decide)

end SqliteScan
