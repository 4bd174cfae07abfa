import SuchaiFlight.FlightPlanCalls

/-!
The two tasks that use the flight plan, `taskFlightPlan` and the executer,
running concurrently. Every section under `repo_data_sem` is one step, so a
call reads `dat_fpl_queue`, uses the table, and on success writes the counter
from the value it read; steps of the other task may fall in between.
-/
namespace FlightPlanInterleaving
open CStrings StorageApi RepoData SlotTable RamStorage RamFlightPlan FlightPlanCalls SignedWord

inductive Task where
  | flightPlan
  | executer
  deriving DecidableEq

/-- Where a task stands: outside the three functions, after the read of the
    counter, or after a storage section that succeeded. -/
inductive Phase where
  | idle
  | called (call : FpCall) (entries : Int32)
  | stored (entries value : Int32)
  deriving DecidableEq

structure System where
  store : RamStore
  phase : Task → Phase

inductive Step where
  | read (task : Task) (call : FpCall)
  | storage (task : Task)
  | write (task : Task)
  deriving DecidableEq

def storageSection (c : Config) (s : RamStore) : FpCall → Option (Bool × RamStore)
  | .set t command args executions periodical => do
    let (rc, s) ← storageFlightPlanSet s t (some command) (some args) executions periodical
      c.schCommNode
    return (rc = schStOk, s)
  | .get t => do
    let (res, s) ← fetchAndDelete (ramStorage c) s t
    return (res.toOption.isSome, s)
  | .del t => do
    let (rc, s) ← storageFlightPlanDeleteRow c s t
    return (rc = schStOk, s)

def nextQueue (entries : Int32) : FpCall → Int32
  | .set .. => entries + 1
  | .get _ => entries - 1
  | .del _ => entries - 1

def step (c : Config) (sys : System) : Step → Option System
  | .read task call =>
    match sys.phase task with
    | .idle => do
      let entries ← datGetSystemVar (ramStorage c) c sys.store c.datFplQueue
      return { sys with phase := Function.update sys.phase task (.called call entries) }
    | _ => some sys
  | .storage task =>
    match sys.phase task with
    | .called call entries => do
      let (ok, s) ← storageSection c sys.store call
      let next := if ok then .stored entries (nextQueue entries call) else .idle
      return { store := s, phase := Function.update sys.phase task next }
    | _ => some sys
  | .write task =>
    match sys.phase task with
    | .stored _ value => do
      let (_, s) ← datSetSystemVar (ramStorage c) c sys.store c.datFplQueue value
      return { store := s, phase := Function.update sys.phase task .idle }
    | _ => some sys

def runSteps (c : Config) : System → List Step → Option System
  | sys, [] => some sys
  | sys, x :: rest => do
    let sys ← step c sys x
    runSteps c sys rest

theorem perform_sections (c : Config) (s : RamStore) (call : FpCall) :
    (perform c s call).map Prod.snd = do
      let entries ← datGetSystemVar (ramStorage c) c s c.datFplQueue
      let (ok, s) ← storageSection c s call
      if ok then
        let (_, s) ← datSetSystemVar (ramStorage c) c s c.datFplQueue (nextQueue entries call)
        return s
      else return s := by
  cases queue : datGetSystemVar (ramStorage c) c s c.datFplQueue with
  | none => cases call <;> simp [perform, datSetFp, datGetFp, datDelFp, queue]
  | some entries =>
    cases call with
    | set t command args executions periodical =>
      have same : (ramStorage c).storageFlightPlanSet = storageFlightPlanSet := rfl
      simp only [perform, datSetFp, queue, storageSection, same, Option.bind_eq_bind,
        Option.bind_some, nextQueue]
      cases storageFlightPlanSet s t (some command) (some args) executions periodical
        c.schCommNode with
      | none => rfl
      | some r =>
        by_cases ok : r.1 = schStOk
        · cases write : datSetSystemVar (ramStorage c) c r.2 c.datFplQueue (entries + 1) <;>
            simp [ok, write]
        · simp [ok]
    | get t =>
      simp only [perform, datGetFp, queue, storageSection, Option.bind_eq_bind,
        Option.bind_some, nextQueue]
      cases fetchAndDelete (ramStorage c) s t with
      | none => rfl
      | some r =>
        obtain ⟨res, s'⟩ := r
        cases res with
        | error rc => simp [Except.toOption]
        | ok out =>
          cases write : datSetSystemVar (ramStorage c) c s' c.datFplQueue (entries - 1) <;>
            simp [Except.toOption, write]
    | del t =>
      have same : (ramStorage c).storageFlightPlanDeleteRow = storageFlightPlanDeleteRow c := rfl
      simp only [perform, datDelFp, queue, storageSection, same, Option.bind_eq_bind,
        Option.bind_some, nextQueue]
      cases storageFlightPlanDeleteRow c s t with
      | none => rfl
      | some r =>
        by_cases ok : r.1 = schStOk
        · cases write : datSetSystemVar (ramStorage c) c r.2 c.datFplQueue (entries - 1) <;>
            simp [ok, write]
        · simp [ok]

theorem runSteps_alone (c : Config) (sys : System) (task : Task) (call : FpCall)
    (idle : sys.phase task = .idle) :
    (runSteps c sys [.read task call, .storage task, .write task]).map System.store =
      (perform c sys.store call).map Prod.snd := by
  rw [perform_sections]
  cases queue : datGetSystemVar (ramStorage c) c sys.store c.datFplQueue with
  | none => simp [runSteps, step, idle, queue]
  | some entries =>
    cases section_ : storageSection c sys.store call with
    | none => simp [runSteps, step, idle, queue, section_]
    | some r =>
      obtain ⟨ok, s⟩ := r
      cases ok with
      | false => simp [runSteps, step, idle, queue, section_]
      | true =>
        cases write : datSetSystemVar (ramStorage c) c s c.datFplQueue (nextQueue entries call) <;>
          simp [runSteps, step, idle, queue, section_, write]

/-! The condition on the steps of a run, and what it keeps. -/

/-- A lookup or deletion of the time `ST_FP_NULL` must find no free slot. -/
def Proper (s : RamStore) : Phase → Prop
  | .called (.get t) _ => t = stFpNull → ¬ (liveEntries s).card < schFpMaxEntries
  | .called (.del t) _ => t = stFpNull → ¬ (liveEntries s).card < schFpMaxEntries
  | _ => True

/-- A write must find the counter that its call has read. -/
def Current (c : Config) (s : RamStore) : Phase → Prop
  | .stored entries _ => datGetSystemVar (ramStorage c) c s c.datFplQueue = some entries
  | _ => True

def Undisturbed (c : Config) (sys : System) : Step → Prop
  | .read _ _ => True
  | .storage task => Proper sys.store (sys.phase task)
  | .write task => Current c sys.store (sys.phase task)

def AllUndisturbed (c : Config) : System → List Step → Prop
  | _, [] => True
  | sys, x :: rest => Undisturbed c sys x ∧
      ∀ sys' ∈ step c sys x, AllUndisturbed c sys' rest

instance (s : RamStore) : (phase : Phase) → Decidable (Proper s phase)
  | .called (.get t) _ => inferInstanceAs (Decidable (t = stFpNull → _))
  | .called (.del t) _ => inferInstanceAs (Decidable (t = stFpNull → _))
  | .called (.set ..) _ => isTrue trivial
  | .idle => isTrue trivial
  | .stored _ _ => isTrue trivial

instance (c : Config) (s : RamStore) : (phase : Phase) → Decidable (Current c s phase)
  | .stored entries _ => inferInstanceAs (Decidable (_ = some entries))
  | .idle => isTrue trivial
  | .called _ _ => isTrue trivial

instance (c : Config) (sys : System) : (x : Step) → Decidable (Undisturbed c sys x)
  | .read _ _ => isTrue trivial
  | .storage task => inferInstanceAs (Decidable (Proper sys.store (sys.phase task)))
  | .write task => inferInstanceAs (Decidable (Current c sys.store (sys.phase task)))

instance decidableAllUndisturbed (c : Config) :
    (sys : System) → (steps : List Step) → Decidable (AllUndisturbed c sys steps)
  | _, [] => isTrue trivial
  | sys, x :: rest =>
    have (sys' : System) := decidableAllUndisturbed c sys' rest
    inferInstanceAs (Decidable (_ ∧ ∀ sys' ∈ step c sys x, AllUndisturbed c sys' rest))

def owed : Phase → Int32
  | .stored entries value => value - entries
  | _ => 0

@[simp] theorem owed_idle : owed .idle = 0 := rfl

@[simp] theorem owed_called (call : FpCall) (entries : Int32) : owed (.called call entries) = 0 :=
  rfl

@[simp] theorem owed_stored (entries value : Int32) :
    owed (.stored entries value) = value - entries := rfl

def Accounted (c : Config) (sys : System) : Prop :=
  ∃ db status, Stocked c sys.store db status ∧
    counter c status + owed (sys.phase .flightPlan) + owed (sys.phase .executer) =
      Int32.ofNat (liveEntries sys.store).card

variable {c : Config} {s : RamStore} {sys : System} {db : Nat → FpEntry} {status : Nat → UInt32}

theorem storageSection_spec (stocked : Stocked c s db status) (call : FpCall)
    {entries : Int32}
    (proper : Proper s (.called call entries)) :
    ∃ ok s' db', storageSection c s call = some (ok, s') ∧ Stocked c s' db' status ∧
      Int32.ofNat (liveEntries s').card = Int32.ofNat (liveEntries s).card +
        if ok then nextQueue entries call - entries else 0 := by
  cases call with
  | set t command args executions periodical =>
    by_cases time : 0 ≤ t
    · obtain ⟨rc, s', run, ⟨db', -, stocked'⟩, puts, fail⟩ :=
        storageFlightPlanSet_spec stocked time command args executions periodical c.schCommNode
      refine ⟨rc = schStOk, s', db', by simp [storageSection, run], stocked', ?_⟩
      by_cases ok : rc = schStOk
      · rw [puts.2.1 ok, Multiset.card_cons, ← ofNat_add_one]
        simp only [ok, decide_true, ↓reduceIte, nextQueue]
        grind
      · rw [(fail ok).2]
        simp [ok]
    · have negative : t < 0 := Int32.not_le.mp time
      refine ⟨false, s, db, ?_, stocked, by simp⟩
      simp [storageSection, storageFlightPlanSet, negative, schStError, schStOk]
  | get t =>
    by_cases real : t = stFpNull
    · have full := proper real
      subst real
      refine ⟨false, s, db, ?_, stocked, by simp⟩
      simp [storageSection, fetchAndDelete, ramStorage, storageFlightPlanGetArgs,
        storageFlightPlanGet, stocked.isOpen, stocked.dbEq, stocked.sizeEq,
        (scan_null_eq_none_iff stocked).mpr full, Except.toOption]
    · obtain ⟨found, res, s', run, ⟨db', -, stocked'⟩, takes, delivers, miss⟩ :=
        fetchAndDelete_spec stocked real
      refine ⟨res.toOption.isSome, s', db', by simp [storageSection, run], stocked', ?_⟩
      cases found with
      | none =>
        rw [miss rfl]
        cases res with
        | ok out => exact absurd delivers (by simp [Delivers])
        | error rc => simp [Except.toOption]
      | some e =>
        rw [takes.2, Multiset.card_cons, ← ofNat_add_one]
        cases res with
        | error rc => exact absurd delivers (by simp [Delivers])
        | ok out =>
          simp only [Except.toOption, Option.isSome_some, ↓reduceIte, nextQueue]
          grind
  | del t =>
    by_cases real : t = stFpNull
    · have full := proper real
      subst real
      refine ⟨false, s, db, ?_, stocked, by simp⟩
      simp [storageSection, storageFlightPlanDeleteRow, stocked.isOpen, stocked.dbEq,
        stocked.sizeEq, (scan_null_eq_none_iff stocked).mpr full, schStError, schStOk]
    · obtain ⟨found, rc, s', run, ⟨db', -, stocked'⟩, takes, ok, miss, -, -⟩ :=
        storageFlightPlanDeleteRow_spec stocked real
      refine ⟨rc = schStOk, s', db', by simp [storageSection, run], stocked', ?_⟩
      cases found with
      | none =>
        rw [(miss rfl).1, (miss rfl).2]
        simp [schStError, schStOk]
      | some e =>
        rw [takes.2, Multiset.card_cons, ← ofNat_add_one]
        simp only [ok rfl, decide_true, ↓reduceIte, nextQueue]
        grind

theorem owed_update (phase : Task → Phase) (task : Task) (next : Phase) :
    owed (Function.update phase task next .flightPlan) +
        owed (Function.update phase task next .executer) =
      owed (phase .flightPlan) + owed (phase .executer) - owed (phase task) + owed next := by
  cases task with
  | flightPlan =>
    simp only [Function.update_self, Function.update_of_ne (show Task.executer ≠ .flightPlan by
      decide)]
    grind
  | executer =>
    simp only [Function.update_self, Function.update_of_ne (show Task.flightPlan ≠ .executer by
      decide)]
    grind

theorem step_accounted (accounted : Accounted c sys) (x : Step) (calm : Undisturbed c sys x) :
    ∃ sys', step c sys x = some sys' ∧ Accounted c sys' := by
  obtain ⟨db, status, stocked, sum⟩ := accounted
  cases x with
  | read task call =>
    cases here : sys.phase task with
    | idle =>
      refine ⟨{ sys with
          phase := Function.update sys.phase task (.called call (counter c status)) },
        by simp [step, here, queue_read stocked.toReady], db, status, stocked, ?_⟩
      have move := owed_update sys.phase task (.called call (counter c status))
      rw [here, owed_called, owed_idle] at move
      simp only
      grind
    | called _ _ => exact ⟨sys, by simp [step, here], db, status, stocked, sum⟩
    | stored _ _ => exact ⟨sys, by simp [step, here], db, status, stocked, sum⟩
  | storage task =>
    cases here : sys.phase task with
    | idle => exact ⟨sys, by simp [step, here], db, status, stocked, sum⟩
    | stored _ _ => exact ⟨sys, by simp [step, here], db, status, stocked, sum⟩
    | called call entries =>
      simp only [Undisturbed, here] at calm
      obtain ⟨ok, s', db', run, stocked', count⟩ := storageSection_spec stocked call calm
      let next : Phase := if ok then .stored entries (nextQueue entries call) else .idle
      have debt : owed next = if ok then nextQueue entries call - entries else 0 := by
        cases ok <;> rfl
      refine ⟨⟨s', Function.update sys.phase task next⟩, by simp [step, here, run, next],
        db', status, stocked', ?_⟩
      have move := owed_update sys.phase task next
      rw [here, debt, owed_called] at move
      simp only
      grind
  | write task =>
    cases here : sys.phase task with
    | idle => exact ⟨sys, by simp [step, here], db, status, stocked, sum⟩
    | called _ _ => exact ⟨sys, by simp [step, here], db, status, stocked, sum⟩
    | stored entries value =>
      have unchanged : counter c status = entries := by
        simp only [Undisturbed, here, Current, queue_read stocked.toReady] at calm
        exact Option.some.inj calm
      obtain ⟨s', status', write, -, stocked', written, live⟩ := queue_write stocked value
      refine ⟨⟨s', Function.update sys.phase task .idle⟩, by simp [step, here, write],
        db, status', stocked', ?_⟩
      have move := owed_update sys.phase task .idle
      rw [here, owed_stored, owed_idle] at move
      simp only [written, live]
      grind

theorem runSteps_accounted (steps : List Step) (accounted : Accounted c sys)
    (calm : AllUndisturbed c sys steps) :
    ∃ sys', runSteps c sys steps = some sys' ∧ Accounted c sys' := by
  induction steps generalizing sys with
  | nil => exact ⟨sys, rfl, accounted⟩
  | cons x rest ih =>
    obtain ⟨sys₁, run, accounted₁⟩ := step_accounted accounted x calm.1
    obtain ⟨sys₂, rest, accounted₂⟩ := ih accounted₁ (calm.2 sys₁ run)
    exact ⟨sys₂, by simp [runSteps, run, rest], accounted₂⟩

def Quiescent (sys : System) : Prop := ∀ task, sys.phase task = .idle

theorem Accounted.queueExact (accounted : Accounted c sys) (quiet : Quiescent sys) :
    QueueExact c sys.store := by
  obtain ⟨db, status, stocked, sum⟩ := accounted
  have counted : counter c status = Int32.ofNat (liveEntries sys.store).card := by
    rw [quiet, quiet] at sum
    simpa using sum
  exact Kept.queueExact ⟨db, status, stocked, counted⟩

/-- From a fresh store, in every run of the two tasks whose steps are all
    undisturbed, the counter is exact whenever no call is in progress. -/
theorem interleaved_queue_exact (fresh : Fresh c s) (steps : List Step)
    (calm : AllUndisturbed c ⟨s, fun _ => .idle⟩ steps) :
    ∃ sys, runSteps c ⟨s, fun _ => .idle⟩ steps = some sys ∧
      (Quiescent sys → QueueExact c sys.store) := by
  obtain ⟨db, status, stocked, counted⟩ := fresh.kept.1
  have accounted : Accounted c ⟨s, fun _ => .idle⟩ :=
    ⟨db, status, stocked, by simpa using counted⟩
  obtain ⟨sys, run, accounted'⟩ := runSteps_accounted steps accounted calm
  exact ⟨sys, run, accounted'.queueExact⟩

def deleteDuringGet : List Step :=
  [.read .executer (.set 10 pingText noText 1 0), .storage .executer, .write .executer,
    .read .executer (.del 10), .read .flightPlan (.get 10), .storage .executer,
    .storage .flightPlan, .write .executer]

theorem interleaved_delete_exact :
    ∃ s, datRepoInit simpleConfig 1 = some s ∧
      ∃ sys, runSteps simpleConfig ⟨s, fun _ => .idle⟩ deleteDuringGet = some sys ∧
        QueueExact simpleConfig sys.store := by
  obtain ⟨s, boot, fresh⟩ := datRepoInit_fresh simpleConfig 1
  have calm : ∀ s ∈ datRepoInit simpleConfig 1,
      AllUndisturbed simpleConfig ⟨s, fun _ => .idle⟩ deleteDuringGet := by decide
  have idle : ∀ s ∈ datRepoInit simpleConfig 1,
      ∀ sys ∈ runSteps simpleConfig ⟨s, fun _ => .idle⟩ deleteDuringGet,
        sys.phase .flightPlan = .idle ∧ sys.phase .executer = .idle := by decide
  obtain ⟨sys, run, exact_⟩ := interleaved_queue_exact fresh deleteDuringGet (calm s boot)
  refine ⟨s, boot, sys, run, exact_ ?_⟩
  intro task
  cases task with
  | flightPlan => exact (idle s boot sys run).1
  | executer => exact (idle s boot sys run).2

def setDuringSet : List Step :=
  [.read .flightPlan (.set 20 pingText noText 1 0), .read .executer (.set 10 pingText noText 1 0),
    .storage .flightPlan, .storage .executer, .write .flightPlan, .write .executer]

theorem interleaved_set_lost :
    ∃ s, datRepoInit simpleConfig 1 = some s ∧
      ∃ sys, runSteps simpleConfig ⟨s, fun _ => .idle⟩ setDuringSet = some sys ∧
        Quiescent sys ∧ ¬ QueueExact simpleConfig sys.store := by
  have outcome : ((datRepoInit simpleConfig 1).bind fun s =>
      (runSteps simpleConfig ⟨s, fun _ => .idle⟩ setDuringSet).map fun sys =>
        (sys.phase .flightPlan, sys.phase .executer,
          datGetSystemVar (ramStorage simpleConfig) simpleConfig sys.store simpleConfig.datFplQueue,
          (liveEntries sys.store).card)) = some (.idle, .idle, some 1, 2) := by decide
  obtain ⟨s, boot, ran⟩ := Option.bind_eq_some_iff.mp outcome
  obtain ⟨sys, run, eq⟩ := Option.map_eq_some_iff.mp ran
  simp only [Prod.mk.injEq] at eq
  obtain ⟨idle, idle', queue, live⟩ := eq
  refine ⟨s, boot, sys, run, ?_, ?_⟩
  · intro task
    cases task with
    | flightPlan => exact idle
    | executer => exact idle'
  · rintro ⟨q, read, count⟩
    rw [queue, Option.some.injEq] at read
    rw [live, ← read] at count
    exact absurd count (by decide)

end FlightPlanInterleaving
