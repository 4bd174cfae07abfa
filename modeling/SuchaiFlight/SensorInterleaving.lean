import SuchaiFlight.SensorMachine
import Mathlib.Tactic.IntervalCases

/-!
The tick of `taskSensors` in its single steps, and `dat_set_stmachine_state`
between any two of them. Each section under the semaphore and each read of a
field outside of one is a step. The log lines read fields too, to no effect.
-/
namespace SensorInterleaving
open StorageApi RepoData SensorMachine Runs

/-- Where the task stands. From `readAction` on it holds what it has read. -/
inductive Phase where
  | asleep
  | acting
  | checkState
  | checkLeft
  | pausing
  | checkStep
  | sampling (i : Nat)
  | checkUnlimited
  | counting
  | readAction
  | readState (action : Int32)
  | readStep (action state : Int32)
  | readPayloads (action state step : Int32)
  | readLeft (action state step payloads : Int32)
  | writing (drp : Drp)

/-- `sent` are the payloads that `sen_take_sample` was sent for. `lastSet` is kept
    for the statements only: the count of the last request that was accepted. -/
structure System (σ : Type) where
  machine : Stmachine
  elapsedSec : Int32
  store : σ
  phase : Phase
  sent : List Nat
  lastSet : Option Int32

inductive Action where
  | task
  | setMachine (action step : UInt32) (nsamples : Int32)

variable {σ : Type} {S : Storage σ} {c : Config} {w : MachineVars c}

def taskStep (S : Storage σ) (w : MachineVars c) (sys : System σ) : Option (System σ) :=
  match sys.phase with
  | .asleep =>
    some { sys with phase := if sys.machine.action ≠ actStandBy then .acting else .checkState }
  | .acting => some { sys with machine := applyAction sys.machine, phase := .checkState }
  | .checkState =>
    some { sys with phase := if sys.machine.state = stSampling then .checkLeft else .readAction }
  | .checkLeft =>
    some { sys with phase := if sys.machine.samplesLeft = 0 then .pausing else .checkStep }
  | .pausing => some { sys with machine := pauseMachine sys.machine, phase := .readAction }
  | .checkStep => do
    let ends ← periodEnds sys.elapsedSec sys.machine
    return { sys with phase := if ends then .sampling 0 else .readAction }
  | .sampling i =>
    if i < nsensors then
      let active := datStmachineIsSensorActive i sys.machine.activePayloads.toInt32
      some { sys with sent := sys.sent ++ (if active then [i] else []), phase := .sampling (i + 1) }
    else some { sys with phase := .checkUnlimited }
  | .checkUnlimited =>
    some { sys with phase := if sys.machine.samplesLeft ≠ -1 then .counting else .readAction }
  | .counting => do
    let machine ← countDown sys.machine
    return { sys with machine := machine, phase := .readAction }
  | .readAction => some { sys with phase := .readState sys.machine.action.toInt32 }
  | .readState action => some { sys with phase := .readStep action sys.machine.state.toInt32 }
  | .readStep action state =>
    some { sys with phase := .readPayloads action state sys.machine.step.toInt32 }
  | .readPayloads action state step =>
    some { sys with phase := .readLeft action state step sys.machine.activePayloads.toInt32 }
  | .readLeft action state step payloads =>
    some { sys with phase := .writing ⟨action, state, step, payloads, sys.machine.samplesLeft⟩ }
  | .writing drp => do
    let store ← writeDrp S w sys.store drp
    let elapsedSec ← nextSecond sys.elapsedSec
    return { sys with store := store, elapsedSec := elapsedSec, phase := .asleep }

def step (S : Storage σ) (w : MachineVars c) (sys : System σ) : Action → Option (System σ)
  | .task => taskStep S w sys
  | .setMachine action step nsamples =>
    let (rc, machine) := datSetStmachineState sys.machine action step nsamples
    some { sys with machine := machine, lastSet := if rc = 1 then some nsamples else sys.lastSet }

/-- The machine samples for ever only when it was asked to. -/
def FiniteHolds (sys : System σ) : Prop :=
  sys.machine.samplesLeft = -1 → sys.lastSet = some (-1)

def Counts (sys : System σ) (a : Action) : Prop :=
  a = .task → sys.phase = .counting → sys.machine.samplesLeft ≠ 0

variable {sys sys' : System σ} {actions : List Action}

/-! One step. -/

theorem taskStep_left (stepped : taskStep S w sys = some sys') :
    sys'.lastSet = sys.lastSet ∧
      (sys'.machine.samplesLeft = sys.machine.samplesLeft ∧ sys.phase ≠ .counting ∨
        sys.phase = .counting ∧ sys.machine.samplesLeft ≠ Int32.minValue ∧
          sys'.machine.samplesLeft = sys.machine.samplesLeft - 1) := by
  cases phase : sys.phase <;> simp only [taskStep, phase] at stepped
  case acting =>
    obtain rfl := Option.some.inj stepped
    refine ⟨rfl, .inl ⟨?_, by simp⟩⟩
    simp only [applyAction]
    split_ifs <;> rfl
  case sampling i =>
    split at stepped
    all_goals
      obtain rfl := Option.some.inj stepped
      exact ⟨rfl, .inl ⟨rfl, by simp⟩⟩
  case checkStep =>
    obtain ⟨ends, -, stepped⟩ := Option.bind_eq_some_iff.mp stepped
    obtain rfl := Option.some.inj stepped
    exact ⟨rfl, .inl ⟨rfl, by simp⟩⟩
  case counting =>
    obtain ⟨machine, counted, stepped⟩ := Option.bind_eq_some_iff.mp stepped
    obtain rfl := Option.some.inj stepped
    rw [countDown] at counted
    split_ifs at counted with least
    obtain rfl := Option.some.inj counted
    exact ⟨rfl, .inr ⟨rfl, least, rfl⟩⟩
  case writing drp =>
    obtain ⟨store, -, stepped⟩ := Option.bind_eq_some_iff.mp stepped
    obtain ⟨elapsedSec, -, stepped⟩ := Option.bind_eq_some_iff.mp stepped
    obtain rfl := Option.some.inj stepped
    exact ⟨rfl, .inl ⟨rfl, by simp⟩⟩
  all_goals
    obtain rfl := Option.some.inj stepped
    exact ⟨rfl, .inl ⟨rfl, by simp⟩⟩

/-- The count is below 0 from a request for -1 until the next one, and only
    then. -/
def Kept (sys : System σ) : Prop :=
  sys.lastSet = some (-1) ∧ sys.machine.samplesLeft.toInt < 0 ∨
    sys.lastSet ≠ some (-1) ∧ 0 ≤ sys.machine.samplesLeft.toInt

theorem Kept.holds (kept : Kept sys) : FiniteHolds sys := by
  intro unlimited
  rcases kept with ⟨asked, -⟩ | ⟨-, low⟩
  · exact asked
  · exact absurd low (by rw [unlimited]; decide)

theorem setMachine_cases {action period : UInt32} {nsamples : Int32}
    (stepped : step S w sys (.setMachine action period nsamples) = some sys') :
    -2 < nsamples ∧ sys'.machine.samplesLeft = nsamples ∧ sys'.lastSet = some nsamples ∧
        sys'.phase = sys.phase ∨ sys' = sys := by
  by_cases accepted : action < actLast ∧ 0 < period ∧ -2 < nsamples
  · have result : datSetStmachineState sys.machine action period nsamples =
        (1, { sys.machine with action := action, step := period, samplesLeft := nsamples }) :=
      if_pos accepted
    rw [step, result] at stepped
    obtain rfl := Option.some.inj stepped
    exact .inl ⟨accepted.2.2, rfl, rfl, rfl⟩
  · have result : datSetStmachineState sys.machine action period nsamples = (0, sys.machine) :=
      if_neg accepted
    rw [step, result] at stepped
    exact .inr (Option.some.inj stepped).symm

theorem Kept.setMachine (kept : Kept sys) {action period : UInt32} {nsamples : Int32}
    (stepped : step S w sys (.setMachine action period nsamples) = some sys') :
    Kept sys' := by
  rcases setMachine_cases stepped with ⟨above, left, asked, -⟩ | rfl
  · have low : -2 < nsamples.toInt := Int32.lt_iff_toInt_lt.mp above
    rw [Kept, left, asked]
    by_cases unlimited : nsamples = -1
    · exact .inl ⟨by rw [unlimited], by rw [unlimited]; decide⟩
    · refine .inr ⟨fun same => unlimited (Option.some.inj same), ?_⟩
      rw [← Int32.toInt_inj, show (-1 : Int32).toInt = -1 from rfl] at unlimited
      omega
  · exact kept

theorem toInt_countDown {left : Int32} (above : left ≠ Int32.minValue) :
    (left - 1).toInt = left.toInt - 1 := by
  have low := left.le_toInt
  have high := left.toInt_lt
  rw [ne_eq, ← Int32.toInt_inj, show Int32.minValue.toInt = -2147483648 from rfl] at above
  rw [Int32.toInt_sub, show (1 : Int32).toInt = 1 from rfl, Int.bmod_eq_of_le] <;> omega

theorem Kept.next (kept : Kept sys) {a : Action} (counts : Counts sys a)
    (stepped : step S w sys a = some sys') : Kept sys' := by
  cases a with
  | setMachine action step nsamples => exact kept.setMachine stepped
  | task =>
    obtain ⟨asked, ⟨same, -⟩ | ⟨counting, above, counted⟩⟩ := taskStep_left stepped
    · simpa only [Kept, asked, same] using kept
    · have notZero := counts rfl counting
      rw [ne_eq, ← Int32.toInt_inj, show (0 : Int32).toInt = 0 from rfl] at notZero
      rw [Kept, asked, counted, toInt_countDown above]
      rcases kept with ⟨unlimited, below⟩ | ⟨limited, low⟩
      · exact .inl ⟨unlimited, by omega⟩
      · exact .inr ⟨limited, by omega⟩

theorem Kept.counts_iff (S : Storage σ) (w : MachineVars c) (kept : Kept sys) (a : Action) :
    (∀ sys', step S w sys a = some sys' → FiniteHolds sys') ↔ Counts sys a := by
  constructor
  · rintro holds rfl counting zero
    have counted : countDown sys.machine = some { sys.machine with samplesLeft := -1 } := by
      rw [countDown, zero, if_neg (by decide)]
      rfl
    have limited : sys.lastSet ≠ some (-1) := by
      rcases kept with ⟨-, below⟩ | ⟨limited, -⟩
      · exact absurd below (by rw [zero]; decide)
      · exact limited
    refine limited (holds { sys with machine := { sys.machine with samplesLeft := -1 }
                                     phase := .readAction } ?_ rfl)
    simp [step, taskStep, counting, counted]
  · intro counts sys' stepped
    exact (kept.next counts stepped).holds

/-! Whole runs. -/

/-- Every interleaving, from a count that is not below 0 and no request yet. -/
theorem finite_throughout_iff (left : 0 ≤ sys.machine.samplesLeft) (fresh : sys.lastSet = none)
    (actions : List Action) :
    Throughout (step S w) FiniteHolds sys actions ↔ Along (step S w) Counts sys actions := by
  have start : Kept sys := .inr ⟨by simp [fresh], Int32.le_iff_toInt_le.mp left⟩
  have same := along_iff
    (fun s a (held : Kept s) (_ : True) => held.counts_iff S w a)
    (fun s a t held _ next (stepped : step S w s a = some t) =>
      held.next ((held.counts_iff S w a).mp next) stepped)
    start (fun a (_ : a ∈ actions) => trivial)
  rw [throughout_iff_along, same]
  exact and_iff_right start.holds

section Ram
open RamStorage FlightPlanCalls

def samplingThree (s : RamStore) : System RamStore :=
  { machine := { state := stSampling, action := actStandBy, activePayloads := 1, step := 1
                 samplesLeft := 3 }
    elapsedSec := 0
    store := s
    phase := .asleep
    sent := []
    lastSet := none }

theorem samplingThree_kept (s : RamStore) :
    0 ≤ (samplingThree s).machine.samplesLeft ∧ (samplingThree s).lastSet = none :=
  ⟨(by decide : (0 : Int32) ≤ 3), rfl⟩

def tickThenRequest : List Action := List.replicate 17 .task ++ [.setMachine actStart 1 0]

theorem samplingThree_left (s : RamStore) (i : Nat) (tick : i < 17) :
    (run (step (ramStorage simpleConfig) ramVars) (samplingThree s) (List.replicate i .task)).map
      (fun t => t.machine.samplesLeft) = some (if i ≤ 10 then 3 else 3 - 1) := by
  interval_cases i <;> rfl

theorem request_after_tick_kept :
    ∃ s, datRepoInit simpleConfig 1 = some s ∧
      Throughout (step (ramStorage simpleConfig) ramVars) FiniteHolds (samplingThree s)
        tickThenRequest := by
  obtain ⟨s, boot, -⟩ := datRepoInit_fresh simpleConfig 1
  obtain ⟨left, fresh⟩ := samplingThree_kept s
  refine ⟨s, boot, (finite_throughout_iff left fresh _).mpr ?_⟩
  rintro done a rest t split reached rfl - zero
  have place : tickThenRequest[done.length]? = some .task := by simp [split]
  have tick : done.length < 17 := by
    by_contra late
    rw [tickThenRequest, List.getElem?_append_right (by simpa using late)] at place
    have one := (List.getElem?_eq_some_iff.mp place).1
    simp only [List.length_replicate, List.length_singleton] at one
    rw [List.length_replicate, show done.length - 17 = 0 by omega] at place
    cases place
  have tasks : done = List.replicate done.length .task := by
    have front := congrArg (List.take done.length) split
    rw [List.take_left, tickThenRequest, List.take_append_of_le_length (by simp; omega),
      List.take_replicate, Nat.min_eq_left (by omega)] at front
    exact front.symm
  have remaining := samplingThree_left s done.length tick
  rw [← tasks, reached, Option.map_some, Option.some.injEq, zero] at remaining
  split at remaining <;> exact absurd remaining (by decide)

def toCounting : List Action := List.replicate 10 .task

theorem samplingThree_counting (s : RamStore) :
    ∃ sent, run (step (ramStorage simpleConfig) ramVars) (samplingThree s) toCounting =
      some { samplingThree s with phase := .counting, sent := sent } :=
  ⟨_, rfl⟩

theorem request_inside_tick_lost :
    ∃ s, datRepoInit simpleConfig 1 = some s ∧
      ¬ Throughout (step (ramStorage simpleConfig) ramVars) FiniteHolds (samplingThree s)
        (toCounting ++ [.setMachine actStart 1 0, .task]) := by
  obtain ⟨s, boot, -⟩ := datRepoInit_fresh simpleConfig 1
  refine ⟨s, boot, fun holds => ?_⟩
  obtain ⟨sent, counting⟩ := samplingThree_counting s
  have reached := run_trans counting
    (show run (step (ramStorage simpleConfig) ramVars) _ [.setMachine actStart 1 0, .task] =
      some { samplingThree s with
        machine := { state := stSampling, action := actStart, activePayloads := 1, step := 1
                     samplesLeft := -1 }
        phase := .readAction
        sent := sent
        lastSet := some 0 } from rfl)
  have last := holds _ [] _ (List.append_nil _).symm reached rfl
  exact absurd (Option.some.inj last : (0 : Int32) = -1) (by decide)

end Ram

def Phase.Inside : Phase → Prop
  | .checkStep | .sampling _ | .checkUnlimited | .counting => True
  | _ => False

theorem taskStep_inside (stepped : taskStep S w sys = some sys')
    (kept : sys.phase.Inside → sys.machine.samplesLeft ≠ 0) (inside : sys'.phase.Inside) :
    sys'.machine.samplesLeft ≠ 0 := by
  cases phase : sys.phase <;> simp only [taskStep, phase] at stepped
  case checkLeft =>
    obtain rfl := Option.some.inj stepped
    intro zero
    rw [if_pos zero] at inside
    exact inside
  case checkStep =>
    obtain ⟨ends, -, stepped⟩ := Option.bind_eq_some_iff.mp stepped
    obtain rfl := Option.some.inj stepped
    exact kept (by rw [phase]; trivial)
  case sampling i =>
    split at stepped
    all_goals
      obtain rfl := Option.some.inj stepped
      exact kept (by rw [phase]; trivial)
  case checkUnlimited =>
    obtain rfl := Option.some.inj stepped
    exact kept (by rw [phase]; trivial)
  case counting =>
    obtain ⟨machine, -, stepped⟩ := Option.bind_eq_some_iff.mp stepped
    obtain rfl := Option.some.inj stepped
    exact inside.elim
  case writing drp =>
    obtain ⟨store, -, stepped⟩ := Option.bind_eq_some_iff.mp stepped
    obtain ⟨elapsedSec, -, stepped⟩ := Option.bind_eq_some_iff.mp stepped
    obtain rfl := Option.some.inj stepped
    exact inside.elim
  all_goals
    obtain rfl := Option.some.inj stepped
    revert inside
    try split_ifs
    all_goals exact False.elim

theorem counts_of_quiet (outside : ¬ sys.phase.Inside)
    (quiet : Along (step S w) (fun t a => ∀ action period,
      a = .setMachine action period 0 → ¬ t.phase.Inside) sys actions) :
    Along (step S w) Counts sys actions := by
  have kept : Throughout (step S w)
      (fun t => t.phase.Inside → t.machine.samplesLeft ≠ 0) sys actions := by
    refine throughout_of_along (fun t a u held still stepped inside => ?_)
      (fun inside => absurd inside outside) quiet
    cases a with
    | task => exact taskStep_inside stepped held inside
    | setMachine action period nsamples =>
      rcases setMachine_cases stepped with ⟨-, left, -, phase⟩ | rfl
      · rw [phase] at inside
        rw [left]
        rintro rfl
        exact still action period rfl inside
      · exact held inside
  intro done a rest t split reached task counting
  exact kept done (a :: rest) t split reached (by rw [counting]; trivial)

/-! The task with no request in between. -/

def Reaches (S : Storage σ) (w : MachineVars c) (sys sys' : System σ) : Prop :=
  ∃ count, run (step S w) sys (List.replicate count .task) = some sys'

theorem Reaches.refl (sys : System σ) : Reaches S w sys sys := ⟨0, rfl⟩

theorem Reaches.head {next : System σ} (first : taskStep S w sys = some next)
    (later : Reaches S w next sys') : Reaches S w sys sys' := by
  obtain ⟨count, reached⟩ := later
  refine ⟨count + 1, ?_⟩
  rw [List.replicate_succ]
  exact run_cons first reached

theorem reaches_applied (asleep : sys.phase = .asleep)
    (later : Reaches S w { sys with machine := applied sys.machine, phase := .checkState } sys') :
    Reaches S w sys sys' := by
  by_cases standBy : sys.machine.action = actStandBy
  · rw [applied, if_neg (not_not_intro standBy)] at later
    exact .head (by simp only [taskStep, asleep, standBy, ne_eq, not_true, ↓reduceIte]) later
  · rw [applied, if_pos standBy] at later
    refine .head (by simp only [taskStep, asleep, standBy, ne_eq, not_false_iff, ↓reduceIte]; rfl) ?_
    exact .head rfl later

theorem reaches_sampled {i rest : Nat} (count : i + rest = nsensors)
    (sampling : sys.phase = .sampling i)
    (later : Reaches S w { sys with
      sent := sys.sent ++ (List.range' i rest).filter fun k =>
        datStmachineIsSensorActive k sys.machine.activePayloads.toInt32
      phase := .checkUnlimited } sys') :
    Reaches S w sys sys' := by
  induction rest generalizing i sys with
  | zero =>
    refine .head (by simp only [taskStep, sampling]; rw [if_neg (by omega)]) ?_
    simpa using later
  | succ rest ih =>
    refine .head (by simp only [taskStep, sampling]; rw [if_pos (by omega)])
      (ih (i := i + 1) (by omega) rfl ?_)
    rw [List.range'_succ, List.filter_cons] at later
    convert later using 2
    simp only [List.append_assoc]
    congr 1
    split_ifs <;> rfl

theorem sampled_all (m : Stmachine) :
    ((List.range' 0 nsensors).filter fun k =>
      datStmachineIsSensorActive k (applied m).activePayloads.toInt32) = activeSensors m := by
  rw [← applied_activeSensors, activeSensors, List.range_eq_range']

theorem reaches_written {store : σ} {elapsedSec : Int32} (reading : sys.phase = .readAction)
    (written : writeDrp S w sys.store (persisted sys.machine) = some store)
    (next : nextSecond sys.elapsedSec = some elapsedSec) :
    Reaches S w sys { sys with store := store, elapsedSec := elapsedSec, phase := .asleep } := by
  refine .head (by simp only [taskStep, reading]; rfl) ?_
  refine .head rfl (.head rfl (.head rfl (.head rfl (.head ?_ (.refl _)))))
  have written : writeDrp S w sys.store ⟨sys.machine.action.toInt32, sys.machine.state.toInt32,
    sys.machine.step.toInt32, sys.machine.activePayloads.toInt32, sys.machine.samplesLeft⟩ =
      some store := written
  simp [taskStep, written, next]

theorem reaches_tick {machine : Stmachine} {sent : Option (List Nat)} {store : σ}
    {elapsedSec : Int32} (asleep : sys.phase = .asleep)
    (ticked : tick sys.elapsedSec sys.machine = some (machine, sent))
    (written : writeDrp S w sys.store (persisted machine) = some store)
    (next : nextSecond sys.elapsedSec = some elapsedSec) :
    Reaches S w sys { sys with
      machine := machine
      elapsedSec := elapsedSec
      store := store
      sent := sys.sent ++ sent.getD [] } := by
  have ends : Reaches S w { sys with
      machine := machine
      phase := .readAction
      sent := sys.sent ++ sent.getD [] } { sys with
      machine := machine
      elapsedSec := elapsedSec
      store := store
      sent := sys.sent ++ sent.getD [] } := by
    rw [asleep]
    exact reaches_written rfl written next
  refine reaches_applied asleep ?_
  cases tick_iff.mp ticked with
  | paused state =>
    refine .head (by simp only [taskStep, state, ↓reduceIte]; rfl) ?_
    simpa using ends
  | exhausted state left =>
    refine .head (by simp only [taskStep, state, ↓reduceIte]; rfl) ?_
    refine .head (by simp only [taskStep, applied_samplesLeft, left, ↓reduceIte]; rfl) ?_
    refine .head rfl ?_
    simpa using ends
  | waits state left between =>
    refine .head (by simp only [taskStep, state, ↓reduceIte]; rfl) ?_
    refine .head (by simp only [taskStep, applied_samplesLeft, left, ↓reduceIte]; rfl) ?_
    refine .head (by simp [taskStep, between]; rfl) ?_
    simpa using ends
  | unlimited state left due =>
    refine .head (by simp only [taskStep, state, ↓reduceIte]; rfl) ?_
    refine .head (by simp [taskStep, left]; rfl) ?_
    refine .head (by simp [taskStep, due]; rfl) ?_
    refine reaches_sampled (i := 0) (Nat.zero_add _) rfl ?_
    refine .head (by simp [taskStep, left]; rfl) ?_
    simpa [sampled_all] using ends
  | counted state left limited above due =>
    refine .head (by simp only [taskStep, state, ↓reduceIte]; rfl) ?_
    refine .head (by simp only [taskStep, applied_samplesLeft, left, ↓reduceIte]; rfl) ?_
    refine .head (by simp [taskStep, due]; rfl) ?_
    refine reaches_sampled (i := 0) (Nat.zero_add _) rfl ?_
    refine .head (by simp [taskStep, limited]; rfl) ?_
    refine .head (by simp [taskStep, countDown, above]; rfl) ?_
    simpa [sampled_all] using ends

end SensorInterleaving
