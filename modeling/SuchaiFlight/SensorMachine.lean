import SuchaiFlight.StatusVariables
import SuchaiFlight.FlightPlanCalls
import SuchaiFlight.RamSamples
import SuchaiFlight.Library.Runs
import Mathlib.Tactic.Common

/-!
The sampling machine of `taskSensors.c`: `dat_set_stmachine_state` asks for
samples, and each tick of the task applies the action, ends a request that is
exhausted, or samples when the second is a multiple of the step.
-/
namespace SensorMachine
open Runs

def actPause : UInt32 := 0
def actStart : UInt32 := 1
def actStandBy : UInt32 := 2
def actLast : UInt32 := 3

def stPause : UInt32 := 0
def stSampling : UInt32 := 1

/-- `total_sensors` is `nsensors` from the start of the task on. -/
def nsensors : Nat := 4

/-- `dat_stmachine_t`. Its actions and states are numbers, for the ones that are
    found at start-up need not be among the named ones. -/
structure Stmachine where
  state : UInt32
  action : UInt32
  activePayloads : UInt32
  step : UInt32
  samplesLeft : Int32
  deriving DecidableEq

def datSetStmachineState (m : Stmachine) (action step : UInt32) (nsamples : Int32) :
    Int32 × Stmachine :=
  if action < actLast ∧ 0 < step ∧ -2 < nsamples then
    (1, { m with action := action, step := step, samplesLeft := nsamples })
  else (0, m)

def datStmachineIsSensorActive (payload : Nat) (activePayloads : Int32) : Bool :=
  if Int32.ofNat (1 <<< nsensors) ≤ activePayloads then false
  else activePayloads &&& Int32.ofNat (1 <<< payload) != 0

def activeSensors (m : Stmachine) : List Nat :=
  (List.range nsensors).filter fun i => datStmachineIsSensorActive i m.activePayloads.toInt32

def applyAction (m : Stmachine) : Stmachine :=
  if m.action = actStart then { m with state := stSampling, action := actStandBy }
  else if m.action = actPause then { m with state := stPause, action := actStandBy }
  else m

def applied (m : Stmachine) : Stmachine := if m.action ≠ actStandBy then applyAction m else m

def pauseMachine (m : Stmachine) : Stmachine := { m with state := stPause, action := actStandBy }

/-- `elapsed_sec % step == 0`, not defined when the step is 0. -/
def periodEnds (elapsedSec : Int32) (m : Stmachine) : Option Bool :=
  if m.step = 0 then none else some (elapsedSec.toUInt32 % m.step == 0)

def countDown (m : Stmachine) : Option Stmachine :=
  if m.samplesLeft = Int32.minValue then none
  else some { m with samplesLeft := m.samplesLeft - 1 }

def tick (elapsedSec : Int32) (m : Stmachine) : Option (Stmachine × Option (List Nat)) :=
  let m := applied m
  if m.state = stSampling then
    if m.samplesLeft = 0 then some (pauseMachine m, none)
    else do
      if ← periodEnds elapsedSec m then
        let counted ← if m.samplesLeft ≠ -1 then countDown m else some m
        return (counted, some (activeSensors m))
      else return (m, none)
  else some (m, none)

/-! What a tick does. -/

variable {m m' : Stmachine} {elapsedSec : Int32} {sent : Option (List Nat)}

@[simp] theorem applied_step (m : Stmachine) : (applied m).step = m.step := by
  simp only [applied, applyAction]
  split_ifs <;> rfl

@[simp] theorem applied_samplesLeft (m : Stmachine) :
    (applied m).samplesLeft = m.samplesLeft := by
  simp only [applied, applyAction]
  split_ifs <;> rfl

@[simp] theorem applied_activeSensors (m : Stmachine) :
    activeSensors (applied m) = activeSensors m := by
  simp only [applied, applyAction]
  split_ifs <;> rfl

@[simp] theorem applied_periodEnds (elapsedSec : Int32) (m : Stmachine) :
    periodEnds elapsedSec (applied m) = periodEnds elapsedSec m := by
  simp only [periodEnds, applied_step]

inductive Ticked (elapsedSec : Int32) (m : Stmachine) : Stmachine → Option (List Nat) → Prop where
  | paused (state : (applied m).state ≠ stSampling) : Ticked elapsedSec m (applied m) none
  | exhausted (state : (applied m).state = stSampling) (left : m.samplesLeft = 0) :
      Ticked elapsedSec m (pauseMachine (applied m)) none
  | waits (state : (applied m).state = stSampling) (left : m.samplesLeft ≠ 0)
      (between : periodEnds elapsedSec m = some false) : Ticked elapsedSec m (applied m) none
  | unlimited (state : (applied m).state = stSampling) (left : m.samplesLeft = -1)
      (due : periodEnds elapsedSec m = some true) :
      Ticked elapsedSec m (applied m) (some (activeSensors m))
  | counted (state : (applied m).state = stSampling) (left : m.samplesLeft ≠ 0)
      (limited : m.samplesLeft ≠ -1) (above : m.samplesLeft ≠ Int32.minValue)
      (due : periodEnds elapsedSec m = some true) :
      Ticked elapsedSec m { applied m with samplesLeft := m.samplesLeft - 1 }
        (some (activeSensors m))

theorem tick_iff : tick elapsedSec m = some (m', sent) ↔ Ticked elapsedSec m m' sent := by
  constructor
  · intro ticked
    simp only [tick, applied_samplesLeft, applied_periodEnds, applied_activeSensors] at ticked
    split_ifs at ticked with state left limited
    · cases ticked
      exact .exhausted state left
    · obtain ⟨ends, period, ticked⟩ := Option.bind_eq_some_iff.mp ticked
      cases ends with
      | false =>
        cases ticked
        exact .waits state left period
      | true =>
        obtain ⟨counted, taken, ticked⟩ := Option.bind_eq_some_iff.mp ticked
        cases ticked
        rw [countDown, applied_samplesLeft] at taken
        split_ifs at taken with above
        cases taken
        exact .counted state left limited above period
    · obtain ⟨ends, period, ticked⟩ := Option.bind_eq_some_iff.mp ticked
      cases ends with
      | false =>
        cases ticked
        exact .waits state left period
      | true =>
        cases ticked
        exact .unlimited state (not_not.mp limited) period
    · cases ticked
      exact .paused state
  · intro ticked
    cases ticked with
    | paused state => simp [tick, state]
    | exhausted state left => simp [tick, state, left]
    | waits state left between => simp [tick, state, left, between]
    | unlimited state left due => simp [tick, state, left, due]
    | counted state left limited above due =>
      simp [tick, state, left, limited, due, countDown, above]

def Armed (m : Stmachine) : Prop :=
  m.action = actStart ∨ m.action = actStandBy ∧ m.state = stSampling

def sampling (m : Stmachine) : Stmachine := { m with state := stSampling, action := actStandBy }

theorem armed_sampling (m : Stmachine) : Armed (sampling m) := .inr ⟨rfl, rfl⟩

theorem applied_of_armed (armed : Armed m) : applied m = sampling m := by
  rcases armed with start | ⟨standBy, state⟩
  · rw [applied, if_pos (by rw [start]; decide), applyAction, if_pos start]
    rfl
  · rw [applied, if_neg (not_not_intro standBy), sampling, ← standBy, ← state]

theorem tick_exhausted (armed : Armed m) (left : m.samplesLeft = 0) :
    tick elapsedSec m = some (pauseMachine m, none) := by
  have same := applied_of_armed armed
  have ticked : tick elapsedSec m = some (pauseMachine (applied m), none) :=
    tick_iff.mpr (.exhausted (by rw [same]; rfl) left)
  rwa [same] at ticked

theorem tick_waits (armed : Armed m) (left : m.samplesLeft ≠ 0)
    (between : periodEnds elapsedSec m = some false) :
    tick elapsedSec m = some (sampling m, none) := by
  have same := applied_of_armed armed
  have ticked := tick_iff.mpr (.waits (by rw [same]; rfl) left between)
  rwa [same] at ticked

theorem tick_samples (armed : Armed m) (positive : 0 < m.samplesLeft)
    (due : periodEnds elapsedSec m = some true) :
    tick elapsedSec m =
      some ({ sampling m with samplesLeft := m.samplesLeft - 1 }, some (activeSensors m)) := by
  have same := applied_of_armed armed
  have other : ∀ left, ¬ 0 < left → m.samplesLeft ≠ left := by
    rintro left below rfl
    exact below positive
  have ticked := tick_iff.mpr (.counted (by rw [same]; rfl) (other 0 (by decide))
    (other (-1) (by decide)) (other Int32.minValue (by decide)) due)
  rwa [same] at ticked

theorem tick_paused (standBy : m.action = actStandBy) (paused : m.state = stPause) :
    tick elapsedSec m = some (m, none) := by
  have same : applied m = m := if_neg (not_not_intro standBy)
  have ticked : tick elapsedSec m = some (applied m, none) :=
    tick_iff.mpr (.paused (by rw [same, paused]; decide))
  rwa [same] at ticked

/-! Ticks that follow a request. -/

structure Counted where
  machine : Stmachine
  rounds : Nat

def countTick (s : Counted) (elapsedSec : Int32) : Option Counted := do
  let (machine, sent) ← tick elapsedSec s.machine
  return { machine := machine, rounds := s.rounds + sent.isSome.toNat }

def seconds (first count : Nat) : List Int32 := (List.range' first count).map Int32.ofNat

def multiples (step : UInt32) (first count : Nat) : Nat :=
  (List.range' first count).countP fun second => decide (step.toNat ∣ second)

theorem seconds_succ (first count : Nat) :
    seconds first (count + 1) = seconds first count ++ [Int32.ofNat (first + count)] := by
  simp [seconds, List.range'_1_concat]

theorem multiples_succ (step : UInt32) (first count : Nat) :
    multiples step first (count + 1) =
      multiples step first count + if step.toNat ∣ first + count then 1 else 0 := by
  simp [multiples, List.range'_1_concat, List.countP_singleton]

theorem periodEnds_iff {second : Nat} (positive : 0 < m.step) (below : second < 2147483648) :
    periodEnds (Int32.ofNat second) m = some (decide (m.step.toNat ∣ second)) := by
  have step : m.step ≠ 0 := by
    rintro zero
    exact absurd positive (by rw [zero]; decide)
  have inside : second < 2 ^ 32 := by omega
  rw [periodEnds, if_neg step, Int32.toUInt32_ofNat']
  congr 1
  rw [Bool.eq_iff_iff, beq_iff_eq, decide_eq_true_iff, ← UInt32.toNat_inj, UInt32.toNat_mod,
    UInt32.toNat_ofNat_of_lt' inside, Nat.dvd_iff_mod_eq_zero]
  rfl

/-- What is true after `due` of the ticks that followed a request for `n` samples
    were multiples of the step. -/
structure Progress (step : UInt32) (n : Int32) (due : Nat) (s : Counted) : Prop where
  step_eq : s.machine.step = step
  rounds_eq : s.rounds = min n.toInt.toNat due
  left_eq : s.machine.samplesLeft.toInt = n.toInt - s.rounds
  armed : Armed s.machine ∨ s.machine.action = actStandBy ∧ s.machine.state = stPause ∧
    s.machine.samplesLeft = 0

variable {step : UInt32} {n : Int32} {due second : Nat} {s : Counted}

theorem Progress.exhausted_iff (progress : Progress step n due s) (nonneg : 0 ≤ n) :
    s.machine.samplesLeft = 0 ↔ n.toInt.toNat ≤ due := by
  have low : 0 ≤ n.toInt := Int32.le_iff_toInt_le.mp nonneg
  have rounds := progress.rounds_eq
  rw [← Int32.toInt_inj, progress.left_eq, show (0 : Int32).toInt = 0 from rfl]
  omega

theorem Progress.tick (progress : Progress step n due s) (positive : 0 < step) (nonneg : 0 ≤ n)
    (below : second < 2147483648) :
    ∃ s', countTick s (Int32.ofNat second) = some s' ∧
      Progress step n (due + if step.toNat ∣ second then 1 else 0) s' ∧
      (s.machine.samplesLeft = 0 → s'.machine.state = stPause) := by
  have low : 0 ≤ n.toInt := Int32.le_iff_toInt_le.mp nonneg
  have rounds := progress.rounds_eq
  have left := progress.left_eq
  have period := periodEnds_iff (show 0 < s.machine.step by rw [progress.step_eq]; exact positive)
    below
  rw [progress.step_eq] at period
  by_cases exhausted : s.machine.samplesLeft = 0
  · have enough := (progress.exhausted_iff nonneg).mp exhausted
    have same : s.rounds = min n.toInt.toNat (due + if step.toNat ∣ second then 1 else 0) := by
      omega
    rcases progress.armed with armed | ⟨standBy, paused, -⟩
    · refine ⟨{ machine := pauseMachine s.machine, rounds := s.rounds }, ?_, ?_, fun _ => rfl⟩
      · simp [countTick, tick_exhausted armed exhausted]
      · exact ⟨progress.step_eq, same, left, .inr ⟨rfl, rfl, exhausted⟩⟩
    · refine ⟨s, ?_, ⟨progress.step_eq, same, left, .inr ⟨standBy, paused, exhausted⟩⟩,
        fun _ => paused⟩
      simp [countTick, tick_paused standBy paused]
  · have armed : Armed s.machine :=
      progress.armed.resolve_right fun paused => exhausted paused.2.2
    have short := mt (progress.exhausted_iff nonneg).mpr exhausted
    by_cases multiple : step.toNat ∣ second
    · have remains : 0 < s.machine.samplesLeft.toInt := by omega
      have positiveLeft : 0 < s.machine.samplesLeft := Int32.lt_iff_toInt_lt.mpr remains
      rw [decide_eq_true multiple] at period
      refine ⟨{ machine := { sampling s.machine with samplesLeft := s.machine.samplesLeft - 1 },
                rounds := s.rounds + 1 }, ?_, ?_, fun none_left => absurd none_left exhausted⟩
      · simp [countTick, tick_samples armed positiveLeft period]
      · rw [if_pos multiple]
        refine ⟨progress.step_eq, by show s.rounds + 1 = _; omega, ?_, .inl (.inr ⟨rfl, rfl⟩)⟩
        have high := s.machine.samplesLeft.toInt_lt
        show (s.machine.samplesLeft - 1).toInt = n.toInt - ((s.rounds + 1 : Nat) : Int)
        rw [Int32.toInt_sub, show (1 : Int32).toInt = 1 from rfl, Int.bmod_eq_of_le] <;> omega
    · rw [decide_eq_false multiple] at period
      refine ⟨{ machine := sampling s.machine, rounds := s.rounds }, ?_, ?_,
        fun none_left => absurd none_left exhausted⟩
      · simp [countTick, tick_waits armed exhausted period]
      · rw [if_neg multiple]
        exact ⟨progress.step_eq, rounds, left, .inl (armed_sampling _)⟩

theorem Progress.ticks (progress : Progress step n 0 s) (positive : 0 < step) (nonneg : 0 ≤ n)
    (first count : Nat) (below : first + count ≤ 2147483648) :
    ∃ s', run countTick s (seconds first count) = some s' ∧
      Progress step n (multiples step first count) s' := by
  induction count with
  | zero => exact ⟨s, rfl, progress⟩
  | succ count ih =>
    obtain ⟨before, reached, held⟩ := ih (by omega)
    obtain ⟨s', ticked, held', -⟩ := held.tick positive nonneg
      (show first + count < 2147483648 by omega)
    refine ⟨s', ?_, by rw [multiples_succ]; exact held'⟩
    rw [seconds_succ]
    exact run_trans reached (run_single ticked)

theorem multiples_mono (step : UInt32) (first : Nat) {earlier count : Nat}
    (before : earlier ≤ count) : multiples step first earlier ≤ multiples step first count := by
  induction count, before using Nat.le_induction with
  | base => exact Nat.le_refl _
  | succ count _ ih =>
    rw [multiples_succ]
    exact Nat.le_add_right_of_le ih

theorem accepted_iff {action : UInt32} :
    datSetStmachineState m action step n = (1, m') ↔
      (action < actLast ∧ 0 < step ∧ -2 < n) ∧
        m' = { m with action := action, step := step, samplesLeft := n } := by
  rw [datSetStmachineState]
  split
  · rename_i inside
    simp [inside, eq_comm]
  · rename_i outside
    simp [outside]

theorem accepted_progress (accepted : datSetStmachineState m actStart step n = (1, m'))
    (nonneg : 0 ≤ n) : Progress step n 0 { machine := m', rounds := 0 } := by
  obtain ⟨-, rfl⟩ := accepted_iff.mp accepted
  have low : 0 ≤ n.toInt := Int32.le_iff_toInt_le.mp nonneg
  exact ⟨rfl, by simp, by simp, .inl (.inl rfl)⟩

/-- A request for `n` samples is met exactly, from any machine and at any phase
    of the seconds. -/
theorem request_takes_exactly (accepted : datSetStmachineState m actStart step n = (1, m'))
    (nonneg : 0 ≤ n) (first count : Nat) (below : first + count ≤ 2147483648) :
    ∃ s, run countTick { machine := m', rounds := 0 } (seconds first count) = some s ∧
      s.rounds = min n.toInt.toNat (multiples step first count) ∧
      s.machine.samplesLeft.toInt = n.toInt - s.rounds ∧
      ∀ earlier t, earlier < count →
        run countTick { machine := m', rounds := 0 } (seconds first earlier) = some t →
        t.machine.samplesLeft = 0 → s.machine.state = stPause ∧ s.rounds = t.rounds := by
  obtain ⟨⟨-, positive, -⟩, -⟩ := accepted_iff.mp accepted
  have start := accepted_progress accepted nonneg
  obtain ⟨s, reached, progress⟩ := start.ticks positive nonneg first count below
  refine ⟨s, reached, progress.rounds_eq, progress.left_eq, fun earlier t before passed out => ?_⟩
  obtain ⟨t', passed', then_⟩ := start.ticks positive nonneg first earlier (by omega)
  obtain rfl := Option.some.inj (passed.symm.trans passed')
  have met := (then_.exhausted_iff nonneg).mp out
  have more := multiples_mono step first (Nat.le_of_lt before)
  obtain ⟨last, rfl⟩ := Nat.exists_eq_add_one_of_ne_zero (Nat.ne_zero_of_lt before)
  obtain ⟨u, reached', held⟩ := start.ticks positive nonneg first last (by omega)
  obtain ⟨s', ticked, -, paused⟩ := held.tick positive nonneg
    (show first + last < 2147483648 by omega)
  have same : s' = s := by
    rw [seconds_succ, run_trans reached' (run_single ticked)] at reached
    exact Option.some.inj reached
  refine ⟨same ▸ paused ((held.exhausted_iff nonneg).mpr ?_), ?_⟩
  · exact Nat.le_trans met (multiples_mono step first (Nat.le_of_lt_succ before))
  · rw [progress.rounds_eq, then_.rounds_eq]
    omega

theorem five_samples_taken :
    ∃ s, run countTick { machine := ⟨stPause, actStart, 0, 3, 5⟩, rounds := 0 } (seconds 7 30) =
        some s ∧ s.rounds = 5 ∧ s.machine.samplesLeft.toInt = 0 := by
  have accepted : datSetStmachineState ⟨stPause, actStandBy, 0, 5, -1⟩ actStart 3 5 =
      (1, ⟨stPause, actStart, 0, 3, 5⟩) := accepted_iff.mpr ⟨by decide, rfl⟩
  obtain ⟨s, reached, rounds, left, -⟩ := request_takes_exactly accepted (by decide) 7 30 (by decide)
  have five : s.rounds = 5 := rounds.trans (by decide)
  exact ⟨s, reached, five, by rw [left, five]; rfl⟩

/-! The machine from start-up on, and what it persists. -/

section
open StorageApi RepoData

structure Drp where
  action : Int32
  state : Int32
  step : Int32
  payloads : Int32
  left : Int32

def initialMachine (drp : Drp) : Stmachine :=
  if drp.action < 0 ∨ drp.state < 0 ∨ drp.payloads < 0 ∨ drp.step < 0 then
    { state := stPause, action := actStart, activePayloads := 0, step := 5, samplesLeft := -1 }
  else
    { state := drp.state.toUInt32
      action := drp.action.toUInt32
      activePayloads := drp.payloads.toUInt32
      step := drp.step.toUInt32
      samplesLeft := drp.left }

def persisted (m : Stmachine) : Drp where
  action := m.action.toInt32
  state := m.state.toInt32
  step := m.step.toInt32
  payloads := m.activePayloads.toInt32
  left := m.samplesLeft

structure MachineVars (c : Config) where
  datDrpMachAction : Fin c.datStatusLastAddress
  datDrpMachState : Fin c.datStatusLastAddress
  datDrpMachStep : Fin c.datStatusLastAddress
  datDrpMachPayloads : Fin c.datStatusLastAddress
  datDrpMachLeft : Fin c.datStatusLastAddress
  distinct : [datDrpMachAction, datDrpMachState, datDrpMachStep, datDrpMachPayloads,
    datDrpMachLeft].Nodup

variable {σ : Type} (S : Storage σ) {c : Config} (w : MachineVars c)

def readDrp (s : σ) : Option Drp := do
  let action ← datGetSystemVar S c s w.datDrpMachAction
  let state ← datGetSystemVar S c s w.datDrpMachState
  let step ← datGetSystemVar S c s w.datDrpMachStep
  let payloads ← datGetSystemVar S c s w.datDrpMachPayloads
  let left ← datGetSystemVar S c s w.datDrpMachLeft
  return { action, state, step, payloads, left }

def writeDrp (s : σ) (drp : Drp) : Option σ := do
  let (_, s) ← datSetSystemVar S c s w.datDrpMachAction drp.action
  let (_, s) ← datSetSystemVar S c s w.datDrpMachState drp.state
  let (_, s) ← datSetSystemVar S c s w.datDrpMachStep drp.step
  let (_, s) ← datSetSystemVar S c s w.datDrpMachPayloads drp.payloads
  let (_, s) ← datSetSystemVar S c s w.datDrpMachLeft drp.left
  return s

structure System (σ : Type) where
  machine : Stmachine
  elapsedSec : Int32
  store : σ

def started (drp : Drp) (s : σ) : System σ :=
  { machine := initialMachine drp, elapsedSec := 0, store := s }

def taskSensors (s : σ) : Option (System σ) := do
  let drp ← readDrp S w s
  return started drp s

def nextSecond (elapsedSec : Int32) : Option Int32 :=
  if elapsedSec = Int32.maxValue then none else some (elapsedSec + 1)

inductive Event where
  | tick
  | setMachine (action step : UInt32) (nsamples : Int32)

def perform (sys : System σ) : Event → Option (System σ)
  | .tick => do
    let (machine, _) ← tick sys.elapsedSec sys.machine
    let store ← writeDrp S w sys.store (persisted machine)
    let elapsedSec ← nextSecond sys.elapsedSec
    return { machine, elapsedSec, store }
  | .setMachine action step nsamples =>
    some { sys with machine := (datSetStmachineState sys.machine action step nsamples).2 }

def Sound (sys : System σ) : Prop :=
  0 < sys.machine.step ∧ -1 ≤ sys.machine.samplesLeft ∧
    (periodEnds sys.elapsedSec sys.machine).isSome

def Drp.Usable (drp : Drp) : Prop :=
  (drp.action < 0 ∨ drp.state < 0 ∨ drp.payloads < 0 ∨ drp.step < 0) ∨
    0 < drp.step ∧ -1 ≤ drp.left

theorem periodEnds_isSome : (periodEnds elapsedSec m).isSome ↔ 0 < m.step := by
  rw [periodEnds, UInt32.pos_iff_ne_zero]
  split <;> simp_all

theorem sound_iff {sys : System σ} :
    Sound sys ↔ 0 < sys.machine.step ∧ -1 ≤ sys.machine.samplesLeft := by
  rw [Sound, periodEnds_isSome]
  tauto

theorem started_sound_iff (drp : Drp) (s : σ) : Sound (started drp s) ↔ drp.Usable := by
  rw [sound_iff, Drp.Usable]
  by_cases negative : drp.action < 0 ∨ drp.state < 0 ∨ drp.payloads < 0 ∨ drp.step < 0
  · rw [started, initialMachine, if_pos negative]
    exact ⟨fun _ => .inl negative, fun _ => ⟨(by decide : (0 : UInt32) < 5), Int32.le_refl _⟩⟩
  · have low : 0 ≤ drp.step := by
      by_contra below
      exact negative (.inr (.inr (.inr (Int32.not_le.mp below))))
    have step : 0 < drp.step.toUInt32 ↔ 0 < drp.step := by
      rw [UInt32.pos_iff_ne_zero, Int32.lt_iff_le_and_ne, and_iff_right low, ne_comm, ne_eq, ne_eq,
        ← Int32.toBitVec_inj, ← UInt32.toBitVec_inj]
      rfl
    rw [started, initialMachine, if_neg negative]
    simp only [negative, false_or, step]

theorem Ticked.step_eq (ticked : Ticked elapsedSec m m' sent) : m'.step = m.step := by
  cases ticked <;> simp [pauseMachine]

theorem Ticked.left_cases (ticked : Ticked elapsedSec m m' sent) :
    m'.samplesLeft = m.samplesLeft ∨ m.samplesLeft ≠ 0 ∧ m.samplesLeft ≠ -1 ∧
      m'.samplesLeft = m.samplesLeft - 1 := by
  cases ticked with
  | counted state left limited above due => exact .inr ⟨left, limited, rfl⟩
  | _ => exact .inl (by simp [pauseMachine])

variable {S w} {sys sys' : System σ}

theorem perform_tick (performed : perform S w sys .tick = some sys') :
    ∃ machine sent store elapsedSec, tick sys.elapsedSec sys.machine = some (machine, sent) ∧
      writeDrp S w sys.store (persisted machine) = some store ∧
      nextSecond sys.elapsedSec = some elapsedSec ∧ sys' = { machine, elapsedSec, store } := by
  obtain ⟨⟨machine, sent⟩, ticked, performed⟩ := Option.bind_eq_some_iff.mp performed
  obtain ⟨store, written, performed⟩ := Option.bind_eq_some_iff.mp performed
  obtain ⟨elapsedSec, next, performed⟩ := Option.bind_eq_some_iff.mp performed
  exact ⟨machine, sent, store, elapsedSec, ticked, written, next, (Option.some.inj performed).symm⟩

theorem Sound.perform (sound : Sound sys) {event : Event}
    (performed : perform S w sys event = some sys') : Sound sys' := by
  obtain ⟨step, left⟩ := sound_iff.mp sound
  refine sound_iff.mpr ?_
  cases event with
  | tick =>
    obtain ⟨machine, sent, store, elapsedSec, ticked, -, -, rfl⟩ := perform_tick performed
    have changed := tick_iff.mp ticked
    refine ⟨by rw [changed.step_eq]; exact step, ?_⟩
    rcases changed.left_cases with same | ⟨notZero, limited, counted⟩
    · rw [same]
      exact left
    · rw [counted]
      rw [Int32.le_iff_toInt_le] at left ⊢
      rw [ne_eq, ← Int32.toInt_inj] at notZero limited
      have high := sys.machine.samplesLeft.toInt_lt
      rw [show (-1 : Int32).toInt = -1 from rfl] at left limited ⊢
      rw [show (0 : Int32).toInt = 0 from rfl] at notZero
      rw [Int32.toInt_sub, show (1 : Int32).toInt = 1 from rfl, Int.bmod_eq_of_le] <;> omega
  | setMachine action step' nsamples =>
    obtain rfl := Option.some.inj performed
    rw [datSetStmachineState]
    split
    · rename_i accepted
      refine ⟨accepted.2.1, ?_⟩
      have above := Int32.lt_iff_toInt_lt.mp accepted.2.2
      exact Int32.le_iff_toInt_le.mpr above
    · exact ⟨step, left⟩

/-- Every run from start-up, exactly when the values found are usable. -/
theorem sound_throughout_iff (S : Storage σ) (w : MachineVars c) (drp : Drp) (s : σ)
    (events : List Event) :
    Throughout (perform S w) Sound (started drp s) events ↔ drp.Usable := by
  constructor
  · intro sound
    exact (started_sound_iff drp s).mp (sound [] events _ rfl rfl)
  · intro usable done rest t _ reached
    exact run_invariant (fun _ _ _ held performed => held.perform performed)
      ((started_sound_iff drp s).mpr usable) reached

section
open StatusVariables
variable {ρ : Type} {good : σ → Prop} {cell : σ → Nat → Option UInt32} {rest : σ → ρ}
  {put : σ → Nat → UInt32 → σ}

theorem writeDrp_spec (w : MachineVars c) (laws : StatusLaws S c good cell rest put) {s : σ}
    (ok : good s) (drp : Drp) :
    ∃ s', writeDrp S w s drp = some s' ∧ good s' ∧ readDrp S w s' = some drp := by
  obtain ⟨s₁, set₁, ok₁, -⟩ := datSetSystemVar_spec laws ok w.datDrpMachAction.isLt drp.action
  obtain ⟨s₂, set₂, ok₂, -⟩ := datSetSystemVar_spec laws ok₁ w.datDrpMachState.isLt drp.state
  obtain ⟨s₃, set₃, ok₃, -⟩ := datSetSystemVar_spec laws ok₂ w.datDrpMachStep.isLt drp.step
  obtain ⟨s₄, set₄, ok₄, -⟩ := datSetSystemVar_spec laws ok₃ w.datDrpMachPayloads.isLt drp.payloads
  obtain ⟨s₅, set₅, ok₅, -⟩ := datSetSystemVar_spec laws ok₄ w.datDrpMachLeft.isLt drp.left
  have read₁ := (datSetSystemVar_reads laws ok w.datDrpMachAction.isLt set₁).2
  have read₂ := (datSetSystemVar_reads laws ok₁ w.datDrpMachState.isLt set₂).2
  have read₃ := (datSetSystemVar_reads laws ok₂ w.datDrpMachStep.isLt set₃).2
  have read₄ := (datSetSystemVar_reads laws ok₃ w.datDrpMachPayloads.isLt set₄).2
  have read₅ := (datSetSystemVar_reads laws ok₄ w.datDrpMachLeft.isLt set₅).2
  have apart := w.distinct
  simp only [List.nodup_cons, List.mem_cons, List.not_mem_nil, not_or, ← Fin.val_inj] at apart
  obtain ⟨⟨a₁, a₂, a₃, a₄, -⟩, ⟨b₁, b₂, b₃, -⟩, ⟨c₁, c₂, -⟩, ⟨d₁, -⟩, -⟩ := apart
  refine ⟨s₅, by simp [writeDrp, set₁, set₂, set₃, set₄, set₅], ok₅, ?_⟩
  simp [readDrp, read₁, read₂, read₃, read₄, read₅, a₁, a₂, a₃, a₄, b₁, b₂, b₃, c₁, c₂, d₁]

theorem countDown_isSome (low : -1 ≤ m.samplesLeft) : (countDown m).isSome := by
  rw [countDown, if_neg]
  · rfl
  · intro least
    exact absurd low (by rw [least]; decide)

theorem Sound.tick_goes (sound : Sound sys) (w : MachineVars c)
    (laws : StatusLaws S c good cell rest put) (ok : good sys.store)
    (early : sys.elapsedSec ≠ Int32.maxValue) :
    ∃ sys', SensorMachine.perform S w sys .tick = some sys' ∧ good sys'.store := by
  obtain ⟨step, left, period⟩ := sound
  obtain ⟨ends, period⟩ := Option.isSome_iff_exists.mp period
  obtain ⟨counted, taken⟩ := Option.isSome_iff_exists.mp
    (countDown_isSome (m := applied sys.machine) (by simpa using left))
  have ticked : ∃ result, tick sys.elapsedSec sys.machine = some result := by
    simp only [tick, applied_periodEnds, period, Option.bind_eq_bind, Option.bind_some, taken]
    split_ifs <;> exact ⟨_, rfl⟩
  obtain ⟨⟨machine, sent⟩, ticked⟩ := ticked
  obtain ⟨store, written, ok', -⟩ := writeDrp_spec w laws ok (persisted machine)
  refine ⟨{ machine, elapsedSec := sys.elapsedSec + 1, store }, ?_, ok'⟩
  simp [SensorMachine.perform, ticked, written, nextSecond, early]

end

section Ram
open RamStorage RamFlightPlan RamSamples FlightPlanCalls

def ramVars : MachineVars simpleConfig where
  datDrpMachAction := ⟨7, by decide⟩
  datDrpMachState := ⟨8, by decide⟩
  datDrpMachStep := ⟨10, by decide⟩
  datDrpMachPayloads := ⟨11, by decide⟩
  datDrpMachLeft := ⟨12, by decide⟩
  distinct := by decide

theorem zero_step_found :
    ∃ s sys, (∃ before, datRepoInit simpleConfig 1 = some before ∧
        writeDrp (ramStorage simpleConfig) ramVars before ⟨2, 1, 0, 1, 5⟩ = some s) ∧
      taskSensors (ramStorage simpleConfig) ramVars s = some sys ∧
      tick sys.elapsedSec sys.machine = none ∧
      ¬ Throughout (perform (ramStorage simpleConfig) ramVars) Sound sys [.tick] := by
  obtain ⟨before, boot, -, status, ready, -⟩ := datRepoInit_fresh simpleConfig 1
  obtain ⟨s, written, -, found⟩ :=
    writeDrp_spec ramVars (ram_status simpleConfig) ⟨status, ready⟩ ⟨2, 1, 0, 1, 5⟩
  refine ⟨s, started ⟨2, 1, 0, 1, 5⟩ s, ⟨before, boot, written⟩, ?_, ?_, fun sound => ?_⟩
  · rw [taskSensors, found]
    rfl
  · show tick 0 (initialMachine ⟨2, 1, 0, 1, 5⟩) = none
    decide
  · have positive : 0 < (initialMachine ⟨2, 1, 0, 1, 5⟩).step := (sound [] [.tick] _ rfl rfl).1
    exact absurd positive (by decide)

end Ram

end

end SensorMachine
