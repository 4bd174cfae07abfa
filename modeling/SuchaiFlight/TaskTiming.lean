import SuchaiFlight.Library.Runs
import Mathlib.Tactic.Common
import Mathlib.Tactic.Linarith

/-!
Time in the wrappers of `src/os/linux`: the deadlines of `osSemaphoreTake` and
of the queue's two functions, and `osTaskDelayUntil`, which paces the loop of
every periodic task.
-/
namespace TaskTiming
open Runs

/-! The deadline of a wait. -/

structure Timespec where
  tvSec : Nat
  tvNsec : Nat
  normal : tvNsec < 1000000000

def Timespec.nanoseconds (ts : Timespec) : Nat := ts.tvSec * 1000000000 + ts.tvNsec

/-- The addition of `timeout` milliseconds. `carries` is the test on the sum of
    the nanoseconds that decides whether a second is added. -/
def deadline (carries : Nat → Bool) (ts : Timespec) (timeout : UInt32) : Timespec :=
  let sec := timeout / 1000
  let nsec := (timeout - 1000 * sec) * 1000000
  { tvSec := ts.tvSec + sec.toNat + (carries (ts.tvNsec + nsec.toNat)).toNat
    tvNsec := (ts.tvNsec + nsec.toNat) % 1000000000
    normal := Nat.mod_lt _ (by decide) }

def portMaxDelay : UInt32 := 0xffffffff

/-- `osSemaphoreTake`, which waits without a deadline for `portMAX_DELAY`. -/
def semaphoreDeadline (ts : Timespec) (timeout : UInt32) : Option Timespec :=
  if timeout = portMaxDelay then none
  else some (deadline (fun nanoseconds => 1000000000 ≤ nanoseconds) ts timeout)

/-- `os_pthread_queue_send` and `os_pthread_queue_receive`, where `portMAX_DELAY`
    is a time-out like any other. -/
def queueDeadline : Timespec → UInt32 → Timespec :=
  deadline fun nanoseconds => 1000000000 < nanoseconds

def fraction (timeout : UInt32) : Nat := timeout.toNat % 1000 * 1000000

theorem fraction_lt (timeout : UInt32) : fraction timeout < 1000000000 := by
  have small := Nat.mod_lt timeout.toNat (show 0 < 1000 by decide)
  simp only [fraction]
  omega

theorem nsec_toNat (timeout : UInt32) :
    ((timeout - 1000 * (timeout / 1000)) * 1000000).toNat = fraction timeout := by
  have bound := timeout.toNat_lt
  have whole : (1000 * (timeout / 1000)).toNat = 1000 * (timeout.toNat / 1000) := by
    simp only [UInt32.toNat_mul, UInt32.toNat_div, UInt32.reduceToNat]
    omega
  have rest : (timeout - 1000 * (timeout / 1000)).toNat = timeout.toNat % 1000 := by
    rw [UInt32.toNat_sub_of_le, whole]
    · omega
    · rw [UInt32.le_iff_toNat_le, whole]
      omega
  rw [UInt32.toNat_mul, rest]
  have small := Nat.mod_lt timeout.toNat (show 0 < 1000 by decide)
  simp only [UInt32.reduceToNat, fraction]
  omega

theorem deadline_nanoseconds (carries : Nat → Bool) (ts : Timespec) (timeout : UInt32) :
    (deadline carries ts timeout).nanoseconds +
        (ts.tvNsec + fraction timeout) / 1000000000 * 1000000000 =
      ts.nanoseconds + timeout.toNat * 1000000 +
        (carries (ts.tvNsec + fraction timeout)).toNat * 1000000000 := by
  have split : timeout.toNat * 1000000 =
      timeout.toNat / 1000 * 1000000000 + fraction timeout := by
    simp only [fraction]
    omega
  have sum := Nat.div_add_mod (ts.tvNsec + fraction timeout) 1000000000
  simp only [deadline, Timespec.nanoseconds, nsec_toNat, UInt32.toNat_div, UInt32.reduceToNat]
  generalize (carries (ts.tvNsec + fraction timeout)).toNat = carry
  linarith

theorem deadline_exact (carries : Nat → Bool) (ts : Timespec) (timeout : UInt32)
    (agrees : (carries (ts.tvNsec + fraction timeout)).toNat =
      (ts.tvNsec + fraction timeout) / 1000000000) :
    (deadline carries ts timeout).nanoseconds = ts.nanoseconds + timeout.toNat * 1000000 := by
  have found := deadline_nanoseconds carries ts timeout
  rw [agrees] at found
  exact Nat.add_right_cancel found

theorem seconds_of_sum (ts : Timespec) (timeout : UInt32) :
    (decide (1000000000 ≤ ts.tvNsec + fraction timeout)).toNat =
      (ts.tvNsec + fraction timeout) / 1000000000 := by
  have normal := ts.normal
  have part := fraction_lt timeout
  have bound : ts.tvNsec + fraction timeout < 2 * 1000000000 := by omega
  generalize ts.tvNsec + fraction timeout = sum at bound ⊢
  by_cases reaches : 1000000000 ≤ sum
  · have one : sum / 1000000000 = 1 := by omega
    rw [one, decide_eq_true reaches]
    rfl
  · have none_ : sum / 1000000000 = 0 := by omega
    rw [none_, decide_eq_false reaches]
    rfl

/-- The semaphore has no deadline for `portMAX_DELAY` and else just the one that
    was asked for. That of the queue is exact too, except where the nanoseconds
    add up to just one second: there it is a whole second early, and has passed
    already when `timeout` is below a second. -/
theorem deadlines_exact (ts : Timespec) (timeout : UInt32) :
    (semaphoreDeadline ts timeout).map Timespec.nanoseconds =
        (if timeout = portMaxDelay then none else some (ts.nanoseconds + timeout.toNat * 1000000)) ∧
      ((queueDeadline ts timeout).nanoseconds = ts.nanoseconds + timeout.toNat * 1000000 ↔
        ts.tvNsec + fraction timeout ≠ 1000000000) ∧
      (ts.tvNsec + fraction timeout = 1000000000 →
        (queueDeadline ts timeout).nanoseconds + 1000000000 =
          ts.nanoseconds + timeout.toNat * 1000000) := by
  have early : ts.tvNsec + fraction timeout = 1000000000 →
      (queueDeadline ts timeout).nanoseconds + 1000000000 =
        ts.nanoseconds + timeout.toNat * 1000000 := by
    intro just
    have found := deadline_nanoseconds (fun n => 1000000000 < n) ts timeout
    have whole : (ts.tvNsec + fraction timeout) / 1000000000 = 1 := by omega
    have carry : (decide (1000000000 < ts.tvNsec + fraction timeout)).toNat = 0 := by
      rw [decide_eq_false (by omega)]
      rfl
    rw [whole, carry] at found
    simp only [queueDeadline]
    linarith
  have semaphore := deadline_exact (fun n => 1000000000 ≤ n) ts timeout (seconds_of_sum ts timeout)
  refine ⟨?_, ⟨fun same just => ?_, fun other => ?_⟩, early⟩
  · unfold semaphoreDeadline
    split
    · rfl
    · rw [Option.map_some, semaphore]
  · have late := early just
    linarith
  · have agree : decide (1000000000 < ts.tvNsec + fraction timeout) =
        decide (1000000000 ≤ ts.tvNsec + fraction timeout) := by
      rw [decide_eq_decide]
      omega
    refine deadline_exact (fun n => 1000000000 < n) ts timeout ?_
    rw [agree]
    exact seconds_of_sum ts timeout

/-! The loop of a periodic task. -/

def osDefineTime (mseconds : UInt32) : UInt64 := mseconds.toUInt64 * 1000

def osDelay (mseconds : UInt32) : UInt32 := mseconds * 1000

/-- `osTaskDelayUntil`, with what it passes to `osDelay` when it sleeps. `first`
    is its first reading of the clock, and `second` the one that it takes last. -/
def osTaskDelayUntil (lastTime : UInt64) (mseconds : UInt32) (first second : UInt64) :
    UInt64 × Option UInt32 :=
  let dUsec := first - lastTime
  let sUsec := osDefineTime mseconds
  if sUsec < dUsec then (second - (dUsec - sUsec), none)
  else (second, some ((sUsec - dUsec) / 1000).toUInt32)

structure Loop where
  lastTime : UInt64
  now : UInt64

def slept (result : UInt64 × Option UInt32) : Nat := (result.2.map fun ms => (osDelay ms).toNat).getD 0

/-- One iteration. The clock never goes back, and a sleep is as long as asked or longer. -/
def iterate (mseconds : UInt32) (l : Loop) (readings : UInt64 × UInt64) : Option Loop :=
  let result := osTaskDelayUntil l.lastTime mseconds readings.1 readings.2
  if l.now ≤ readings.1 ∧ readings.1.toNat + slept result ≤ readings.2.toNat then
    some ⟨result.1, readings.2⟩
  else none

def overrun (mseconds : UInt32) (l : Loop) (readings : UInt64 × UInt64) : Nat :=
  readings.2.toNat - readings.1.toNat -
    slept (osTaskDelayUntil l.lastTime mseconds readings.1 readings.2)

def overruns (mseconds : UInt32) : Loop → List (UInt64 × UInt64) → Nat
  | _, [] => 0
  | l, readings :: rest =>
    overrun mseconds l readings + ((iterate mseconds l readings).map fun next =>
      overruns mseconds next rest).getD 0

theorem osDefineTime_toNat (mseconds : UInt32) :
    (osDefineTime mseconds).toNat = mseconds.toNat * 1000 := by
  have bound := mseconds.toNat_lt
  simp only [osDefineTime, UInt64.toNat_mul, UInt32.toNat_toUInt64, UInt64.reduceToNat]
  omega

theorem slept_some {lastTime first : UInt64} (second : UInt64) {mseconds : UInt32}
    (short : mseconds.toNat ≤ 4294967) (before : lastTime ≤ first)
    (early : ¬ osDefineTime mseconds < first - lastTime) :
    slept (osTaskDelayUntil lastTime mseconds first second) =
      (mseconds.toNat * 1000 - (first.toNat - lastTime.toNat)) / 1000 * 1000 := by
  have period := osDefineTime_toNat mseconds
  have elapsed : (first - lastTime).toNat = first.toNat - lastTime.toNat :=
    UInt64.toNat_sub_of_le _ _ before
  have order : first - lastTime ≤ osDefineTime mseconds := UInt64.not_lt.mp early
  have left : (osDefineTime mseconds - (first - lastTime)).toNat =
      mseconds.toNat * 1000 - (first.toNat - lastTime.toNat) := by
    rw [UInt64.toNat_sub_of_le _ _ order, period, elapsed]
  simp only [slept, osTaskDelayUntil, if_neg early, Option.map_some, Option.getD_some, osDelay,
    UInt32.toNat_mul, UInt64.toNat_toUInt32, UInt64.toNat_div, left, UInt64.reduceToNat,
    UInt32.reduceToNat]
  omega

theorem iterate_spec {mseconds : UInt32} {l next : Loop} {readings : UInt64 × UInt64}
    (short : mseconds.toNat ≤ 4294967) (past : l.lastTime ≤ l.now)
    (stepped : iterate mseconds l readings = some next) :
    next.lastTime ≤ next.now ∧
      l.lastTime.toNat + mseconds.toNat * 1000 + overrun mseconds l readings ≤
        next.lastTime.toNat + 999 ∧
      next.lastTime.toNat ≤
        l.lastTime.toNat + mseconds.toNat * 1000 + overrun mseconds l readings := by
  obtain ⟨first, second⟩ := readings
  simp only [iterate] at stepped
  split at stepped
  case isFalse => cases stepped
  case isTrue possible =>
    obtain ⟨later, asleep⟩ := possible
    cases stepped
    have before : l.lastTime ≤ first := UInt64.le_trans past later
    have elapsed : (first - l.lastTime).toNat = first.toNat - l.lastTime.toNat :=
      UInt64.toNat_sub_of_le _ _ before
    have period := osDefineTime_toNat mseconds
    have order := UInt64.le_iff_toNat_le.mp before
    simp only [overrun]
    by_cases late : osDefineTime mseconds < first - l.lastTime
    · have reaches := UInt64.lt_iff_toNat_lt.mp late
      have none_ : slept (osTaskDelayUntil l.lastTime mseconds first second) = 0 := by
        simp [slept, osTaskDelayUntil, late]
      rw [none_] at asleep ⊢
      have excess : (first - l.lastTime - osDefineTime mseconds).toNat =
          first.toNat - l.lastTime.toNat - mseconds.toNat * 1000 := by
        rw [UInt64.toNat_sub_of_le _ _ (UInt64.le_of_lt late), elapsed, period]
      have fits : first - l.lastTime - osDefineTime mseconds ≤ second := by
        rw [UInt64.le_iff_toNat_le, excess]
        omega
      have tag : (osTaskDelayUntil l.lastTime mseconds first second).1.toNat =
          second.toNat - (first.toNat - l.lastTime.toNat - mseconds.toNat * 1000) := by
        simp only [osTaskDelayUntil, if_pos late]
        rw [UInt64.toNat_sub_of_le _ _ fits, excess]
      refine ⟨?_, ?_, ?_⟩
      · rw [UInt64.le_iff_toNat_le, tag]
        omega
      · rw [tag]
        omega
      · rw [tag]
        omega
    · have tag : (osTaskDelayUntil l.lastTime mseconds first second).1 = second := by
        simp only [osTaskDelayUntil, if_neg late]
      have inTime := Nat.le_of_not_lt (fun reaches => late (UInt64.lt_iff_toNat_lt.mpr reaches))
      have time := slept_some second short before late
      rw [time] at asleep ⊢
      rw [tag]
      refine ⟨UInt64.le_refl _, ?_, ?_⟩ <;> omega

/-- A periodic task in the long run. After `n` iterations its tag lies `n`
    periods and the overruns later, less 999 microseconds a period at most; so an
    iteration that is late is made up for by the ones that follow, and none runs
    before its time by more than that. -/
theorem periodic_task_paced {mseconds : UInt32} (short : mseconds.toNat ≤ 4294967)
    {l last : Loop} (past : l.lastTime ≤ l.now) {readings : List (UInt64 × UInt64)}
    (ran : run (iterate mseconds) l readings = some last) :
    last.lastTime ≤ last.now ∧
      l.lastTime.toNat + readings.length * (mseconds.toNat * 1000) + overruns mseconds l readings ≤
        last.lastTime.toNat + readings.length * 999 ∧
      last.lastTime.toNat ≤
        l.lastTime.toNat + readings.length * (mseconds.toNat * 1000) +
          overruns mseconds l readings := by
  induction readings generalizing l with
  | nil =>
    cases ran
    simp [overruns, past]
  | cons reading rest ih =>
    obtain ⟨next, stepped, later⟩ := Option.bind_eq_some_iff.mp ran
    obtain ⟨now, low, high⟩ := iterate_spec short past stepped
    obtain ⟨now', low', high'⟩ := ih now later
    refine ⟨now', ?_, ?_⟩ <;>
      · simp only [overruns, stepped, Option.map_some, Option.getD_some, List.length_cons,
          Nat.succ_mul]
        omega

theorem late_iteration_paced :
    ∃ last, run (iterate 1000) ⟨0, 0⟩ [(1500000, 1500003), (1600000, 2000010)] = some last ∧
      0 + 2 * (1000 * 1000) + overruns 1000 ⟨0, 0⟩ [(1500000, 1500003), (1600000, 2000010)] ≤
        last.lastTime.toNat + 2 * 999 := by
  obtain ⟨last, ran⟩ : ∃ last,
      run (iterate 1000) ⟨0, 0⟩ [(1500000, 1500003), (1600000, 2000010)] = some last := ⟨_, rfl⟩
  exact ⟨last, ran, (periodic_task_paced (by decide) (UInt64.le_refl _) ran).2.1⟩

end TaskTiming
