import SuchaiFlight.StatusVariables
import SuchaiFlight.FlightPlanCalls
import SuchaiFlight.RamSamples
import SuchaiFlight.Library.Runs

/-!
`taskWatchdog` counts in `dat_obc_sw_wdt`, which `drp_clear_gnd_wdt` sets to 0
from the executer. The task reads the counter, writes it and compares it in
three steps, and a clear may fall between any two of them.
-/
namespace WatchdogTask
open StorageApi RepoData StatusVariables Runs

structure WatchdogConfig (c : Config) where
  datObcSwWdt : Nat
  schMaxWdtTimer : UInt32
  schMaxGndWdtTimer : UInt32
  swWdt_lt : datObcSwWdt < c.datStatusLastAddress

inductive Command where
  | obcResetWdt
  | obcReset
  deriving DecidableEq

/-- Where the task stands: asleep, or in a tick that has read the counter, or
    has written it, with `elapsed_sw_timer`. -/
inductive Phase where
  | asleep
  | read (elapsedSwTimer : UInt32)
  | written (elapsedSwTimer : UInt32)
  deriving DecidableEq

/-- `since` is kept for the statements only: the ticks that have begun since the
    last clear, when there was one. -/
structure System (σ : Type) where
  store : σ
  elapsedObcTimer : UInt32
  phase : Phase
  since : Option Nat

inductive Action where
  | tick
  | write
  | compare
  | clear
  deriving DecidableEq

variable {σ ρ : Type} {S : Storage σ} {c : Config} {w : WatchdogConfig c}

def swTimer (S : Storage σ) (w : WatchdogConfig c) (s : σ) : Option UInt32 :=
  (datGetSystemVar S c s w.datObcSwWdt).map Int32.toUInt32

/-- One step, with the commands that it sends. A tick begins with its read. -/
def step (S : Storage σ) (w : WatchdogConfig c) (sys : System σ) :
    Action → Option (System σ × List Command)
  | .tick =>
    match sys.phase with
    | .asleep => do
      let elapsedSwTimer ← swTimer S w sys.store
      return ({ sys with elapsedObcTimer := sys.elapsedObcTimer + 1
                         phase := .read (elapsedSwTimer + 1)
                         since := sys.since.map (· + 1) }, [])
    | _ => none
  | .write =>
    match sys.phase with
    | .read elapsedSwTimer => do
      let (_, s) ← datSetSystemVar S c sys.store w.datObcSwWdt elapsedSwTimer.toInt32
      return ({ sys with store := s, phase := .written elapsedSwTimer }, [])
    | _ => none
  | .compare =>
    match sys.phase with
    | .written elapsedSwTimer =>
      let resetObcWdt := w.schMaxWdtTimer < sys.elapsedObcTimer
      let elapsedObcTimer := if resetObcWdt then 0 else sys.elapsedObcTimer
      some ({ sys with elapsedObcTimer := elapsedObcTimer, phase := .asleep },
        (if resetObcWdt then [.obcResetWdt] else []) ++
          if w.schMaxGndWdtTimer < elapsedSwTimer then [.obcReset] else [])
    | _ => none
  | .clear => do
    let (_, s) ← datSetSystemVar S c sys.store w.datObcSwWdt 0
    return ({ sys with store := s, since := some 0 }, [])

def move (S : Storage σ) (w : WatchdogConfig c) (sys : System σ) (a : Action) : Option (System σ) :=
  (step S w sys a).map Prod.fst

/-- The counter is at most the number of ticks since the last clear. -/
def ClearHolds (S : Storage σ) (w : WatchdogConfig c) (sys : System σ) : Prop :=
  ∀ n, sys.since = some n → ∃ value, swTimer S w sys.store = some value ∧ value.toNat ≤ n

/-- `obc_reset` is only sent when more ticks than the limit have begun. -/
def ResetDue (S : Storage σ) (w : WatchdogConfig c) (sys : System σ) (a : Action) : Prop :=
  ∀ sys' sent, step S w sys a = some (sys', sent) → .obcReset ∈ sent →
    ∀ n, sys.since = some n → w.schMaxGndWdtTimer.toNat < n

def ClearsKept (S : Storage σ) (w : WatchdogConfig c) (sys : System σ) (actions : List Action) :
    Prop :=
  Throughout (move S w) (ClearHolds S w) sys actions ∧ Along (move S w) (ResetDue S w) sys actions

/-- A tick that a clear fell into, after its read, does not write the value it
    read, unless that wraps to 0, and is not over the limit. -/
def Undisturbed (w : WatchdogConfig c) (sys : System σ) (a : Action) : Prop :=
  sys.since = some 0 → (a = .write → ∀ elapsed, sys.phase = .read elapsed → elapsed = 0) ∧
    (a = .compare → ∀ elapsed, sys.phase = .written elapsed → elapsed ≤ w.schMaxGndWdtTimer)

def Phase.Within : Phase → Nat → Prop
  | .asleep, _ => True
  | .read elapsed, n => n = 0 ∨ elapsed.toNat ≤ n
  | .written elapsed, n => n = 0 ∨ elapsed.toNat ≤ n

variable {good : σ → Prop} {cell : σ → Nat → Option UInt32} {rest : σ → ρ}
  {put : σ → Nat → UInt32 → σ} {sys sys' : System σ} {actions : List Action}

/-! One step. -/

inductive Stepped (S : Storage σ) (w : WatchdogConfig c) (sys : System σ) :
    Action → System σ → List Command → Prop where
  | tick {value : UInt32} (asleep : sys.phase = .asleep)
      (read : swTimer S w sys.store = some value) :
      Stepped S w sys .tick { sys with
        elapsedObcTimer := sys.elapsedObcTimer + 1
        phase := .read (value + 1)
        since := sys.since.map (· + 1) } []
  | write {elapsed : UInt32} {rc : Int32} {s : σ} (reading : sys.phase = .read elapsed)
      (set : datSetSystemVar S c sys.store w.datObcSwWdt elapsed.toInt32 = some (rc, s)) :
      Stepped S w sys .write { sys with store := s, phase := .written elapsed } []
  | compare {elapsed : UInt32} (written : sys.phase = .written elapsed) :
      Stepped S w sys .compare
        { sys with
          elapsedObcTimer :=
            if w.schMaxWdtTimer < sys.elapsedObcTimer then 0 else sys.elapsedObcTimer
          phase := .asleep }
        ((if w.schMaxWdtTimer < sys.elapsedObcTimer then [.obcResetWdt] else []) ++
          if w.schMaxGndWdtTimer < elapsed then [.obcReset] else [])
  | clear {rc : Int32} {s : σ}
      (set : datSetSystemVar S c sys.store w.datObcSwWdt 0 = some (rc, s)) :
      Stepped S w sys .clear { sys with store := s, since := some 0 } []

theorem step_iff {a : Action} {sent : List Command} :
    step S w sys a = some (sys', sent) ↔ Stepped S w sys a sys' sent := by
  constructor
  · intro stepped
    cases a with
    | tick =>
      cases phase : sys.phase <;> simp only [step, phase] at stepped
      case asleep =>
        obtain ⟨value, read, result⟩ := Option.bind_eq_some_iff.mp stepped
        cases result
        exact .tick phase read
      all_goals cases stepped
    | write =>
      cases phase : sys.phase <;> simp only [step, phase] at stepped
      case read elapsed =>
        obtain ⟨⟨rc, s⟩, set, result⟩ := Option.bind_eq_some_iff.mp stepped
        cases result
        exact .write phase set
      all_goals cases stepped
    | compare =>
      cases phase : sys.phase <;> simp only [step, phase] at stepped
      case written elapsed =>
        cases stepped
        exact .compare phase
      all_goals cases stepped
    | clear =>
      obtain ⟨⟨rc, s⟩, set, result⟩ := Option.bind_eq_some_iff.mp stepped
      cases result
      exact .clear set
  · intro stepped
    cases stepped with
    | tick asleep read => simp [step, asleep, read]
    | write reading set => simp [step, reading, set]
    | compare written => simp [step, written]
    | clear set => simp [step, set]

theorem move_iff {a : Action} :
    move S w sys a = some sys' ↔ ∃ sent, Stepped S w sys a sys' sent := by
  rw [move, Option.map_eq_some_iff]
  constructor
  · intro ⟨⟨next, sent⟩, stepped, same⟩
    exact ⟨sent, same ▸ step_iff.mp stepped⟩
  · intro ⟨sent, stepped⟩
    exact ⟨(sys', sent), step_iff.mpr stepped, rfl⟩

theorem swTimer_eq (laws : StatusLaws S c good cell rest put) {s : σ} (ok : good s) :
    swTimer S w s = voted c (cell s) w.datObcSwWdt := by
  rw [swTimer, datGetSystemVar_eq laws ok w.swWdt_lt]
  cases voted c (cell s) w.datObcSwWdt <;> simp

theorem swTimer_written (w : WatchdogConfig c) (laws : StatusLaws S c good cell rest put) {s : σ}
    (ok : good s) (value : Int32) :
    ∃ s', datSetSystemVar S c s w.datObcSwWdt value = some (schStOk, s') ∧ good s' ∧
      swTimer S w s' = some value.toUInt32 := by
  obtain ⟨s', set, ok', -, vote⟩ := datSetSystemVar_spec laws ok w.swWdt_lt value
  exact ⟨s', set, ok', by rw [swTimer_eq laws ok', vote _ w.swWdt_lt, if_pos rfl]⟩

structure Kept (S : Storage σ) (good : σ → Prop) (w : WatchdogConfig c) (sys : System σ) : Prop where
  ok : good sys.store
  readable : (swTimer S w sys.store).isSome
  holds : ClearHolds S w sys
  within : ∀ n, sys.since = some n → sys.phase.Within n

theorem succ_toNat_le {value : UInt32} {n : Nat} (bound : value.toNat ≤ n) :
    (value + 1).toNat ≤ n + 1 := by
  rw [UInt32.toNat_add]
  have wraps := Nat.mod_le (value.toNat + (1 : UInt32).toNat) (2 ^ 32)
  have one : (1 : UInt32).toNat = 1 := rfl
  omega

theorem Kept.step (laws : StatusLaws S c good cell rest put) (kept : Kept S good w sys)
    {a : Action} (quiet : Undisturbed w sys a) (moved : move S w sys a = some sys') :
    Kept S good w sys' := by
  obtain ⟨sent, stepped⟩ := move_iff.mp moved
  cases stepped with
  | @tick value asleep read =>
    refine ⟨kept.ok, kept.readable, ?_, ?_⟩
    · intro n since
      obtain ⟨m, before, rfl⟩ := Option.map_eq_some_iff.mp since
      obtain ⟨value, read, below⟩ := kept.holds m before
      exact ⟨value, read, Nat.le_succ_of_le below⟩
    · intro n since
      obtain ⟨m, before, rfl⟩ := Option.map_eq_some_iff.mp since
      obtain ⟨value', read', below⟩ := kept.holds m before
      obtain rfl := Option.some.inj (read.symm.trans read')
      exact .inr (succ_toNat_le below)
  | @write elapsed rc s reading set =>
    obtain ⟨s', set', ok', stands⟩ := swTimer_written w laws kept.ok elapsed.toInt32
    obtain ⟨-, rfl⟩ := Prod.mk.inj (Option.some.inj (set.symm.trans set'))
    have within : ∀ n, sys.since = some n → n = 0 ∨ elapsed.toNat ≤ n := by
      intro n since
      have held := kept.within n since
      rwa [reading] at held
    refine ⟨ok', by rw [stands]; rfl, fun n since => ⟨_, stands, ?_⟩, within⟩
    rw [Int32.toUInt32, UInt32.toInt32]
    rcases within n since with rfl | below
    · -- a clear came after the read, so the value that is written has wrapped
      rw [(quiet since).1 rfl elapsed reading]
      exact Nat.le_refl 0
    · exact below
  | compare written => exact ⟨kept.ok, kept.readable, kept.holds, fun _ _ => trivial⟩
  | @clear rc s set =>
    obtain ⟨s', set', ok', stands⟩ := swTimer_written w laws kept.ok 0
    obtain ⟨-, rfl⟩ := Prod.mk.inj (Option.some.inj (set.symm.trans set'))
    refine ⟨ok', by rw [stands]; rfl, fun n _ => ⟨0, stands, Nat.zero_le n⟩, fun n since => ?_⟩
    obtain rfl := Option.some.inj since
    show sys.phase.Within 0
    cases sys.phase with
    | asleep => trivial
    | read elapsed => exact .inl rfl
    | written elapsed => exact .inl rfl

theorem Kept.resetDue (kept : Kept S good w sys) {a : Action} (quiet : Undisturbed w sys a) :
    ResetDue S w sys a := by
  intro sys' sent stepped mem n since
  cases step_iff.mp stepped with
  | tick asleep read => cases mem
  | write reading set => cases mem
  | clear set => cases mem
  | @compare elapsed written =>
    have beyond : w.schMaxGndWdtTimer < elapsed := by
      by_contra below
      rw [if_neg below, List.append_nil] at mem
      split at mem <;> simp at mem
    have within := kept.within n since
    rw [written] at within
    rcases within with rfl | below
    · exact absurd ((quiet since).2 rfl elapsed written) (UInt32.not_le.mpr beyond)
    · exact Nat.lt_of_lt_of_le (UInt32.lt_iff_toNat_lt.mp beyond) below

theorem Kept.undisturbed_iff (laws : StatusLaws S c good cell rest put) (kept : Kept S good w sys)
    (a : Action) :
    ((∀ sys', move S w sys a = some sys' → ClearHolds S w sys') ∧ ResetDue S w sys a) ↔
      Undisturbed w sys a := by
  constructor
  · intro ⟨holds, due⟩ since
    refine ⟨fun write elapsed reading => ?_, fun compare elapsed written => ?_⟩
    · subst write
      obtain ⟨s', set, -, stands⟩ := swTimer_written w laws kept.ok elapsed.toInt32
      obtain ⟨value, read, below⟩ := holds _ (move_iff.mpr ⟨_, .write reading set⟩) 0 since
      obtain rfl := Option.some.inj (stands.symm.trans read)
      exact UInt32.toNat_inj.mp (Nat.le_zero.mp below)
    · subst compare
      by_contra beyond
      have sent := due _ _ (step_iff.mpr (.compare written))
        (List.mem_append_right _ (by rw [if_pos (UInt32.not_le.mp beyond)]; simp)) 0 since
      exact absurd sent (Nat.not_lt_zero _)
  · intro quiet
    exact ⟨fun sys' moved => (kept.step laws quiet moved).holds, kept.resetDue quiet⟩

/-! Whole runs. -/

/-- Every interleaving from a start at which no clear was made yet. -/
theorem clears_kept_iff (laws : StatusLaws S c good cell rest put) (ok : good sys.store)
    (readable : (swTimer S w sys.store).isSome) (fresh : sys.since = none)
    (actions : List Action) :
    ClearsKept S w sys actions ↔ Along (move S w) (Undisturbed w) sys actions := by
  have never : ∀ n, sys.since ≠ some n := by simp [fresh]
  have start : Kept S good w sys :=
    ⟨ok, readable, fun n since => absurd since (never n), fun n since => absurd since (never n)⟩
  have same := along_iff (D := fun _ => True)
    (fun s a (held : Kept S good w s) _ => held.undisturbed_iff laws a)
    (fun s a t held _ next moved => held.step laws ((held.undisturbed_iff laws a).mp next) moved)
    start (fun a (_ : a ∈ actions) => trivial)
  rw [ClearsKept, throughout_iff_along, and_assoc, ← along_and, same]
  exact and_iff_right start.holds

theorem since_move {a : Action} (moved : move S w sys a = some sys') :
    sys'.since = match a with
      | .tick => sys.since.map (· + 1)
      | .clear => some 0
      | _ => sys.since := by
  obtain ⟨sent, stepped⟩ := move_iff.mp moved
  cases stepped <;> rfl

theorem undisturbed_of_ne {n : Option Nat} (since : sys.since = n) (other : n ≠ some 0)
    (a : Action) : Undisturbed w sys a := fun zero => absurd (since.symm.trans zero) other

section Ram
open RamStorage RamFlightPlan RamSamples FlightPlanCalls

def simpleWatchdog : WatchdogConfig simpleConfig where
  datObcSwWdt := 5
  schMaxWdtTimer := 60
  schMaxGndWdtTimer := 172800
  swWdt_lt := by decide

def started (s : RamStore) : System RamStore :=
  { store := s
    elapsedObcTimer := 0
    phase := .asleep
    since := none }

theorem boot_readable :
    ∃ s, RamStorage.datRepoInit simpleConfig 1 = some s ∧ (∃ status, Ready simpleConfig s status) ∧
      (swTimer (ramStorage simpleConfig) simpleWatchdog s).isSome := by
  obtain ⟨s, boot, -, status, ready, -⟩ := datRepoInit_fresh simpleConfig 1
  refine ⟨s, boot, ⟨status, ready⟩, ?_⟩
  rw [swTimer, datGetSystemVar_ready ready simpleWatchdog.swWdt_lt]
  rfl

theorem clear_before_tick_kept :
    ∃ s, RamStorage.datRepoInit simpleConfig 1 = some s ∧
      ClearsKept (ramStorage simpleConfig) simpleWatchdog (started s)
        [.clear, .tick, .write, .compare] := by
  obtain ⟨s, boot, ready, readable⟩ := boot_readable
  have stored : (swTimer (ramStorage simpleConfig) simpleWatchdog (started s).store).isSome :=
    readable
  refine ⟨s, boot, (clears_kept_iff (ram_status simpleConfig) ready stored rfl _).mpr ?_⟩
  refine along_cons.mpr ⟨fun _ => ⟨nofun, nofun⟩, fun t₁ clear => ?_⟩
  have since₁ : t₁.since = some 0 := since_move clear
  refine along_cons.mpr ⟨fun _ => ⟨nofun, nofun⟩, fun t₂ tick => ?_⟩
  have since₂ : t₂.since = some 1 := (since_move tick).trans (by rw [since₁]; rfl)
  refine along_cons.mpr ⟨undisturbed_of_ne since₂ (by decide) _, fun t₃ write => ?_⟩
  have since₃ : t₃.since = some 1 := (since_move write).trans since₂
  exact along_cons.mpr ⟨undisturbed_of_ne since₃ (by decide) _, fun t₄ _ => along_nil _ _⟩

theorem clear_inside_tick_lost :
    ∃ s, RamStorage.datRepoInit simpleConfig 1 = some s ∧
      ¬ ClearsKept (ramStorage simpleConfig) simpleWatchdog (started s)
        [.clear, .tick, .clear, .write] := by
  have laws := ram_status simpleConfig
  obtain ⟨s, boot, ready, -⟩ := boot_readable
  refine ⟨s, boot, fun kept => ?_⟩
  obtain ⟨s₁, clear₁, ok₁, zero⟩ := swTimer_written simpleWatchdog laws ready 0
  obtain ⟨s₂, clear₂, ok₂, -⟩ := swTimer_written simpleWatchdog laws ok₁ 0
  obtain ⟨s₃, write, ok₃, one⟩ := swTimer_written simpleWatchdog laws ok₂ 1
  have reached : run (move (ramStorage simpleConfig) simpleWatchdog) (started s)
      [.clear, .tick, .clear, .write] = some
        { store := s₃, elapsedObcTimer := 1, phase := .written 1, since := some 0 } := by
    simp [run, move, step, started, clear₁, zero, clear₂, write]
  obtain ⟨value, read, below⟩ := kept.1 _ [] _ (List.append_nil _).symm reached 0 rfl
  obtain rfl := Option.some.inj (one.symm.trans read)
  exact absurd below (by decide)

end Ram

end WatchdogTask
