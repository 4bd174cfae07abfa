import SuchaiFlight.StatusCommands
import SuchaiFlight.TornWrites

/-!
Hours and resets over a mission. `taskInit` counts a reset and clears the hours
since the last one, `taskHousekeeping` sends `drp_add_hrs_alive 1` each hour,
and the executer adds to both counters of hours. Power may be lost at any
moment, also within a write, and what is not in the storage is lost with it.
-/
namespace MissionCounters
open CStrings TextScan StorageApi RepoData RepoCommand StatusVariables FlightPlanCommands Runs
open SignedWord TornWrites

inductive Var where
  | hrsAlive
  | hrsWoReset
  | resetCounter
  | swWdt
  | rtcDateTime
  deriving DecidableEq

structure CounterVars (c : Config) where
  address : Var → Nat
  inside : ∀ v, address v < c.datStatusLastAddress
  distinct : ∀ v v', address v = address v' → v = v'

def drpAddHrsAliveFmt : List Directive := [.int]

/-- What `taskHousekeeping` sends: `obc_debug 0`, `obc_get_sensors`,
    `obc_update_status` and `drp_add_hrs_alive 1`. -/
inductive Command where
  | obcDebug
  | obcGetSensors
  | obcUpdateStatus
  | drpAddHrsAlive
  deriving DecidableEq

def housekeeping (debug : Bool) (elapsedSec : UInt32) : UInt32 × List Command :=
  let elapsedSec := elapsedSec + 1000 / 1000
  (elapsedSec, (if debug then [.obcDebug] else []) ++
    (if elapsedSec % 60 = 0 then [.obcGetSensors, .obcUpdateStatus] else []) ++
      if elapsedSec % (60 * 60) = 0 then [.drpAddHrsAlive] else [])

section Functions
variable {σ : Type} (S : Storage σ) (c : Config) (w : CounterVars c)

def value (s : σ) (v : Var) : Option Int32 := datGetSystemVar S c s (w.address v)

def setValue (s : σ) (v : Var) (x : Int32) : Option (Int32 × σ) :=
  datSetSystemVar S c s (w.address v) x

def initUpdateStatusVars (s : σ) : Option (Int32 × σ) := do
  let (rc₁, s) ← setValue S c w s .hrsWoReset 0
  let resets ← checkedAdd (← value S c w s .resetCounter) 1
  let (rc₂, s) ← setValue S c w s .resetCounter resets
  let (rc₃, s) ← setValue S c w s .swWdt 0
  return (0 + rc₁ + rc₂ + rc₃, s)

def drpUpdateHoursAlive (fmt : List Directive) (params : Option CString) (nparams : Nat) (s : σ) :
    Option (Int32 × σ) :=
  match params with
  | none => some (cmdSyntaxError, s)
  | some params =>
    let items := sscanf fmt params
    if assigned items = nparams then
      match items with
      | [.int added] => do
        let added ← intOf added
        let current ← checkedAdd (← value S c w s .hrsAlive) added
        let (rc₁, s) ← setValue S c w s .hrsAlive current
        let current ← checkedAdd (← value S c w s .hrsWoReset) added
        let (rc₂, s) ← setValue S c w s .hrsWoReset current
        return (if rc₁ + rc₂ = 0 then cmdOk else cmdError, s)
      | _ => none
    else some (cmdSyntaxError, s)

end Functions

/-! The same, statement by statement. -/

/-- `add` reads the variable and then writes it. -/
inductive Op where
  | set (v : Var) (x : Int32)
  | add (v : Var) (x : Int32)
  deriving DecidableEq

def bootJob : List Op := [.set .hrsWoReset 0, .add .resetCounter 1, .set .swWdt 0]

def hoursJob : List Op := [.add .hrsAlive 1, .add .hrsWoReset 1]

def runJob {σ : Type} (S : Storage σ) (c : Config) (w : CounterVars c) :
    Int32 → σ → List Op → Option (Int32 × σ)
  | rc, s, [] => some (rc, s)
  | rc, s, .set v x :: job => do
    let (rc', s) ← setValue S c w s v x
    runJob S c w (rc + rc') s job
  | rc, s, .add v x :: job => do
    let sum ← checkedAdd (← value S c w s v) x
    let (rc', s) ← setValue S c w s v sum
    runJob S c w (rc + rc') s job

theorem initUpdateStatusVars_job {σ : Type} (S : Storage σ) (c : Config) (w : CounterVars c)
    (s : σ) : initUpdateStatusVars S c w s = runJob S c w 0 s bootJob := rfl

def oneText : CString := ⟨[49], by decide⟩

theorem oneText_scan : sscanf drpAddHrsAliveFmt oneText = [.int 1] := by decide

theorem drpUpdateHoursAlive_job {σ : Type} (S : Storage σ) (c : Config) (w : CounterVars c)
    (s : σ) : drpUpdateHoursAlive S c w drpAddHrsAliveFmt (some oneText) 1 s =
      (runJob S c w 0 s hoursJob).map fun r => (if r.1 = 0 then cmdOk else cmdError, r.2) := by
  have one : intOf 1 = some 1 := by decide
  simp only [drpUpdateHoursAlive, oneText_scan, assigned, List.filter_cons_of_pos,
    List.filter_nil, List.length_singleton, ↓reduceIte, one, hoursJob, runJob, Option.bind_eq_bind,
    Option.bind_some, Int32.zero_add]
  cases value S c w s .hrsAlive with
  | none => rfl
  | some alive =>
    simp only [Option.bind_some]
    cases checkedAdd alive 1 with
    | none => rfl
    | some alive =>
      simp only [Option.bind_some]
      cases setValue S c w s .hrsAlive alive with
      | none => rfl
      | some first =>
        simp only [Option.bind_some]
        cases value S c w first.2 .hrsWoReset with
        | none => rfl
        | some hours =>
          simp only [Option.bind_some]
          cases checkedAdd hours 1 with
          | none => rfl
          | some hours =>
            simp only [Option.bind_some]
            cases setValue S c w first.2 .hrsWoReset hours <;> rfl

/-! The system. -/

/-- `job` is what is left of the statements of `init_update_status_vars` or of
    `drp_update_hours_alive`, `current` what the first of them has read, and
    `pending` the hours that are sent and not yet executed. `ticks` to `dropped`
    are kept for the statements only: the ticks since the last boot and before it,
    the losses of power, the boots that have counted themselves, and the hours
    that were not added before a loss of power. -/
structure System (σ : Type) where
  store : σ
  up : Bool
  job : List Op
  current : Option Int32
  elapsedSec : UInt32
  pending : Nat
  ticks : Nat
  earlier : Nat
  restarts : Nat
  counted : Nat
  dropped : Nat

/-- `work` makes the next read or write of the job, `begin` starts on a pending
    hour, `other` writes some of the copies of any other variable, and `powerLoss`
    comes when some of the copies of the write that is due have been written. -/
inductive Action where
  | work
  | begin
  | tick (debug : Bool) (time : Int32)
  | other (index : Nat) (x : UInt32) (copies : Nat)
  | powerLoss (copies : Nat)

def owed (job : List Op) (v : Var) : Nat := job.count (.add v 1)

@[simp] theorem owed_nil (v : Var) : owed [] v = 0 := rfl

@[simp] theorem owed_set (u v : Var) (x : Int32) (job : List Op) :
    owed (.set u x :: job) v = owed job v := by
  simp [owed]

@[simp] theorem owed_add (u v : Var) (job : List Op) :
    owed (.add u 1 :: job) v = owed job v + if u = v then 1 else 0 := by
  simp [owed, List.count_cons]

section Steps
variable {σ : Type} (S : Storage σ) (c : Config) (w : CounterVars c) (reboot : σ → σ)

def finished (sys : System σ) (s : σ) (job : List Op) : System σ :=
  { sys with store := s, job := job, current := none, up := sys.up || job.isEmpty }

def work (sys : System σ) : Option (System σ) :=
  match sys.job, sys.current with
  | .set v x :: job, none => do
    let (_, s) ← setValue S c w sys.store v x
    return finished sys s job
  | .add v _ :: _, none => do
    let current ← value S c w sys.store v
    return { sys with current := some current }
  | .add v x :: job, some current => do
    let sum ← checkedAdd current x
    let (_, s) ← setValue S c w sys.store v sum
    return { finished sys s job with
      counted := sys.counted + if v = .resetCounter then 1 else 0 }
  | _, _ => none

def due (sys : System σ) : Option (Var × Int32) :=
  match sys.job, sys.current with
  | .set v x :: _, none => some (v, x)
  | .add v x :: _, some current => (checkedAdd current x).map fun sum => (v, sum)
  | _, _ => none

def isCounter (index : Nat) : Bool :=
  [Var.hrsAlive, .hrsWoReset, .resetCounter].any fun v => w.address v = index

def restarted (sys : System σ) (s : σ) : System σ where
  store := reboot s
  up := false
  job := bootJob
  current := none
  elapsedSec := 1
  pending := 0
  ticks := 0
  earlier := sys.earlier + sys.ticks
  restarts := sys.restarts + 1
  counted := sys.counted
  dropped := sys.dropped + sys.pending + owed sys.job .hrsAlive

def step (sys : System σ) : Action → Option (System σ)
  | .work => work S c w sys
  | .begin =>
    if sys.up = true ∧ sys.job = [] ∧ 0 < sys.pending then
      some { sys with job := hoursJob, pending := sys.pending - 1 }
    else none
  | .tick debug time =>
    if sys.up then do
      let (elapsedSec, sent) := housekeeping debug sys.elapsedSec
      let (_, s) ← setValue S c w sys.store .rtcDateTime time
      return { sys with
        store := s, elapsedSec := elapsedSec, ticks := sys.ticks + 1
        pending := sys.pending + sent.count .drpAddHrsAlive }
    else none
  | .other index x copies =>
    if index < c.datStatusLastAddress ∧ isCounter c w index = false then do
      let s ← cutStatusVar S c sys.store index x copies
      return { sys with store := s }
    else none
  | .powerLoss copies =>
    match due sys with
    | some (v, x) => do
      let s ← cutStatusVar S c sys.store (w.address v) x.toUInt32 copies
      return restarted reboot sys s
    | none => some (restarted reboot sys sys.store)

def firstBoot (s : σ) : System σ where
  store := s
  up := false
  job := bootJob
  current := none
  elapsedSec := 1
  pending := 0
  ticks := 0
  earlier := 0
  restarts := 0
  counted := 0
  dropped := 0

end Steps

/-! What the storage does. -/

section Laws
variable {σ ρ : Type} {S : Storage σ} {c : Config} {good : σ → Prop}
  {cell : σ → Nat → Option UInt32} {rest : σ → ρ} {put : σ → Nat → UInt32 → σ}
  {w : CounterVars c} {s : σ}

structure Persistent (good : σ → Prop) (cell : σ → Nat → Option UInt32) (reboot : σ → σ) :
    Prop where
  good_reboot : ∀ s, good s → good (reboot s)
  cell_reboot : ∀ s, good s → cell (reboot s) = cell s

theorem value_eq (laws : StatusLaws S c good cell rest put) (ok : good s) (v : Var) :
    value S c w s v = (voted c (cell s) (w.address v)).map UInt32.toInt32 :=
  datGetSystemVar_eq laws ok (w.inside v)

theorem setValue_spec (laws : StatusLaws S c good cell rest put) (w : CounterVars c) (ok : good s)
    (v : Var) (x : Int32) : ∃ s', setValue S c w s v x = some (schStOk, s') ∧ good s' ∧
      value S c w s' v = some x ∧ ∀ v' ≠ v, value S c w s' v' = value S c w s v' := by
  obtain ⟨s', set, ok', -, vote⟩ := datSetSystemVar_spec laws ok (w.inside v) x
  refine ⟨s', set, ok', ?_, fun v' ne => ?_⟩
  · rw [value_eq laws ok', vote _ (w.inside v), if_pos rfl]
    simp
  · have apart : w.address v' ≠ w.address v := fun same => ne (w.distinct _ _ same)
    rw [value_eq laws ok', value_eq laws ok, vote _ (w.inside v'), if_neg apart]

theorem cut_value (laws : StatusLaws S c good cell rest put) (w : CounterVars c) (ok : good s)
    (v : Var) (x : Int32) (copies : Nat) :
    ∃ s', cutStatusVar S c s (w.address v) x.toUInt32 copies = some s' ∧ good s' ∧
      (∀ q, value S c w s v = some q →
        value S c w s' v = some q ∨ value S c w s' v = some x) ∧
      ∀ v' ≠ v, value S c w s' v' = value S c w s v' := by
  obtain ⟨s', cut, ok', -, either, others⟩ :=
    cutStatusVar_spec laws ok (w.inside v) x.toUInt32 copies
  refine ⟨s', cut, ok', fun q read => ?_, fun v' ne => ?_⟩
  · rw [value_eq laws ok] at read
    obtain ⟨old, voted_old, rfl⟩ := Option.map_eq_some_iff.mp read
    rw [value_eq laws ok']
    rcases either old voted_old with same | new
    · exact .inl (by rw [same]; rfl)
    · exact .inr (by rw [new]; simp)
  · have apart : w.address v' ≠ w.address v := fun same => ne (w.distinct _ _ same)
    rw [value_eq laws ok', value_eq laws ok, others _ (w.inside v') apart]

theorem other_value (laws : StatusLaws S c good cell rest put) (w : CounterVars c) (ok : good s)
    {index : Nat} (inside : index < c.datStatusLastAddress)
    (other : isCounter c w index = false) (x : UInt32) (copies : Nat) :
    ∃ s', cutStatusVar S c s index x copies = some s' ∧ good s' ∧
      ∀ v, v = .hrsAlive ∨ v = .hrsWoReset ∨ v = .resetCounter →
        value S c w s' v = value S c w s v := by
  obtain ⟨s', cut, ok', -, -, others⟩ := cutStatusVar_spec laws ok inside x copies
  refine ⟨s', cut, ok', fun v counter => ?_⟩
  have apart : w.address v ≠ index := by
    simp only [isCounter, List.any_cons, List.any_nil, Bool.or_false, Bool.or_eq_false_iff,
      decide_eq_false_iff_not] at other
    rcases counter with rfl | rfl | rfl
    · exact other.1
    · exact other.2.1
    · exact other.2.2
  rw [value_eq laws ok', value_eq laws ok, others _ (w.inside v) apart]

theorem reboot_value {reboot : σ → σ} (laws : StatusLaws S c good cell rest put)
    (persistent : Persistent good cell reboot) (w : CounterVars c) (ok : good s) (v : Var) :
    value S c w (reboot s) v = value S c w s v := by
  rw [value_eq laws (persistent.good_reboot s ok), value_eq laws ok, persistent.cell_reboot s ok]

end Laws

/-! What holds in every state. -/

/-- The hours that are added, those without a reset, the resets, and the hours
    that were lost or were sent before the last boot. -/
structure Sums where
  hours : Nat
  woReset : Nat
  resets : Nat
  lost : Nat
  before : Nat

def Stage {σ : Type} (sys : System σ) : Prop :=
  sys.up = false ∧ sys.ticks = 0 ∧ sys.pending = 0 ∧
      (sys.job = bootJob ∨ sys.job = [.add .resetCounter 1, .set .swWdt 0] ∨
        sys.job = [.set .swWdt 0]) ∨
    sys.up = true ∧
      (sys.job = [] ∨ sys.job = hoursJob ∨ sys.job = [.add .hrsWoReset 1])

/-- The hours of a session of `ticks` seconds: the counter of seconds starts at 1. -/
def sent (ticks : Nat) : Nat := (ticks + 1) / 3600

structure Account {σ : Type} (sys : System σ) (n : Sums) : Prop where
  stage : Stage sys
  clock : sys.elapsedSec = UInt32.ofNat (sys.ticks + 1)
  hours : n.hours + n.lost + sys.pending + owed sys.job .hrsAlive = n.before + sent sys.ticks
  session : sys.job ≠ bootJob →
    n.woReset + sys.pending + owed sys.job .hrsWoReset = sent sys.ticks
  lost_le : n.lost ≤ sys.dropped
  before_le : 3600 * n.before ≤ sys.earlier + sys.restarts
  before_ge : sys.earlier + sys.restarts ≤ 3600 * n.before + 3599 * sys.restarts
  counted_le : sys.counted ≤ n.resets
  resets_le : n.resets + owed sys.job .resetCounter ≤ sys.restarts + 1

section Invariant
variable {σ ρ : Type} {S : Storage σ} {c : Config} {good : σ → Prop}
  {cell : σ → Nat → Option UInt32} {rest : σ → ρ} {put : σ → Nat → UInt32 → σ}
  {w : CounterVars c} {reboot : σ → σ} {sys sys' : System σ} {n : Sums} {alive₀ resets₀ : Nat}

structure Stored (S : Storage σ) (c : Config) (w : CounterVars c) (good : σ → Prop)
    (alive₀ resets₀ : Nat) (sys : System σ) (n : Sums) : Prop where
  ok : good sys.store
  hrsAlive : value S c w sys.store .hrsAlive = some (Int32.ofNat (alive₀ + n.hours))
  hrsWoReset : ∃ q, value S c w sys.store .hrsWoReset = some q ∧
    (sys.job ≠ bootJob → q = Int32.ofNat n.woReset)
  resetCounter : value S c w sys.store .resetCounter = some (Int32.ofNat (resets₀ + n.resets))
  read : ∀ q, sys.current = some q →
    ∃ v x job, sys.job = .add v x :: job ∧ value S c w sys.store v = some q

def Books (S : Storage σ) (c : Config) (w : CounterVars c) (good : σ → Prop)
    (alive₀ resets₀ : Nat) (sys : System σ) : Prop :=
  ∃ n, Stored S c w good alive₀ resets₀ sys n ∧ Account sys n

/-- The mission is short enough for the counters: the seconds of the session fit
    32 bits, and the resets and the hours an `int`, with those from before. -/
def Within {σ : Type} (alive₀ resets₀ : Nat) (sys : System σ) : Prop :=
  sys.ticks + 1 < 4294967296 ∧ resets₀ + sys.restarts + 1 < 2147483648 ∧
    alive₀ + (sys.earlier + sys.ticks + sys.restarts + 1) / 3600 < 2147483648

theorem sent_zero : sent 0 = 0 := rfl

theorem Stage.add {v : Var} {x : Int32} {job : List Op} (stage : Stage sys)
    (shape : sys.job = .add v x :: job) :
    x = 1 ∧ (v = .hrsAlive ∨ v = .hrsWoReset ∨ v = .resetCounter) := by
  rcases stage with ⟨-, -, -, boot | boot | boot⟩ | ⟨-, hours | hours | hours⟩ <;>
    simp_all [bootJob, hoursJob]

theorem Stored.keep (stored : Stored S c w good alive₀ resets₀ sys n) (stage : Stage sys)
    (job : sys'.job = sys.job) (current : sys'.current = sys.current) (ok : good sys'.store)
    (same : ∀ v, v = .hrsAlive ∨ v = .hrsWoReset ∨ v = .resetCounter →
      value S c w sys'.store v = value S c w sys.store v) :
    Stored S c w good alive₀ resets₀ sys' n where
  ok := ok
  hrsAlive := (same _ (.inl rfl)).trans stored.hrsAlive
  hrsWoReset := by
    rw [same _ (.inr (.inl rfl)), job]
    exact stored.hrsWoReset
  resetCounter := (same _ (.inr (.inr rfl))).trans stored.resetCounter
  read := by
    intro q held
    obtain ⟨v, x, more, shape, read⟩ := stored.read q (current ▸ held)
    exact ⟨v, x, more, job.trans shape, (same v (stage.add shape).2).trans read⟩

theorem Stored.write (stored : Stored S c w good alive₀ resets₀ sys n) {n' : Sums} {v : Var}
    {x : Int32} (ok : good sys'.store) (current : sys'.current = none)
    (new : value S c w sys'.store v = some x)
    (others : ∀ v' ≠ v, value S c w sys'.store v' = value S c w sys.store v')
    (alive : if v = .hrsAlive then x = Int32.ofNat (alive₀ + n'.hours) else n'.hours = n.hours)
    (hours : sys'.job ≠ bootJob → if v = .hrsWoReset then x = Int32.ofNat n'.woReset
      else sys.job ≠ bootJob ∧ n'.woReset = n.woReset)
    (resets : if v = .resetCounter then x = Int32.ofNat (resets₀ + n'.resets)
      else n'.resets = n.resets) : Stored S c w good alive₀ resets₀ sys' n' where
  ok := ok
  hrsAlive := by
    by_cases here : v = .hrsAlive
    · subst here
      rw [if_pos rfl] at alive
      rw [new, alive]
    · rw [if_neg here] at alive
      rw [others _ fun same => here same.symm, alive]
      exact stored.hrsAlive
  hrsWoReset := by
    by_cases here : v = .hrsWoReset
    · subst here
      exact ⟨x, new, fun running => by simpa using hours running⟩
    · obtain ⟨q, read, known⟩ := stored.hrsWoReset
      rw [others _ fun same => here same.symm]
      refine ⟨q, read, fun running => ?_⟩
      obtain ⟨ran, same⟩ : sys.job ≠ bootJob ∧ n'.woReset = n.woReset := by
        simpa [here] using hours running
      rw [known ran, same]
  resetCounter := by
    by_cases here : v = .resetCounter
    · subst here
      rw [if_pos rfl] at resets
      rw [new, resets]
    · rw [if_neg here] at resets
      rw [others _ fun same => here same.symm, resets]
      exact stored.resetCounter
  read := by
    intro q held
    rw [current] at held
    cases held

theorem due_cases (stored : Stored S c w good alive₀ resets₀ sys n) (stage : Stage sys) {v : Var}
    {x : Int32} (next : due sys = some (v, x)) :
    v = .hrsAlive ∧ x = Int32.ofNat (alive₀ + (n.hours + 1)) ∧ sys.job = hoursJob ∨
      v = .hrsWoReset ∧ (sys.job = bootJob ∧ x = 0 ∨
        sys.job = [.add .hrsWoReset 1] ∧ x = Int32.ofNat (n.woReset + 1)) ∨
      v = .resetCounter ∧ x = Int32.ofNat (resets₀ + (n.resets + 1)) ∧
        sys.job = [.add .resetCounter 1, .set .swWdt 0] ∨
      v = .swWdt ∧ sys.job = [.set .swWdt 0] := by
  have added : ∀ {u y job q}, sys.job = .add u y :: job → sys.current = some q →
      (u = v ∧ q + 1 = x) ∧ value S c w sys.store u = some q := by
    intro u y job q shape current
    obtain ⟨v', x', job', shape', read⟩ := stored.read q current
    obtain ⟨rfl, -⟩ := stage.add shape
    rw [shape] at shape'
    cases shape'
    simp only [due, shape, current, Option.map_eq_some_iff] at next
    obtain ⟨sum, fits, same⟩ := next
    cases same
    exact ⟨⟨rfl, checkedAdd_eq_some fits⟩, read⟩
  cases current : sys.current with
  | none =>
    rcases stage with ⟨-, -, -, boot | boot | boot⟩ | ⟨-, hours | hours | hours⟩ <;>
      simp_all [due, bootJob, hoursJob]
  | some q =>
    obtain ⟨u, y, job, shape, -⟩ := stored.read q current
    obtain ⟨⟨rfl, rfl⟩, read⟩ := added shape current
    rcases stage with ⟨-, -, -, boot | boot | boot⟩ | ⟨-, hours | hours | hours⟩
    · simp [boot, bootJob] at shape
    · right; right; left
      obtain rfl : Var.resetCounter = u := by
        rw [boot] at shape
        cases shape
        rfl
      obtain rfl := Option.some.inj (stored.resetCounter.symm.trans read)
      exact ⟨rfl, by rw [ofNat_add_one, Nat.add_assoc], boot⟩
    · simp [boot] at shape
    · simp [hours] at shape
    · left
      obtain rfl : Var.hrsAlive = u := by
        rw [hours, hoursJob] at shape
        cases shape
        rfl
      obtain rfl := Option.some.inj (stored.hrsAlive.symm.trans read)
      exact ⟨rfl, by rw [ofNat_add_one, Nat.add_assoc], hours⟩
    · right; left
      obtain rfl : Var.hrsWoReset = u := by
        rw [hours] at shape
        cases shape
        rfl
      obtain ⟨q', read', known⟩ := stored.hrsWoReset
      obtain rfl := Option.some.inj (read'.symm.trans read)
      have same := known (by simp [hours, bootJob])
      exact ⟨rfl, .inr ⟨hours, by rw [same, ofNat_add_one]⟩⟩

theorem begin_books (books : Books S c w good alive₀ resets₀ sys) (idle : sys.job = [])
    (waiting : 0 < sys.pending) :
    Books S c w good alive₀ resets₀
      { sys with job := hoursJob, pending := sys.pending - 1 } := by
  obtain ⟨n, stored, account⟩ := books
  have up : sys.up = true := by
    rcases account.stage with ⟨-, -, -, shape⟩ | ⟨up, -⟩
    · simp [idle, bootJob] at shape
    · exact up
  have hours := account.hours
  have session := account.session (by simp [idle, bootJob])
  have resets := account.resets_le
  have added : owed hoursJob .hrsAlive = 1 ∧ owed hoursJob .hrsWoReset = 1 ∧
      owed hoursJob .resetCounter = 0 := by decide
  rw [idle, owed, List.count_nil] at hours session resets
  refine ⟨n, ⟨stored.ok, stored.hrsAlive, ?_, stored.resetCounter, ?_⟩, ?_⟩
  · obtain ⟨q, read, same⟩ := stored.hrsWoReset
    exact ⟨q, read, fun _ => same (by simp [idle, bootJob])⟩
  · intro q current
    obtain ⟨v, x, job, shape, -⟩ := stored.read q current
    rw [idle] at shape
    cases shape
  · refine { account with
      stage := .inr ⟨up, .inr (.inl rfl)⟩, hours := ?_, session := fun _ => ?_, resets_le := ?_ }
    all_goals
      dsimp only
      omega

theorem other_books (laws : StatusLaws S c good cell rest put)
    (books : Books S c w good alive₀ resets₀ sys) {index : Nat}
    (inside : index < c.datStatusLastAddress) (other : isCounter c w index = false) (x : UInt32)
    (copies : Nat) : ∃ s, cutStatusVar S c sys.store index x copies = some s ∧
      Books S c w good alive₀ resets₀ { sys with store := s } := by
  obtain ⟨n, stored, account⟩ := books
  obtain ⟨s, cut, ok, same⟩ := other_value laws w stored.ok inside other x copies
  exact ⟨s, cut, n, stored.keep account.stage rfl rfl ok same, { account with }⟩

theorem housekeeping_sent (debug : Bool) {ticks : Nat} (short : ticks + 2 < 4294967296) :
    (housekeeping debug (UInt32.ofNat (ticks + 1))).1 = UInt32.ofNat (ticks + 1 + 1) ∧
      sent ticks + (housekeeping debug (UInt32.ofNat (ticks + 1))).2.count .drpAddHrsAlive =
        sent (ticks + 1) := by
  have next : UInt32.ofNat (ticks + 1) + 1000 / 1000 = UInt32.ofNat (ticks + 1 + 1) := by
    rw [UInt32.ofNat_add (ticks + 1) 1]
    rfl
  have full : UInt32.ofNat (ticks + 1 + 1) % (60 * 60) = 0 ↔ (ticks + 2) % 3600 = 0 := by
    rw [← UInt32.toNat_inj, UInt32.toNat_mod, UInt32.toNat_ofNat', Nat.mod_eq_of_lt short]
    rfl
  have others : (if debug then [Command.obcDebug] else []).count .drpAddHrsAlive = 0 ∧
      (if UInt32.ofNat (ticks + 1 + 1) % 60 = 0 then [Command.obcGetSensors, .obcUpdateStatus]
        else []).count .drpAddHrsAlive = 0 := by
    constructor <;> split <;> decide
  simp only [housekeeping, next, List.count_append, others, Nat.zero_add, true_and, full, sent]
  split
  · simp only [List.count_cons_self, List.count_nil]
    omega
  · simp only [List.count_nil]
    omega

theorem tick_books (laws : StatusLaws S c good cell rest put)
    (books : Books S c w good alive₀ resets₀ sys) (up : sys.up = true)
    (short : sys.ticks + 2 < 4294967296) (debug : Bool) (time : Int32) :
    ∃ rc s, setValue S c w sys.store .rtcDateTime time = some (rc, s) ∧
      Books S c w good alive₀ resets₀ { sys with
        store := s, elapsedSec := (housekeeping debug sys.elapsedSec).1, ticks := sys.ticks + 1
        pending := sys.pending + (housekeeping debug sys.elapsedSec).2.count .drpAddHrsAlive } := by
  obtain ⟨n, stored, account⟩ := books
  obtain ⟨s, set, ok, -, others⟩ := setValue_spec laws w stored.ok .rtcDateTime time
  obtain ⟨clock, more⟩ := housekeeping_sent debug short
  rw [← account.clock] at clock more
  have stage : sys.up = true ∧
      (sys.job = [] ∨ sys.job = hoursJob ∨ sys.job = [.add .hrsWoReset 1]) := by
    rcases account.stage with ⟨down, -⟩ | running
    · rw [down] at up
      cases up
    · exact running
  have hours := account.hours
  refine ⟨_, s, set, n, stored.keep account.stage rfl rfl ok ?_,
    { account with stage := .inr stage, clock := clock, hours := ?_, session := fun running => ?_ }⟩
  · rintro v (rfl | rfl | rfl) <;> exact others _ nofun
  · dsimp only
    omega
  · have session := account.session running
    dsimp only
    omega

def Sums.restarted (n : Sums) (sys : System σ) (hour reset : Nat) : Sums where
  hours := n.hours + hour
  woReset := 0
  resets := n.resets + reset
  lost := n.lost + sys.pending + owed sys.job .hrsAlive - hour
  before := n.before + sent sys.ticks

theorem owed_boot : owed bootJob .hrsAlive = 0 ∧ owed bootJob .hrsWoReset = 0 ∧
    owed bootJob .resetCounter = 1 := by decide

theorem restarted_account (account : Account sys n) (s : σ) {hour reset : Nat}
    (hours_le : hour ≤ owed sys.job .hrsAlive) (resets_le : reset ≤ owed sys.job .resetCounter) :
    Account (restarted reboot sys s) (n.restarted sys hour reset) := by
  obtain ⟨none, -, one⟩ := owed_boot
  have hours := account.hours
  have lost_le := account.lost_le
  have before_le := account.before_le
  have before_ge := account.before_ge
  have counted_le := account.counted_le
  have resets := account.resets_le
  have here : 3600 * sent sys.ticks ≤ sys.ticks + 1 ∧
      sys.ticks + 1 ≤ 3600 * sent sys.ticks + 3599 := by
    unfold sent
    omega
  unfold Sums.restarted
  constructor
  · exact .inl ⟨rfl, rfl, rfl, .inl rfl⟩
  · rfl
  · simp only [restarted, none, sent_zero]
    omega
  · intro running
    exact absurd rfl running
  · simp only [restarted]
    omega
  · simp only [restarted]
    omega
  · simp only [restarted]
    omega
  · simp only [restarted]
    omega
  · simp only [restarted, one]
    omega

theorem restarted_stored (laws : StatusLaws S c good cell rest put)
    (persistent : Persistent good cell reboot) {s : σ} (ok : good s) {hour reset : Nat}
    (alive : value S c w s .hrsAlive = some (Int32.ofNat (alive₀ + (n.hours + hour))))
    (hours : ∃ q, value S c w s .hrsWoReset = some q)
    (resets : value S c w s .resetCounter = some (Int32.ofNat (resets₀ + (n.resets + reset)))) :
    Stored S c w good alive₀ resets₀ (restarted reboot sys s) (n.restarted sys hour reset) where
  ok := persistent.good_reboot s ok
  hrsAlive := (reboot_value laws persistent w ok _).trans alive
  hrsWoReset := by
    obtain ⟨q, read⟩ := hours
    exact ⟨q, (reboot_value laws persistent w ok _).trans read, fun running => absurd rfl running⟩
  resetCounter := (reboot_value laws persistent w ok _).trans resets
  read := nofun

theorem powerLoss_books (laws : StatusLaws S c good cell rest put)
    (persistent : Persistent good cell reboot) (books : Books S c w good alive₀ resets₀ sys)
    (copies : Nat) : ∃ sys', step S c w reboot sys (.powerLoss copies) = some sys' ∧
      Books S c w good alive₀ resets₀ sys' := by
  obtain ⟨n, stored, account⟩ := books
  have readable : ∃ q, value S c w sys.store .hrsWoReset = some q :=
    stored.hrsWoReset.imp fun q known => known.1
  cases next : due sys with
  | none =>
    refine ⟨restarted reboot sys sys.store, by rw [step, next], n.restarted sys 0 0, ?_,
      restarted_account account sys.store (Nat.zero_le _) (Nat.zero_le _)⟩
    exact restarted_stored laws persistent stored.ok stored.hrsAlive readable stored.resetCounter
  | some write =>
    obtain ⟨v, x⟩ := write
    obtain ⟨s, cut, ok, either, others⟩ := cut_value laws w stored.ok v x copies
    have run : step S c w reboot sys (.powerLoss copies) = some (restarted reboot sys s) := by
      simp [step, next, cut]
    have readable' : ∃ q, value S c w s .hrsWoReset = some q := by
      by_cases here : v = .hrsWoReset
      · subst here
        obtain ⟨q, read⟩ := readable
        exact (either q read).elim (fun same => ⟨q, same⟩) fun new => ⟨x, new⟩
      · rw [others _ fun same => here same.symm]
        exact readable
    -- an unfinished addition is made or not; every other write leaves the sums
    suffices sums : ∃ hour ≤ owed sys.job .hrsAlive, ∃ reset ≤ owed sys.job .resetCounter,
        value S c w s .hrsAlive = some (Int32.ofNat (alive₀ + (n.hours + hour))) ∧
          value S c w s .resetCounter = some (Int32.ofNat (resets₀ + (n.resets + reset))) by
      obtain ⟨hour, hour_le, reset, reset_le, alive, resets⟩ := sums
      exact ⟨_, run, n.restarted sys hour reset,
        restarted_stored laws persistent ok alive readable' resets,
        restarted_account account s hour_le reset_le⟩
    rcases due_cases stored account.stage next with ⟨rfl, rfl, job⟩ | ⟨rfl, -⟩ | ⟨rfl, rfl, job⟩ |
      ⟨rfl, -⟩
    · have resets := (others .resetCounter nofun).trans stored.resetCounter
      rcases either _ stored.hrsAlive with same | new
      · exact ⟨0, Nat.zero_le _, 0, Nat.zero_le _, same, resets⟩
      · exact ⟨1, by rw [job]; decide, 0, Nat.zero_le _, new, resets⟩
    · exact ⟨0, Nat.zero_le _, 0, Nat.zero_le _, (others .hrsAlive nofun).trans stored.hrsAlive,
        (others .resetCounter nofun).trans stored.resetCounter⟩
    · have alive := (others .hrsAlive nofun).trans stored.hrsAlive
      rcases either _ stored.resetCounter with same | new
      · exact ⟨0, Nat.zero_le _, 0, Nat.zero_le _, alive, same⟩
      · exact ⟨0, Nat.zero_le _, 1, by rw [job]; decide, alive, new⟩
    · exact ⟨0, Nat.zero_le _, 0, Nat.zero_le _, (others .hrsAlive nofun).trans stored.hrsAlive,
        (others .resetCounter nofun).trans stored.resetCounter⟩

theorem work_write {v : Var} {x rc : Int32} {s : σ} (next : due sys = some (v, x))
    (set : setValue S c w sys.store v x = some (rc, s)) :
    ∃ more ≤ (if v = .resetCounter then 1 else 0), work S c w sys =
      some { finished sys s sys.job.tail with counted := sys.counted + more } := by
  cases job : sys.job with
  | nil => simp [due, job] at next
  | cons op rest =>
    cases op with
    | set u y =>
      cases current : sys.current with
      | none =>
        obtain ⟨rfl, rfl⟩ : u = v ∧ y = x := by simpa [due, job, current] using next
        exact ⟨0, Nat.zero_le _, by simp [work, job, current, set, finished]⟩
      | some q => simp [due, job, current] at next
    | add u y =>
      cases current : sys.current with
      | none => simp [due, job, current] at next
      | some q =>
        simp only [due, job, current, Option.map_eq_some_iff] at next
        obtain ⟨sum, fits, same⟩ := next
        cases same
        exact ⟨_, Nat.le_refl _, by simp [work, job, current, fits, set]⟩

theorem add_fits (stored : Stored S c w good alive₀ resets₀ sys n) (account : Account sys n)
    (within : Within alive₀ resets₀ sys) {v : Var} {x q : Int32} {job : List Op}
    (shape : sys.job = .add v x :: job) (read : value S c w sys.store v = some q) :
    (checkedAdd q x).isSome := by
  obtain ⟨seconds, restarts, time⟩ := within
  obtain ⟨rfl, -⟩ := account.stage.add shape
  have hours := account.hours
  have before := account.before_le
  have resets := account.resets_le
  have session := account.session
  unfold sent at hours session
  suffices small : ∃ k, q = Int32.ofNat k ∧ k + 1 < 2147483648 by
    obtain ⟨k, rfl, small⟩ := small
    rw [checkedAdd_one small]
    rfl
  rcases account.stage with ⟨-, -, -, boot | boot | boot⟩ | ⟨-, run | run | run⟩
  · simp [boot, bootJob] at shape
  · obtain rfl : Var.resetCounter = v := by
      rw [boot] at shape
      cases shape
      rfl
    obtain rfl := Option.some.inj (stored.resetCounter.symm.trans read)
    rw [boot, owed_add, if_pos rfl] at resets
    exact ⟨_, rfl, by omega⟩
  · simp [boot] at shape
  · simp [run] at shape
  · obtain rfl : Var.hrsAlive = v := by
      rw [run, hoursJob] at shape
      cases shape
      rfl
    obtain rfl := Option.some.inj (stored.hrsAlive.symm.trans read)
    rw [run, hoursJob, owed_add, if_pos rfl] at hours
    exact ⟨_, rfl, by omega⟩
  · obtain rfl : Var.hrsWoReset = v := by
      rw [run] at shape
      cases shape
      rfl
    have running : sys.job ≠ bootJob := by simp [run, bootJob]
    obtain ⟨q', read', known⟩ := stored.hrsWoReset
    obtain rfl := Option.some.inj (read'.symm.trans read)
    have total := session running
    exact ⟨_, known running, by omega⟩

theorem work_read (stored : Stored S c w good alive₀ resets₀ sys n) (account : Account sys n)
    (within : Within alive₀ resets₀ sys) (busy : sys.job ≠ []) (next : due sys = none) :
    ∃ v x job q, sys.job = .add v x :: job ∧ value S c w sys.store v = some q ∧
      work S c w sys = some { sys with current := some q } := by
  obtain ⟨op, rest, job⟩ := List.exists_cons_of_ne_nil busy
  cases op with
  | set u y =>
    cases current : sys.current with
    | none => simp [due, job, current] at next
    | some q =>
      obtain ⟨v, x, more, shape, -⟩ := stored.read q current
      simp [job] at shape
  | add u y =>
    cases current : sys.current with
    | some q =>
      obtain ⟨v, x, more, shape, read⟩ := stored.read q current
      have fits := add_fits stored account within shape read
      simp only [due, shape, current, Option.map_eq_none_iff] at next
      rw [next] at fits
      cases fits
    | none =>
      have readable : ∃ q, value S c w sys.store u = some q := by
        rcases (account.stage.add job).2 with rfl | rfl | rfl
        · exact ⟨_, stored.hrsAlive⟩
        · exact stored.hrsWoReset.imp fun q known => known.1
        · exact ⟨_, stored.resetCounter⟩
      obtain ⟨q, read⟩ := readable
      exact ⟨u, y, rest, q, job, read, by simp [work, job, current, read]⟩

theorem work_account (account : Account sys n) {v : Var} {x : Int32} (s : σ) {more : Nat}
    (stored : Stored S c w good alive₀ resets₀ sys n) (next : due sys = some (v, x))
    (more_le : more ≤ if v = .resetCounter then 1 else 0) :
    ∃ n', Account { finished sys s sys.job.tail with counted := sys.counted + more } n' ∧
      (if v = .hrsAlive then x = Int32.ofNat (alive₀ + n'.hours) else n'.hours = n.hours) ∧
      (if v = .hrsWoReset then x = Int32.ofNat n'.woReset
        else sys.job ≠ bootJob ∧ n'.woReset = n.woReset) ∧
      (if v = .resetCounter then x = Int32.ofNat (resets₀ + n'.resets)
        else n'.resets = n.resets) := by
  have hours := account.hours
  have session := account.session
  have counted_le := account.counted_le
  have resets_le := account.resets_le
  rcases due_cases stored account.stage next with ⟨rfl, rfl, job⟩ |
    ⟨rfl, ⟨job, rfl⟩ | ⟨job, rfl⟩⟩ | ⟨rfl, rfl, job⟩ | ⟨rfl, job⟩
  · obtain ⟨up, -⟩ := account.stage.resolve_left (by simp [job, hoursJob, bootJob])
    refine ⟨{ n with hours := n.hours + 1 }, { account with
      stage := .inr ⟨by simp [finished, up], by simp [finished, job, hoursJob]⟩
      hours := ?_, session := fun _ => ?_, counted_le := ?_, resets_le := ?_ },
      rfl, ⟨by simp [job, hoursJob, bootJob], rfl⟩, rfl⟩
    all_goals
      simp_all [finished, hoursJob, bootJob]
      try omega
  · obtain ⟨down, ticks, pending, -⟩ :=
      account.stage.resolve_right (by simp [job, hoursJob, bootJob])
    refine ⟨{ n with woReset := 0 }, { account with
      stage := .inl ⟨by simp [finished, down, job, bootJob], ticks, pending,
        by simp [finished, job, bootJob]⟩
      hours := ?_, session := fun _ => ?_, counted_le := ?_, resets_le := ?_ }, rfl, rfl, rfl⟩
    all_goals
      simp_all [finished, bootJob, sent_zero]
      try omega
  · obtain ⟨up, -⟩ := account.stage.resolve_left (by simp [job, bootJob])
    refine ⟨{ n with woReset := n.woReset + 1 }, { account with
      stage := .inr ⟨by simp [finished, up], by simp [finished, job]⟩
      hours := ?_, session := fun _ => ?_, counted_le := ?_, resets_le := ?_ }, rfl, rfl, rfl⟩
    all_goals
      simp_all [finished, bootJob]
      try omega
  · obtain ⟨down, ticks, pending, -⟩ := account.stage.resolve_right (by simp [job, hoursJob])
    refine ⟨{ n with resets := n.resets + 1 }, { account with
      stage := .inl ⟨by simp [finished, down, job], ticks, pending, by simp [finished, job]⟩
      hours := ?_, session := fun _ => ?_, counted_le := ?_, resets_le := ?_ },
      rfl, ⟨by simp [job, bootJob], rfl⟩, rfl⟩
    all_goals
      simp_all [finished, bootJob]
      try omega
  · refine ⟨n, { account with
      stage := .inr ⟨by simp [finished, job], by simp [finished, job]⟩
      hours := ?_, session := fun _ => ?_, counted_le := ?_, resets_le := ?_ },
      rfl, ⟨by simp [job, bootJob], rfl⟩, rfl⟩
    all_goals
      simp_all [finished, bootJob]
      try omega

theorem work_books (laws : StatusLaws S c good cell rest put)
    (books : Books S c w good alive₀ resets₀ sys) (within : Within alive₀ resets₀ sys)
    (busy : sys.job ≠ []) :
    ∃ sys', work S c w sys = some sys' ∧ Books S c w good alive₀ resets₀ sys' := by
  obtain ⟨n, stored, account⟩ := books
  cases next : due sys with
  | none =>
    obtain ⟨v, x, job, q, shape, read, worked⟩ := work_read stored account within busy next
    refine ⟨_, worked, n, ⟨stored.ok, stored.hrsAlive, stored.hrsWoReset, stored.resetCounter, ?_⟩,
      { account with }⟩
    intro q' same
    obtain rfl := Option.some.inj same
    exact ⟨v, x, job, shape, read⟩
  | some write =>
    obtain ⟨v, x⟩ := write
    obtain ⟨s, set, ok, new, others⟩ := setValue_spec laws w stored.ok v x
    obtain ⟨more, more_le, worked⟩ := work_write next set
    obtain ⟨n', account', alive, hours, resets⟩ := work_account account s stored next more_le
    exact ⟨_, worked, n', stored.write ok rfl new others alive (fun _ => hours) resets, account'⟩

theorem step_books (laws : StatusLaws S c good cell rest put)
    (persistent : Persistent good cell reboot) (books : Books S c w good alive₀ resets₀ sys)
    {action : Action} (stepped : step S c w reboot sys action = some sys')
    (within : Within alive₀ resets₀ sys) (short : sys'.ticks + 1 < 4294967296) : Books S c w good alive₀ resets₀ sys' := by
  cases action with
  | work =>
    have busy : sys.job ≠ [] := by
      intro idle
      simp [step, work, idle] at stepped
    obtain ⟨t, worked, books'⟩ := work_books laws books within busy
    obtain rfl := Option.some.inj (worked.symm.trans stepped)
    exact books'
  | begin =>
    simp only [step, Option.ite_none_right_eq_some] at stepped
    obtain ⟨⟨-, idle, waiting⟩, same⟩ := stepped
    obtain rfl := Option.some.inj same
    exact begin_books books idle waiting
  | tick debug time =>
    simp only [step, Option.ite_none_right_eq_some] at stepped
    obtain ⟨up, stepped⟩ := stepped
    obtain ⟨⟨rc, s⟩, set, same⟩ := Option.bind_eq_some_iff.mp stepped
    obtain rfl := Option.some.inj same
    obtain ⟨rc', s', set', books'⟩ := tick_books laws books up short debug time
    obtain ⟨-, rfl⟩ := Prod.mk.inj (Option.some.inj (set'.symm.trans set))
    exact books'
  | other index x copies =>
    simp only [step, Option.ite_none_right_eq_some] at stepped
    obtain ⟨⟨inside, other⟩, stepped⟩ := stepped
    obtain ⟨s, cut, books'⟩ := other_books laws books inside other x copies
    rw [cut] at stepped
    obtain rfl := Option.some.inj stepped
    exact books'
  | powerLoss copies =>
    obtain ⟨t, lost, books'⟩ := powerLoss_books laws persistent books copies
    obtain rfl := Option.some.inj (lost.symm.trans stepped)
    exact books'

theorem firstBoot_books {s : σ} (ok : good s)
    (alive : value S c w s .hrsAlive = some (Int32.ofNat alive₀))
    (hours : ∃ q, value S c w s .hrsWoReset = some q)
    (resets : value S c w s .resetCounter = some (Int32.ofNat resets₀)) :
    Books S c w good alive₀ resets₀ (firstBoot s) := by
  obtain ⟨none, -, one⟩ := owed_boot
  refine ⟨⟨0, 0, 0, 0, 0⟩, ⟨ok, alive, ?_, resets, nofun⟩, ⟨.inl ⟨rfl, rfl, rfl, .inl rfl⟩, rfl,
    ?_, fun running => absurd rfl running, Nat.le_refl _, Nat.le_refl _, Nat.le_refl _,
    Nat.le_refl _, ?_⟩⟩
  · exact hours.imp fun q read => ⟨read, fun running => absurd rfl running⟩
  · simpa [firstBoot, sent_zero] using none
  · simpa [firstBoot] using Nat.le_of_eq one

theorem run_books (laws : StatusLaws S c good cell rest put)
    (persistent : Persistent good cell reboot) {actions : List Action}
    (books : Books S c w good alive₀ resets₀ sys)
    (reached : run (step S c w reboot) sys actions = some sys')
    (short : Throughout (step S c w reboot) (Within alive₀ resets₀) sys actions) :
    Books S c w good alive₀ resets₀ sys' := by
  induction actions generalizing sys with
  | nil =>
    obtain rfl := Option.some.inj reached
    exact books
  | cons action rest ih =>
    obtain ⟨t, stepped, later⟩ := Option.bind_eq_some_iff.mp reached
    have start := short [] (action :: rest) sys rfl rfl
    have here := short [action] rest t rfl (run_single stepped)
    refine ih (step_books laws persistent books stepped start here.1) later ?_
    intro done more u split further
    exact short (action :: done) more u (by rw [split]; rfl) (run_cons stepped further)

/-- In every state that a mission of bounded length can reach, whenever and within whatever writes
    power was lost: the hours alive are never more than one second a boot ahead,
    and what is missing of them is less than an hour for each boot and the hours
    that are on the way or were lost with the queue; every boot counts itself at
    most once, and surely when its write was made; the hours without a reset are
    exact; and no call of the system is undefined. -/
theorem mission_counters (laws : StatusLaws S c good cell rest put)
    (persistent : Persistent good cell reboot) {s : σ} (ok : good s)
    (alive : value S c w s .hrsAlive = some (Int32.ofNat alive₀))
    (readable : ∃ q, value S c w s .hrsWoReset = some q)
    (reset : value S c w s .resetCounter = some (Int32.ofNat resets₀)) {actions : List Action}
    (reached : run (step S c w reboot) (firstBoot s) actions = some sys)
    (short : Throughout (step S c w reboot) (Within alive₀ resets₀) (firstBoot s) actions) :
    (∃ hours, value S c w sys.store .hrsAlive = some (Int32.ofNat (alive₀ + hours)) ∧
      3600 * hours ≤ sys.earlier + sys.ticks + (sys.restarts + 1) ∧
      sys.earlier + sys.ticks ≤
        3600 * (hours + sys.pending + owed sys.job .hrsAlive + sys.dropped) +
          3598 * (sys.restarts + 1)) ∧
    (∃ resets, value S c w sys.store .resetCounter = some (Int32.ofNat (resets₀ + resets)) ∧
      sys.counted ≤ resets ∧ resets ≤ sys.restarts + 1) ∧
    (sys.up = true → ∃ hours, value S c w sys.store .hrsWoReset = some (Int32.ofNat hours) ∧
      hours + sys.pending + owed sys.job .hrsWoReset = (sys.ticks + 1) / 3600) ∧
    (sys.job ≠ [] → (step S c w reboot sys .work).isSome) ∧
    (sys.up = true → ∀ debug time, (step S c w reboot sys (.tick debug time)).isSome) ∧
    ∀ copies, (step S c w reboot sys (.powerLoss copies)).isSome := by
  have books := run_books laws persistent (firstBoot_books ok alive readable reset) reached short
  obtain ⟨n, stored, account⟩ := id books
  refine ⟨⟨n.hours, stored.hrsAlive, ?_, ?_⟩,
    ⟨n.resets, stored.resetCounter, account.counted_le, ?_⟩,
    fun up => ?_, fun busy => ?_, fun up debug time => ?_, fun copies => ?_⟩
  · have hours := account.hours
    have before := account.before_le
    unfold sent at hours
    omega
  · have hours := account.hours
    have before := account.before_ge
    have lost := account.lost_le
    unfold sent at hours
    omega
  · have resets := account.resets_le
    omega
  · have running : sys.job ≠ bootJob := by
      rcases account.stage with ⟨down, -⟩ | ⟨-, shape⟩
      · rw [down] at up
        cases up
      · rcases shape with shape | shape | shape <;> simp [shape, bootJob, hoursJob]
    obtain ⟨q, read, same⟩ := stored.hrsWoReset
    exact ⟨n.woReset, by rw [read, same running], account.session running⟩
  · have within := short actions [] sys (List.append_nil actions).symm reached
    obtain ⟨t, worked, -⟩ := work_books laws books within busy
    exact Option.isSome_of_eq_some worked
  · obtain ⟨t, set, -⟩ := setValue_spec laws w stored.ok .rtcDateTime time
    simp [step, up, set]
  · obtain ⟨t, lost, -⟩ := powerLoss_books laws persistent books copies
    exact Option.isSome_of_eq_some lost

theorem step_growth {action : Action} (stepped : step S c w reboot sys action = some sys') :
    sys'.earlier + sys'.ticks ≤ sys.earlier + sys.ticks + 1 ∧
      sys'.restarts ≤ sys.restarts + 1 := by
  cases action with
  | work =>
    simp only [step, work] at stepped
    split at stepped
    · obtain ⟨r, -, same⟩ := Option.bind_eq_some_iff.mp stepped
      obtain rfl := Option.some.inj same
      exact ⟨Nat.le_succ _, Nat.le_succ _⟩
    · obtain ⟨q, -, same⟩ := Option.bind_eq_some_iff.mp stepped
      obtain rfl := Option.some.inj same
      exact ⟨Nat.le_succ _, Nat.le_succ _⟩
    · obtain ⟨sum, -, stepped⟩ := Option.bind_eq_some_iff.mp stepped
      obtain ⟨r, -, same⟩ := Option.bind_eq_some_iff.mp stepped
      obtain rfl := Option.some.inj same
      exact ⟨Nat.le_succ _, Nat.le_succ _⟩
    · cases stepped
  | begin =>
    obtain ⟨-, same⟩ := Option.ite_none_right_eq_some.mp stepped
    obtain rfl := Option.some.inj same
    exact ⟨Nat.le_succ _, Nat.le_succ _⟩
  | tick debug time =>
    obtain ⟨-, stepped⟩ := Option.ite_none_right_eq_some.mp stepped
    obtain ⟨r, -, same⟩ := Option.bind_eq_some_iff.mp stepped
    obtain rfl := Option.some.inj same
    exact ⟨Nat.le_refl _, Nat.le_succ _⟩
  | other index x copies =>
    obtain ⟨-, stepped⟩ := Option.ite_none_right_eq_some.mp stepped
    obtain ⟨s, -, same⟩ := Option.bind_eq_some_iff.mp stepped
    obtain rfl := Option.some.inj same
    exact ⟨Nat.le_succ _, Nat.le_succ _⟩
  | powerLoss copies =>
    have lost : ∃ s, restarted reboot sys s = sys' := by
      simp only [step] at stepped
      split at stepped
      · obtain ⟨s, -, same⟩ := Option.bind_eq_some_iff.mp stepped
        exact ⟨s, Option.some.inj same⟩
      · exact ⟨_, Option.some.inj stepped⟩
    obtain ⟨s, rfl⟩ := lost
    exact ⟨Nat.le_succ _, Nat.le_refl _⟩

theorem run_growth {actions : List Action}
    (reached : run (step S c w reboot) sys actions = some sys') :
    sys'.earlier + sys'.ticks ≤ sys.earlier + sys.ticks + actions.length ∧
      sys'.restarts ≤ sys.restarts + actions.length := by
  induction actions generalizing sys with
  | nil =>
    obtain rfl := Option.some.inj reached
    exact ⟨Nat.le_refl _, Nat.le_refl _⟩
  | cons action rest ih =>
    obtain ⟨t, stepped, later⟩ := Option.bind_eq_some_iff.mp reached
    have first := step_growth stepped
    have further := ih later
    rw [List.length_cons]
    omega

theorem within_of_length {s : σ} {actions : List Action}
    (few : alive₀ + resets₀ + 2 * actions.length + 1 < 2147483648) :
    Throughout (step S c w reboot) (Within alive₀ resets₀) (firstBoot s) actions := by
  intro done rest t split reached
  obtain ⟨time, restarts⟩ := run_growth reached
  have length : done.length ≤ actions.length := by simp [split]
  simp only [firstBoot] at time restarts
  unfold Within
  omega

end Invariant

/-! A mission on the SQLite back end. -/

section Mission
open SqliteStorage SqliteFlightPlan

def sqliteReboot (s : SqliteStore) : SqliteStore := { s with storageIsOpen := true }

theorem sqlite_persistent :
    Persistent (fun s : SqliteStore => s.storageIsOpen = true) SqliteStore.statusTable
      sqliteReboot where
  good_reboot _ _ := rfl
  cell_reboot _ _ := rfl

def simpleAddress : Var → Nat
  | .hrsAlive => 2
  | .hrsWoReset => 3
  | .resetCounter => 4
  | .swWdt => 5
  | .rtcDateTime => 9

theorem simpleAddress_inside (v : Var) : simpleAddress v < simpleConfig.datStatusLastAddress := by
  cases v <;> decide

theorem simpleAddress_distinct (v v' : Var) (same : simpleAddress v = simpleAddress v') :
    v = v' := by
  cases v <;> cases v' <;> first | rfl | exact absurd same (by decide)

def simpleVars : CounterVars simpleConfig :=
  ⟨simpleAddress, simpleAddress_inside, simpleAddress_distinct⟩

def cutBoot : List Action :=
  [.work, .work, .work, .work, .tick false 1000, .powerLoss 0, .work, .work, .powerLoss 1]

theorem cutBoot_counters :
    ∃ sys, run (step sqliteStorage simpleConfig simpleVars sqliteReboot) (firstBoot openedStore)
        cutBoot = some sys ∧
      ∃ resets, value sqliteStorage simpleConfig simpleVars sys.store .resetCounter =
          some (Int32.ofNat (0 + resets)) ∧ sys.counted ≤ resets ∧ resets ≤ sys.restarts + 1 := by
  have reached : ∃ sys, run (step sqliteStorage simpleConfig simpleVars sqliteReboot)
      (firstBoot openedStore) cutBoot = some sys := ⟨_, rfl⟩
  obtain ⟨sys, reached⟩ := reached
  exact ⟨sys, reached, (mission_counters (sqlite_status simpleConfig) sqlite_persistent rfl rfl
    ⟨0, rfl⟩ rfl reached (within_of_length (by decide))).2.1⟩

end Mission

end MissionCounters
