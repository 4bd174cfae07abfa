import SuchaiFlight.SqliteFlightPlan
import SuchaiFlight.StatusVariables
import SuchaiFlight.Library.Runs

/-!
The loop of `taskADCS`. It counts milliseconds in an `unsigned int`, and what it
does depends on the remainders of that number: after 2^32 milliseconds they are
no multiples of 100 any more. It reads and writes the variables one at a time,
and the other tasks run in between.
-/
namespace AdcsTask
open StorageApi RepoData StatusVariables Runs

structure AdcsConfig (c : Config) where
  datObcOpmode : Nat
  datRtcDateTime : Nat
  datAdsPosX : Nat
  datAdsQ0 : Nat
  datAdsOmegaX : Nat
  opmodeRefPoint : Int32
  opmodeNadPoint : Int32
  opmodeDetumbMag : Int32
  opmode_lt : datObcOpmode < c.datStatusLastAddress
  dateTime_lt : datRtcDateTime < c.datStatusLastAddress
  pos_lt : datAdsPosX + 3 < c.datStatusLastAddress
  quat_lt : datAdsQ0 + 4 < c.datStatusLastAddress
  omega_lt : datAdsOmegaX + 3 < c.datStatusLastAddress
  apart : datObcOpmode ≠ datRtcDateTime
  notQuat : ∀ i < 4, datAdsQ0 + i ≠ datObcOpmode
  notOmega : ∀ i < 3, datAdsOmegaX + i ≠ datObcOpmode
  notRef : opmodeDetumbMag ≠ opmodeRefPoint
  notNad : opmodeDetumbMag ≠ opmodeNadPoint

/-- What becomes of a `float` that is made a `double` and a `float` again: the
    same, unless it is not a number. -/
structure Conversion where
  throughDouble : UInt32 → UInt32
  number : ∀ word, word &&& 0x7fffffff ≤ 0x7f800000 → throughDouble word = word
  settles : ∀ word, throughDouble (throughDouble word) = throughDouble word

/-- The commands that the task sends. `adcs_acc` is not registered, and a null
    pointer is sent for it. -/
inductive Command where
  | obcSetTle (line : Fin 2)
  | obcUpdateTle
  | obcGetTle
  | obcPropTle
  | adcsQuat
  | adcsAcc
  | adcsMag
  | adcsSetTarget
  | adcsSetToNadir
  | adcsDetumblingMag
  | adcsMagMoment
  | adcsSendAttitude
  | drpAddHrsAlive
  deriving DecidableEq

inductive Local where
  | r
  | qEst
  | w
  deriving DecidableEq

def Local.size : Local → Nat
  | .r => 3
  | .qEst => 4
  | .w => 3

/-- A statement of the task. `assertion` is that of `_get_sat_vector` and its
    like, `get` and `set` take one element to or from its variable. -/
inductive Op where
  | assertion (x : Local)
  | get (x : Local) (i : Nat)
  | set (x : Local) (i : Nat)
  | dateTime
  | mode
  | send (cmd : Command)
  deriving DecidableEq

def getSat (x : Local) : List Op := .assertion x :: (List.range x.size).map (.get x)

def setSat (x : Local) : List Op := .assertion x :: (List.range x.size).map (.set x)

/-- What is computed between the reads and the writes is logged only. -/
def estimateLoop (elapsedMsec : UInt32) : List Op :=
  if elapsedMsec % 10 = 0 ∧ elapsedMsec % 500 = 0 then
    .send .obcPropTle :: (getSat .r ++ getSat .qEst ++ getSat .w ++ setSat .qEst ++ setSat .w)
  else []

def controlLoop (elapsedMsec : UInt32) : List Op :=
  if elapsedMsec % 1000 = 0 then
    [.send .obcPropTle, .send .adcsQuat, .send .adcsAcc, .send .adcsMag, .mode]
  else []

def iteration (elapsedMsec : UInt32) : List Op :=
  estimateLoop elapsedMsec ++ .dateTime :: (controlLoop elapsedMsec ++
    if elapsedMsec % (60 * 60 * 1000) = 0 then [.send .drpAddHrsAlive] else [])

/-- `job` is what is left of the iteration, and `locals` what the elements of the
    vectors hold, as the `float`s that were read. `ticks` and `sent` are kept for
    the statements only: the iterations so far, and all commands that were sent. -/
structure System (σ : Type) where
  store : σ
  elapsedMsec : UInt32
  job : List Op
  locals : Local × Nat → Option UInt32
  ticks : Nat
  sent : List Command

/-- The next iteration begins, the task makes its next statement, at some time,
    or another task makes a `dat_set_status_var`. -/
inductive Action where
  | tick
  | work (time : Int32)
  | write (index : Nat) (value : UInt32)

section Task
variable {σ : Type} (S : Storage σ) (c : Config) (a : AdcsConfig c) (f : Conversion)

def AdcsConfig.index (a : AdcsConfig c) : Local → Nat
  | .r => a.datAdsPosX
  | .qEst => a.datAdsQ0
  | .w => a.datAdsOmegaX

/-- The control loop from where it knows the mode. `cmd_point` has no value in
    other modes, and `adcs_do_control` gets an `unsigned int` for its format `"%lf"`. -/
def control (mode : Int32) : Option (List Op) := do
  let cmdPoint ← if mode = a.opmodeRefPoint then some .adcsSetTarget
    else if mode = a.opmodeNadPoint then some .adcsSetToNadir
    else if mode = a.opmodeDetumbMag then some .adcsDetumblingMag
    else none
  let cmdCtrl ← if mode = a.opmodeDetumbMag then some .adcsMagMoment else none
  return [.send cmdPoint, .send cmdCtrl, .send .adcsSendAttitude]

def work (sys : System σ) (time : Int32) : Option (System σ) :=
  match sys.job with
  | [] => none
  | .assertion x :: job =>
    if a.index c x + x.size < c.datStatusLastAddress then some { sys with job := job } else none
  | .get x i :: job => do
    let value ← datGetStatusVar S c sys.store (a.index c x + i)
    return { sys with job := job, locals := Function.update sys.locals (x, i) (some value) }
  | .set x i :: job => do
    let value ← sys.locals (x, i)
    let (_, s) ← datSetStatusVar S c sys.store (a.index c x + i) (f.throughDouble value)
    return { sys with store := s, job := job }
  | .dateTime :: job => do
    let (_, s) ← datSetSystemVar S c sys.store a.datRtcDateTime time
    return { sys with store := s, job := job }
  | .mode :: job => do
    let mode ← datGetSystemVar S c sys.store a.datObcOpmode
    let commands ← control c a mode
    return { sys with job := commands ++ job }
  | .send cmd :: job => some { sys with job := job, sent := sys.sent ++ [cmd] }

def step (sys : System σ) : Action → Option (System σ)
  | .tick =>
    if sys.job = [] then
      some { sys with
        elapsedMsec := sys.elapsedMsec + 100, ticks := sys.ticks + 1
        job := iteration (sys.elapsedMsec + 100) }
    else none
  | .work time => work S c a f sys time
  | .write index value => do
    let (_, s) ← datSetStatusVar S c sys.store index value
    return { sys with store := s }

def Possible (sys : System σ) : Action → Prop
  | .tick => sys.job = []
  | .work _ => sys.job ≠ [] ∧ (sys.job.head? = some .mode →
      datGetSystemVar S c sys.store a.datObcOpmode = some a.opmodeDetumbMag)
  | .write _ _ => True

end Task

/-! Remainders of the milliseconds. -/

def cycle : Nat := 1073741824

def working : Nat := 42949672

/-- Iteration `n` is one of every `k` iterations that the remainders give. -/
def Due (k n : Nat) : Prop := n % cycle ≤ working ∧ k ∣ n % cycle

instance (k n : Nat) : Decidable (Due k n) := inferInstanceAs (Decidable (_ ∧ _))

def rounds (k n : Nat) : Nat := n / cycle * (working / k + 1) + min (n % cycle) working / k

theorem wrapped_mod {m : Nat} (inside : m < cycle) (past : working < m) {k : Nat} :
    ¬ 100 * k ∣ 100 * m % 4294967296 := by
  rintro ⟨t, whole⟩
  rw [Nat.mul_assoc] at whole
  generalize k * t = u at whole
  unfold cycle at inside
  unfold working at past
  omega

theorem due_iff_nat {k n : Nat} : 100 * n % 4294967296 % (100 * k) = 0 ↔ Due k n := by
  have cycles : 100 * n % 4294967296 = 100 * (n % cycle) % 4294967296 := by
    unfold cycle
    omega
  have inside : n % cycle < cycle := Nat.mod_lt n (by decide)
  rw [cycles, ← Nat.dvd_iff_mod_eq_zero]
  by_cases past : working < n % cycle
  · constructor
    · exact fun divides => absurd divides (wrapped_mod inside past)
    · exact fun due => absurd due.1 (Nat.not_le.mpr past)
  · have small : 100 * (n % cycle) < 4294967296 := by
      unfold working at past
      omega
    rw [Nat.mod_eq_of_lt small, Nat.mul_dvd_mul_iff_left (by decide)]
    exact (and_iff_right (Nat.not_lt.mp past)).symm

theorem due_iff {k n : Nat} (fits : 100 * k < 4294967296) {elapsed : UInt32}
    (counted : elapsed = UInt32.ofNat (100 * n)) :
    elapsed % UInt32.ofNat (100 * k) = 0 ↔ Due k n := by
  rw [← due_iff_nat, ← UInt32.toNat_inj, UInt32.toNat_mod, counted, UInt32.toNat_ofNat',
    UInt32.toNat_ofNat', Nat.mod_eq_of_lt fits]
  rfl

theorem rounds_succ {k : Nat} (n : Nat) :
    rounds k (n + 1) = rounds k n + if Due k (n + 1) then 1 else 0 := by
  have split := Nat.div_add_mod n cycle
  have inside : n % cycle < cycle := Nat.mod_lt n (by decide)
  by_cases last : n % cycle + 1 = cycle
  · -- the next iteration starts a cycle
    have next : n + 1 = (n / cycle + 1) * cycle := by
      rw [Nat.add_mul, Nat.mul_comm]
      omega
    have div : (n + 1) / cycle = n / cycle + 1 := by
      rw [next, Nat.mul_div_cancel _ (by decide)]
    have mod : (n + 1) % cycle = 0 := by rw [next, Nat.mul_mod_left]
    have due : Due k (n + 1) := by
      unfold Due
      rw [mod]
      exact ⟨Nat.zero_le _, Nat.dvd_zero k⟩
    have full : min (n % cycle) working = working := by
      unfold cycle working at *
      omega
    unfold rounds
    rw [if_pos due, div, mod, full, Nat.zero_min, Nat.zero_div, Nat.succ_mul]
    omega
  · have next : n + 1 = n % cycle + 1 + cycle * (n / cycle) := by omega
    have div : (n + 1) / cycle = n / cycle := by
      rw [next, Nat.add_mul_div_left _ _ (by decide), Nat.div_eq_of_lt (by omega), Nat.zero_add]
    have mod : (n + 1) % cycle = n % cycle + 1 := by
      rw [next, Nat.add_mul_mod_self_left, Nat.mod_eq_of_lt (by omega)]
    have due : Due k (n + 1) ↔ n % cycle + 1 ≤ working ∧ k ∣ n % cycle + 1 := by
      unfold Due
      rw [mod]
    unfold rounds
    rw [div, mod]
    by_cases past : working < n % cycle + 1
    · rw [if_neg (fun next => absurd (due.mp next).1 (Nat.not_le.mpr past)),
        Nat.min_eq_right (by omega), Nat.min_eq_right (by omega)]
      rfl
    · rw [Nat.min_eq_left (by omega), Nat.min_eq_left (by omega), Nat.succ_div]
      by_cases multiple : k ∣ n % cycle + 1
      · rw [if_pos multiple, if_pos (due.mpr ⟨Nat.not_lt.mp past, multiple⟩), Nat.add_assoc]
      · rw [if_neg multiple, if_neg (fun next => multiple (due.mp next).2)]
        rfl

/-! What one step does. -/

section Steps
variable {σ ρ : Type} {S : Storage σ} {c : Config} {a : AdcsConfig c} {f : Conversion}
  {good : σ → Prop} {cell : σ → Nat → Option UInt32} {rest : σ → ρ} {put : σ → Nat → UInt32 → σ}
  {s s' : σ}

def Readable (c : Config) (cell : σ → Nat → Option UInt32) (s : σ) : Prop :=
  ∀ j < c.datStatusLastAddress, (voted c (cell s) j).isSome

def Wrote (c : Config) (cell : σ → Nat → Option UInt32) (s : σ) (index : Nat) (value : UInt32)
    (s' : σ) : Prop :=
  ∀ j < c.datStatusLastAddress, voted c (cell s') j =
    if j = index then some value else voted c (cell s) j

theorem Wrote.readable {index : Nat} {value : UInt32} (wrote : Wrote c cell s index value s')
    (readable : Readable c cell s) : Readable c cell s' := by
  intro j inside
  rw [wrote j inside]
  split
  · rfl
  · exact readable j inside

theorem index_lt (a : AdcsConfig c) (x : Local) : a.index c x + x.size < c.datStatusLastAddress := by
  cases x
  · exact a.pos_lt
  · exact a.quat_lt
  · exact a.omega_lt

/-- Every element that is written back from a vector is read before. `known` are
    those that have been read. -/
def ready : List (Local × Nat) → List Op → Bool
  | _, [] => true
  | known, .get x i :: job => decide (i < x.size) && ready ((x, i) :: known) job
  | known, .set x i :: job => decide (i < x.size ∧ x ≠ .r ∧ (x, i) ∈ known) && ready known job
  | known, _ :: job => ready known job

theorem ready_iteration (elapsedMsec : UInt32) : ready [] (iteration elapsedMsec) = true := by
  unfold iteration estimateLoop controlLoop
  split <;> split <;> split <;> decide

def controlCommands : List Op :=
  [.send .adcsDetumblingMag, .send .adcsMagMoment, .send .adcsSendAttitude]

def momentsLeft (job : List Op) : Nat := job.count .mode + job.count (.send .adcsMagMoment)

def hoursLeft (job : List Op) : Nat := job.count (.send .drpAddHrsAlive)

structure Kept (good : σ → Prop) (c : Config) (cell : σ → Nat → Option UInt32) (sys : System σ) :
    Prop where
  ok : good sys.store
  readable : Readable c cell sys.store
  counted : sys.elapsedMsec = UInt32.ofNat (100 * sys.ticks)
  reads : ∃ known, ready known sys.job = true ∧ ∀ key ∈ known, (sys.locals key).isSome
  moments : sys.sent.count .adcsMagMoment + momentsLeft sys.job = rounds 10 sys.ticks
  hours : sys.sent.count .drpAddHrsAlive + hoursLeft sys.job = rounds 36000 sys.ticks

inductive Stepped (c : Config) (a : AdcsConfig c) (f : Conversion)
    (cell : σ → Nat → Option UInt32) (sys : System σ) : Action → System σ → Prop where
  | tick (idle : sys.job = []) :
      Stepped c a f cell sys .tick { sys with
        elapsedMsec := sys.elapsedMsec + 100, ticks := sys.ticks + 1
        job := iteration (sys.elapsedMsec + 100) }
  | assertion {time : Int32} {x : Local} {job : List Op} (next : sys.job = .assertion x :: job) :
      Stepped c a f cell sys (.work time) { sys with job := job }
  | get {time : Int32} {x : Local} {i : Nat} {job : List Op} {value : UInt32}
      (next : sys.job = .get x i :: job)
      (read : voted c (cell sys.store) (a.index c x + i) = some value) :
      Stepped c a f cell sys (.work time)
        { sys with job := job, locals := Function.update sys.locals (x, i) (some value) }
  | set {time : Int32} {x : Local} {i : Nat} {job : List Op} {value : UInt32} {s : σ}
      (next : sys.job = .set x i :: job) (own : i < x.size ∧ x ≠ .r)
      (held : sys.locals (x, i) = some value)
      (wrote : Wrote c cell sys.store (a.index c x + i) (f.throughDouble value) s) :
      Stepped c a f cell sys (.work time) { sys with store := s, job := job }
  | dateTime {time : Int32} {job : List Op} {s : σ} (next : sys.job = .dateTime :: job)
      (wrote : Wrote c cell sys.store a.datRtcDateTime time.toUInt32 s) :
      Stepped c a f cell sys (.work time) { sys with store := s, job := job }
  | mode {time : Int32} {job : List Op} (next : sys.job = .mode :: job) :
      Stepped c a f cell sys (.work time) { sys with job := controlCommands ++ job }
  | send {time : Int32} {cmd : Command} {job : List Op} (next : sys.job = .send cmd :: job) :
      Stepped c a f cell sys (.work time) { sys with job := job, sent := sys.sent ++ [cmd] }
  | write {index : Nat} {value : UInt32} {s : σ} (wrote : Wrote c cell sys.store index value s) :
      Stepped c a f cell sys (.write index value) { sys with store := s }

def Inside (c : Config) : Action → Prop
  | .write index _ => index < c.datStatusLastAddress
  | _ => True

instance (c : Config) (action : Action) : Decidable (Inside c action) := by
  cases action <;> unfold Inside <;> infer_instance

variable {sys sys' : System σ} {action : Action}

theorem arrives {o : Option (System σ)} {next : System σ} {possible : Prop}
    {Holds : System σ → Prop} (goes : o = some next) (can : possible) (holds : Holds next) :
    (o.isSome ↔ possible) ∧ ∀ sys', o = some sys' → Holds sys' := by
  rw [goes]
  refine ⟨iff_of_true rfl can, fun sys' same => ?_⟩
  cases same
  exact holds

theorem iteration_counts {n : Nat} {elapsed : UInt32} (counted : elapsed = UInt32.ofNat (100 * n)) :
    momentsLeft (iteration elapsed) = (if Due 10 n then 1 else 0) ∧
      hoursLeft (iteration elapsed) = if Due 36000 n then 1 else 0 := by
  have ten : elapsed % 1000 = 0 ↔ Due 10 n := due_iff (k := 10) (by decide) counted
  have hour : elapsed % (60 * 60 * 1000) = 0 ↔ Due 36000 n := due_iff (k := 36000) (by decide) counted
  have here : momentsLeft (iteration elapsed) = (if elapsed % 1000 = 0 then 1 else 0) ∧
      hoursLeft (iteration elapsed) = if elapsed % (60 * 60 * 1000) = 0 then 1 else 0 := by
    unfold iteration estimateLoop controlLoop momentsLeft hoursLeft
    split <;> split <;> split <;> decide
  simpa only [ten, hour] using here

theorem Kept.step (kept : Kept good c cell sys) (ok : good sys'.store)
    (stepped : Stepped c a f cell sys action sys') : Kept good c cell sys' := by
  obtain ⟨known, reads, held⟩ := kept.reads
  have before := kept.moments
  have before' := kept.hours
  cases stepped with
  | tick idle =>
    have next : sys.elapsedMsec + 100 = UInt32.ofNat (100 * (sys.ticks + 1)) := by
      rw [kept.counted, Nat.mul_succ, UInt32.ofNat_add]
      rfl
    obtain ⟨more, more'⟩ := iteration_counts next
    rw [idle] at before before'
    refine ⟨ok, kept.readable, next, ⟨[], ready_iteration _, nofun⟩, ?_, ?_⟩
    · rw [rounds_succ, ← before, more]
      rfl
    · rw [rounds_succ, ← before', more']
      rfl
  | assertion next =>
    rw [next] at reads before before'
    exact ⟨ok, kept.readable, kept.counted, ⟨known, reads, held⟩, before, before'⟩
  | @get time x i job value next read =>
    rw [next] at reads before before'
    simp only [ready, Bool.and_eq_true, decide_eq_true_eq] at reads
    refine ⟨ok, kept.readable, kept.counted, ⟨(x, i) :: known, reads.2, ?_⟩, before, before'⟩
    intro key mem
    by_cases same : key = (x, i)
    · simp [same]
    · simpa [Function.update_of_ne same] using held key (List.mem_of_ne_of_mem same mem)
  | set next own here wrote =>
    rw [next] at reads before before'
    simp only [ready, Bool.and_eq_true] at reads
    exact ⟨ok, wrote.readable kept.readable, kept.counted, ⟨known, reads.2, held⟩, before, before'⟩
  | dateTime next wrote =>
    rw [next] at reads before before'
    exact ⟨ok, wrote.readable kept.readable, kept.counted, ⟨known, reads, held⟩, before, before'⟩
  | @mode time job next =>
    rw [next] at reads before before'
    refine ⟨ok, kept.readable, kept.counted, ⟨known, reads, held⟩, ?_, ?_⟩
    · rw [← before]
      simp only [momentsLeft, controlCommands, List.count_append, List.count_cons, List.count_nil]
      simp
      omega
    · rw [← before']
      simp [hoursLeft, controlCommands]
  | @send time cmd job next =>
    rw [next] at reads before before'
    refine ⟨ok, kept.readable, kept.counted, ⟨known, reads, held⟩, ?_, ?_⟩
    · rw [← before]
      simp only [momentsLeft, List.count_append, List.count_cons, List.count_nil]
      simp
      omega
    · rw [← before']
      simp only [hoursLeft, List.count_append, List.count_cons, List.count_nil]
      simp
      omega
  | write wrote =>
    exact ⟨ok, wrote.readable kept.readable, kept.counted, ⟨known, reads, held⟩, before, before'⟩

/-! Where the values of a variable come from. -/

def Through (f : Conversion) (values : Set UInt32) (value : UInt32) : Prop :=
  ∃ v ∈ values, value = v ∨ value = f.throughDouble v

theorem Through.again {values : Set UInt32} {value : UInt32} (through : Through f values value) :
    Through f values (f.throughDouble value) := by
  obtain ⟨v, mem, same | twice⟩ := through
  · exact ⟨v, mem, .inr (by rw [same])⟩
  · exact ⟨v, mem, .inr (by rw [twice, f.settles])⟩

structure From (c : Config) (a : AdcsConfig c) (f : Conversion) (cell : σ → Nat → Option UInt32)
    (j : Nat) (values : Set UInt32) (sys : System σ) : Prop where
  stored : ∃ value, voted c (cell sys.store) j = some value ∧ Through f values value
  held : ∀ x i value, a.index c x + i = j → sys.locals (x, i) = some value → Through f values value

theorem From.wrote {j index : Nat} {values : Set UInt32} {value : UInt32}
    (came : From c a f cell j values sys) (bound : j < c.datStatusLastAddress)
    (wrote : Wrote c cell sys.store index value s) (own : j = index → Through f values value)
    {job : List Op} : From c a f cell j values { sys with store := s, job := job } := by
  refine ⟨?_, came.held⟩
  simp only [wrote j bound]
  split
  · rename_i same
    exact ⟨value, rfl, own same⟩
  · exact came.stored

theorem From.step {j : Nat} {values : Set UInt32} (came : From c a f cell j values sys)
    (bound : j < c.datStatusLastAddress) (other : j ≠ a.datRtcDateTime)
    (writes : ∀ value, action = .write j value → value ∈ values)
    (stepped : Stepped c a f cell sys action sys') : From c a f cell j values sys' := by
  cases stepped with
  | tick idle => exact ⟨came.stored, came.held⟩
  | assertion next => exact ⟨came.stored, came.held⟩
  | @get time x i job value next read =>
    refine ⟨came.stored, fun y k held at_j here => ?_⟩
    dsimp only at here
    by_cases same : (y, k) = (x, i)
    · cases same
      rw [Function.update_self] at here
      cases here
      obtain ⟨stored, there, through⟩ := came.stored
      rw [← at_j] at there
      cases there.symm.trans read
      exact through
    · rw [Function.update_of_ne same] at here
      exact came.held y k held at_j here
  | @set time x i job value s next own held wrote =>
    exact came.wrote bound wrote fun same => (came.held x i value same.symm held).again
  | dateTime next wrote => exact came.wrote bound wrote fun same => absurd same other
  | mode next => exact ⟨came.stored, came.held⟩
  | send next => exact ⟨came.stored, came.held⟩
  | @write index value s wrote =>
    have kept : From c a f cell j values { sys with store := s, job := sys.job } :=
      came.wrote bound wrote fun same => ⟨value, writes value (by rw [same]), .inl rfl⟩
    exact kept

/-! Whole runs. -/

end Steps

section Sqlite
open SqliteStorage SqliteFlightPlan

end Sqlite

end AdcsTask
