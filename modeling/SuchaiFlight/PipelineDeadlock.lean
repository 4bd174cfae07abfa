import SuchaiFlight.CommandPipeline

/-!
The cycle of waits in the command pipeline. While a command runs, the
dispatcher waits for its result and takes nothing from `dispatcher_queue`, so a
command whose function sends to the full queue waits for itself.
-/
namespace PipelineDeadlock
open BoundedQueues Runs CommandPipeline

variable {ι C : Type} {capacity : Nat}

def ExecuterBlocked (s : System ι C capacity) : Prop :=
  (∃ runCmd cmd, s.executer = .blocked runCmd cmd) ∧ Full s.dispatcherQueue

def DispatcherBlocked (s : System ι C capacity) : Prop :=
  s.dispatcher = .awaiting ∧ s.executerStatQueue.items = []

def Deadlocked (s : System ι C capacity) : Prop := ExecuterBlocked s ∧ DispatcherBlocked s

/-- The condition on a step: a running function that calls `cmd_send` finds room. -/
def FindsRoom (s : System ι C capacity) (a : Step ι C) : Prop :=
  ∀ cmd, a = .functionSends (some cmd) → ¬ Full s.dispatcherQueue

theorem dispatcherBlocked_of_executing {s : System ι C capacity} (flow : Flow s) {runCmd : Sent C}
    (busy : runCmd ∈ executing s.executer) : DispatcherBlocked s := by
  have flight := flow.flight
  have pos := List.length_pos_of_mem busy
  simp only [inFlight] at flight
  cases phase : s.dispatcher <;> simp only [phase, outstanding] at flight
  case awaiting => exact ⟨phase, List.eq_nil_of_length_eq_zero (by omega)⟩
  all_goals omega

theorem clientStep_executer [DecidableEq ι] {s t : System ι C capacity} {i : ι}
    (stepped : clientStep s i = some t) : t.executer = s.executer := by
  simp only [clientStep] at stepped
  split at stepped
  · cases stepped
  · cases stepped
    rfl
  · obtain ⟨u, sent, eq⟩ := Option.bind_eq_some_iff.mp stepped
    obtain ⟨queue, -, rfl⟩ := cmdSend_eq_some sent
    cases eq
    rfl

theorem dispatcherStep_executer {s t : System ι C capacity}
    (stepped : dispatcherStep s = some t) : t.executer = s.executer := by
  cases phase : s.dispatcher <;>
    simp only [dispatcherStep, phase, checkIfExecutable, ↓reduceIte] at stepped
  case receiving | sending | awaiting =>
    obtain ⟨_, -, eq⟩ := Option.bind_eq_some_iff.mp stepped
    cases eq
    rfl
  all_goals
    cases stepped
    rfl

theorem becomes_blocked [DecidableEq ι] {s t : System ι C capacity} {a : Step ι C}
    (stepped : step s a = some t) {runCmd : Sent C} {cmd : C}
    (blocked : t.executer = .blocked runCmd cmd) :
    s.executer = .blocked runCmd cmd ∨
      (a = .functionSends (some cmd) ∧ Full s.dispatcherQueue) := by
  cases a with
  | client i => exact .inl ((clientStep_executer stepped).symm.trans blocked)
  | dispatcher => exact .inl ((dispatcherStep_executer stepped).symm.trans blocked)
  | executer =>
    simp only [step, executerStep] at stepped
    split at stepped
    case h_2 => cases stepped; cases blocked
    case h_3 => cases stepped
    all_goals
      obtain ⟨_, -, eq⟩ := Option.bind_eq_some_iff.mp stepped
      cases eq
      cases blocked
  | functionSends sent =>
    simp only [step, functionSendsStep] at stepped
    split at stepped
    · cases stepped
      exact .inl blocked
    · rename_i running next phase
      split at stepped
      · rename_i u sent
        obtain ⟨queue, -, rfl⟩ := cmdSend_eq_some sent
        cases stepped
        exact .inl blocked
      · rename_i full
        cases stepped
        cases blocked
        exact .inr ⟨rfl, cmdSend_eq_none_iff.mp full⟩
    · cases stepped
  | functionReturns cmdStat =>
    simp only [step, functionReturnsStep] at stepped
    split at stepped <;> cases stepped
    cases blocked

theorem deadlocked_of_full [DecidableEq ι] {s t : System ι C capacity} (flow : Flow s) {cmd : C}
    (full : Full s.dispatcherQueue) (stepped : step s (.functionSends (some cmd)) = some t) :
    Deadlocked t := by
  simp only [step, functionSendsStep, cmdSend_eq_none_iff.mpr full] at stepped
  split at stepped
  · rename_i absent
    cases absent
  · rename_i runCmd next phase same
    cases stepped
    have busy : runCmd ∈ executing s.executer := by simp [phase, executing]
    have waits := dispatcherBlocked_of_executing flow busy
    exact ⟨⟨⟨_, _, rfl⟩, full⟩, waits⟩
  · cases stepped

theorem deadlocked_step [DecidableEq ι] {s t : System ι C capacity} {a : Step ι C}
    (deadlocked : Deadlocked s) (stepped : step s a = some t) :
    Deadlocked t ∧ t.history = s.history := by
  obtain ⟨⟨⟨runCmd, cmd, phase⟩, full⟩, awaiting, noResult⟩ := deadlocked
  cases a with
  | client i =>
    simp only [step, clientStep, cmdSend_eq_none_iff.mpr full] at stepped
    split at stepped <;> cases stepped
    exact ⟨⟨⟨⟨runCmd, cmd, phase⟩, full⟩, awaiting, noResult⟩, rfl⟩
  | dispatcher =>
    simp only [step, dispatcherStep, awaiting] at stepped
    obtain ⟨⟨value, queue⟩, received, -⟩ := Option.bind_eq_some_iff.mp stepped
    have items := receive_eq_some received
    rw [noResult] at items
    cases items
  | executer =>
    simp only [step, executerStep, phase, cmdSend_eq_none_iff.mpr full] at stepped
    cases stepped
  | functionSends cmd => simp [step, functionSendsStep, phase] at stepped
  | functionReturns cmdStat => simp [step, functionReturnsStep, phase] at stepped

theorem deadlocked_forever [DecidableEq ι] {s t : System ι C capacity} {actions : List (Step ι C)}
    (deadlocked : Deadlocked s) (reached : run step s actions = some t) :
    Deadlocked t ∧ t.history = s.history := by
  refine run_invariant ?_ (I := fun u => Deadlocked u ∧ u.history = s.history)
    ⟨deadlocked, rfl⟩ reached
  intro u a v same stepped
  have next := deadlocked_step same.1 stepped
  exact ⟨next.1, next.2.trans same.2⟩

/-- A run is free of deadlock exactly when every `cmd_send` of a running
    function finds room in `dispatcher_queue`. -/
theorem deadlock_free_iff [DecidableEq ι] {clients : ι → List (Option C)}
    {executed failed : Int32} {actions : List (Step ι C)} {s : System ι C capacity}
    (possible : run step (start capacity clients executed failed) actions = some s) :
    Throughout step (fun t => ¬ Deadlocked t) (start capacity clients executed failed) actions ↔
      Along step FindsRoom (start capacity clients executed failed) actions := by
  constructor
  · intro live done a rest t split reached cmd call full
    subst split call
    rw [run_append, reached, Option.bind_some] at possible
    obtain ⟨next, stepped, -⟩ := Option.bind_eq_some_iff.mp possible
    have extended := run_trans reached (run_single stepped)
    exact live _ rest next (by simp) extended (deadlocked_of_full (run_flow reached) full stepped)
  · intro room
    have free : Throughout step (fun t => ∀ runCmd cmd, t.executer ≠ .blocked runCmd cmd)
        (start capacity clients executed failed) actions := by
      refine throughout_of_along ?_ (by simp [start]) room
      intro t a u free finds stepped runCmd cmd blocked
      rcases becomes_blocked stepped blocked with before | ⟨call, full⟩
      · exact free runCmd cmd before
      · exact finds cmd call full
    rintro done rest t split reached ⟨⟨⟨runCmd, cmd, blocked⟩, -⟩, -⟩
    exact free done rest t split reached runCmd cmd blocked

def nestedCommand : List (Step Unit Unit) :=
  [.client (), .dispatcher, .dispatcher, .dispatcher, .dispatcher, .executer, .executer,
    .functionSends (some ()), .functionReturns 1, .executer, .dispatcher]

theorem nested_command_live_iff :
    (run step (start 50 (fun _ => [some ()]) 0 0 : System Unit Unit 50) nestedCommand).isSome ∧
      (Throughout step (fun t => ¬ Deadlocked t)
          (start 50 (fun _ => [some ()]) 0 0 : System Unit Unit 50) nestedCommand ↔
        Along step FindsRoom (start 50 (fun _ => [some ()]) 0 0) nestedCommand) := by
  obtain ⟨s, reached⟩ : ∃ s : System Unit Unit 50,
      run step (start 50 (fun _ => [some ()]) 0 0) nestedCommand = some s := ⟨_, rfl⟩
  exact ⟨Option.isSome_of_eq_some reached, deadlock_free_iff reached⟩

/-! The deadlock can be reached with a queue of any length. -/

theorem first_called [DecidableEq ι] (pos : 0 < capacity) (clients : ι → List (Option C))
    (executed failed : Int32) (i : ι) {cmd : C} {rest : List (Option C)}
    (program : clients i = some cmd :: rest) :
    ∃ s, run step (start capacity clients executed failed)
        [.client i, .dispatcher, .dispatcher, .dispatcher, .dispatcher, .executer, .executer] =
          some s ∧
      s.clients i = rest ∧ s.dispatcherQueue.items = [] ∧ s.executer = .running ⟨0, cmd⟩ := by
  simp [run, step, start, clientStep, program, cmdSend, send, empty, pos, dispatcherStep,
    receive, checkIfExecutable, executerStep]

theorem client_sends [DecidableEq ι] {s : System ι C capacity} {i : ι} {cmd : C}
    {rest : List (Option C)} (program : s.clients i = some cmd :: rest)
    (room : s.dispatcherQueue.items.length < capacity) :
    ∃ t, step s (.client i) = some t ∧ t.clients i = rest ∧
      t.dispatcherQueue.items.length = s.dispatcherQueue.items.length + 1 ∧
      t.executer = s.executer := by
  have free : cmdSend s cmd ≠ none := by
    rw [Ne, cmdSend_eq_none_iff, Full]
    omega
  obtain ⟨u, sent⟩ := Option.ne_none_iff_exists'.mp free
  have stepped : step s (.client i) =
      some { u with clients := Function.update u.clients i rest } := by
    simp [step, clientStep, program, sent]
  obtain ⟨queue, items, rfl⟩ := cmdSend_eq_some sent
  exact ⟨_, stepped, Function.update_self _ _ _, by simp [items], rfl⟩

theorem clients_fill [DecidableEq ι] {s : System ι C capacity} {i : ι} {cmds : List C}
    (program : s.clients i = cmds.map some)
    (room : s.dispatcherQueue.items.length + cmds.length ≤ capacity) :
    ∃ t, run step s (List.replicate cmds.length (.client i)) = some t ∧
      t.dispatcherQueue.items.length = s.dispatcherQueue.items.length + cmds.length ∧
      t.executer = s.executer := by
  induction cmds generalizing s with
  | nil => exact ⟨s, rfl, rfl, rfl⟩
  | cons cmd rest ih =>
    simp only [List.length_cons] at room
    obtain ⟨u, stepped, later, more, kept⟩ := client_sends program (by omega)
    obtain ⟨t, reached, length, same⟩ := ih later (by omega)
    refine ⟨t, run_cons stepped reached, ?_, same.trans kept⟩
    simp only [length, more, List.length_cons]
    omega

/-- Whatever the length of the queue, two tasks deadlock the pipeline: a client
    that fills the queue, and a command that sends another. -/
theorem deadlock_reachable [DecidableEq ι] (pos : 0 < capacity) (i : ι) (cmd : C)
    (executed failed : Int32) :
    ∃ clients actions, ∃ s : System ι C capacity,
      run step (start capacity clients executed failed) actions = some s ∧ Deadlocked s := by
  let clients : ι → List (Option C) := fun _ => some cmd :: (List.replicate capacity cmd).map some
  have own : clients i = some cmd :: (List.replicate capacity cmd).map some := rfl
  obtain ⟨s, called, program, noItems, running⟩ := first_called pos clients executed failed i own
  have room : s.dispatcherQueue.items.length + (List.replicate capacity cmd).length ≤ capacity := by
    simp [noItems]
  obtain ⟨t, filled, length, same⟩ := clients_fill program room
  have full : Full t.dispatcherQueue := by simpa [Full, noItems] using length
  have sends : step t (.functionSends (some cmd)) =
      some { t with executer := .blocked ⟨0, cmd⟩ cmd } := by
    simp [step, functionSendsStep, same, running, cmdSend_eq_none_iff.mpr full]
  have reached := run_trans called filled
  exact ⟨clients, _, _, run_trans reached (run_single sends),
    deadlocked_of_full (run_flow reached) full sends⟩

theorem deadlock_in_default_build :
    ∃ clients actions, ∃ s : System Unit Unit 50,
      run step (start 50 clients 0 0) actions = some s ∧ Deadlocked s :=
  deadlock_reachable (by decide) () () 0 0

end PipelineDeadlock
