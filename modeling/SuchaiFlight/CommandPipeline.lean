import SuchaiFlight.Library.BoundedQueue
import SuchaiFlight.Library.Runs
import SuchaiFlight.RepoCommand
import Mathlib.Logic.Function.Basic
import Mathlib.Tactic.Common

/-!
The command pipeline: the tasks that call `cmd_send`, `taskDispatcher.c` and
`taskExecuter.c`, over the three queues that `suchai_main` creates. A step of a
task is one queue operation or one access to the data repository; the steps of
all tasks interleave freely. `C` stands for the commands and `ι` for the tasks
that send them.
-/
namespace CommandPipeline
open BoundedQueues Runs RepoCommand

/-- A command that `dispatcher_queue` has accepted, with its place in the order
    of acceptance. The place tells apart two commands with the same contents. -/
structure Sent (C : Type) where
  number : Nat
  cmd : C
  deriving DecidableEq

inductive Dispatcher (C : Type) where
  | receiving
  | received (newCmd : Sent C)
  | counting (newCmd : Sent C) (executedCmds : Int32)
  | sending (newCmd : Sent C)
  | awaiting
  | failed
  | countingFailed (failedCmds : Int32)
  deriving DecidableEq

/-- Where `taskExecuter` stands. In `blocked` the function of the command waits
    in its own call of `cmd_send`. -/
inductive Executer (C : Type) where
  | receiving
  | received (runCmd : Sent C)
  | running (runCmd : Sent C)
  | blocked (runCmd : Sent C) (cmd : C)
  | returned (cmdStat : Int32)
  deriving DecidableEq

/-- What happened so far. A result is read together with the command that was
    last handed over at that moment. -/
structure History (C : Type) where
  accepted : List (Sent C)
  handed : List (Sent C)
  called : List (Sent C)
  returned : List (Sent C × Int32)
  read : List (Option (Sent C) × Int32)
  deriving DecidableEq

/-- `clients i` is what task `i` still has to send; `none` is a `NULL` command. -/
structure System (ι C : Type) (capacity : Nat) where
  clients : ι → List (Option C)
  dispatcherQueue : BoundedQueue (Sent C) capacity
  executerCmdQueue : BoundedQueue (Sent C) 1
  executerStatQueue : BoundedQueue Int32 1
  dispatcher : Dispatcher C
  executer : Executer C
  datObcExecutedCmds : Int32
  datObcFailedCmds : Int32
  history : History C

/-- A step of a client, of the dispatcher or of the executer. While a command
    runs the executer's steps are those of its function: calls of `cmd_send` in
    any number, and the return with some result. -/
inductive Step (ι C : Type) where
  | client (i : ι)
  | dispatcher
  | executer
  | functionSends (cmd : Option C)
  | functionReturns (cmdStat : Int32)

variable {ι C : Type} {capacity : Nat}

def start (capacity : Nat) (clients : ι → List (Option C)) (executed failed : Int32) :
    System ι C capacity :=
  { clients := clients
    dispatcherQueue := empty
    executerCmdQueue := empty
    executerStatQueue := empty
    dispatcher := .receiving
    executer := .receiving
    datObcExecutedCmds := executed
    datObcFailedCmds := failed
    history := ⟨[], [], [], [], []⟩ }

def cmdSend (s : System ι C capacity) (cmd : C) : Option (System ι C capacity) := do
  let sent : Sent C := ⟨s.history.accepted.length, cmd⟩
  let queue ← send s.dispatcherQueue sent
  some { s with dispatcherQueue := queue
                history := { s.history with accepted := s.history.accepted ++ [sent] } }

def clientStep [DecidableEq ι] (s : System ι C capacity) (i : ι) : Option (System ι C capacity) :=
  match s.clients i with
  | [] => none
  | none :: rest => some { s with clients := Function.update s.clients i rest }
  | some cmd :: rest => do
    let s ← cmdSend s cmd
    some { s with clients := Function.update s.clients i rest }

def checkIfExecutable (_ : Sent C) : Bool := true

def dispatcherStep (s : System ι C capacity) : Option (System ι C capacity) :=
  match s.dispatcher with
  | .receiving => do
    let (newCmd, queue) ← receive s.dispatcherQueue
    some { s with dispatcherQueue := queue, dispatcher := .received newCmd }
  | .received newCmd =>
    if checkIfExecutable newCmd then
      some { s with dispatcher := .counting newCmd s.datObcExecutedCmds }
    else some { s with dispatcher := .receiving }
  | .counting newCmd executedCmds =>
    some { s with datObcExecutedCmds := executedCmds + 1, dispatcher := .sending newCmd }
  | .sending newCmd => do
    let queue ← send s.executerCmdQueue newCmd
    some { s with executerCmdQueue := queue
                  dispatcher := .awaiting
                  history := { s.history with handed := s.history.handed ++ [newCmd] } }
  | .awaiting => do
    let (cmdResult, queue) ← receive s.executerStatQueue
    let read := s.history.read ++ [(s.history.handed.getLast?, cmdResult)]
    some { s with executerStatQueue := queue
                  dispatcher := if cmdResult ≠ cmdOk then .failed else .receiving
                  history := { s.history with read := read } }
  | .failed => some { s with dispatcher := .countingFailed s.datObcFailedCmds }
  | .countingFailed failedCmds =>
    some { s with datObcFailedCmds := failedCmds + 1, dispatcher := .receiving }

def executerStep (s : System ι C capacity) : Option (System ι C capacity) :=
  match s.executer with
  | .receiving => do
    let (runCmd, queue) ← receive s.executerCmdQueue
    some { s with executerCmdQueue := queue, executer := .received runCmd }
  | .received runCmd =>
    some { s with executer := .running runCmd
                  history := { s.history with called := s.history.called ++ [runCmd] } }
  | .running _ => none
  | .blocked runCmd cmd => do
    let s ← cmdSend s cmd
    some { s with executer := .running runCmd }
  | .returned cmdStat => do
    let queue ← send s.executerStatQueue cmdStat
    some { s with executerStatQueue := queue, executer := .receiving }

/-- A call of `cmd_send` inside the running function waits when the queue is
    full, and with it the executer. -/
def functionSendsStep (s : System ι C capacity) (cmd : Option C) : Option (System ι C capacity) :=
  match s.executer, cmd with
  | .running _, none => some s
  | .running runCmd, some cmd =>
    match cmdSend s cmd with
    | some s => some s
    | none => some { s with executer := .blocked runCmd cmd }
  | _, _ => none

def functionReturnsStep (s : System ι C capacity) (cmdStat : Int32) :
    Option (System ι C capacity) :=
  match s.executer with
  | .running runCmd =>
    some { s with executer := .returned cmdStat
                  history := { s.history with
                    returned := s.history.returned ++ [(runCmd, cmdStat)] } }
  | _ => none

def step [DecidableEq ι] (s : System ι C capacity) : Step ι C → Option (System ι C capacity)
  | .client i => clientStep s i
  | .dispatcher => dispatcherStep s
  | .executer => executerStep s
  | .functionSends cmd => functionSendsStep s cmd
  | .functionReturns cmdStat => functionReturnsStep s cmdStat

/-! Every accepted command is at one place. -/

def holding : Dispatcher C → List (Sent C)
  | .received newCmd => [newCmd]
  | .counting newCmd _ => [newCmd]
  | .sending newCmd => [newCmd]
  | _ => []

def fetched : Executer C → List (Sent C)
  | .received runCmd => [runCmd]
  | _ => []

def executing : Executer C → List (Sent C)
  | .running runCmd => [runCmd]
  | .blocked runCmd _ => [runCmd]
  | _ => []

def finished : Executer C → List Int32
  | .returned cmdStat => [cmdStat]
  | _ => []

def outstanding : Dispatcher C → Nat
  | .awaiting => 1
  | _ => 0

def inFlight (s : System ι C capacity) : Nat :=
  s.executerCmdQueue.items.length + (fetched s.executer).length + (executing s.executer).length +
    (finished s.executer).length + s.executerStatQueue.items.length

def asRead (result : Sent C × Int32) : Option (Sent C) × Int32 := (some result.1, result.2)

structure Flow (s : System ι C capacity) : Prop where
  numbered : s.history.accepted.map Sent.number = List.range s.history.accepted.length
  accepted_eq : s.history.accepted =
    s.history.handed ++ holding s.dispatcher ++ s.dispatcherQueue.items
  handed_eq : s.history.handed =
    s.history.called ++ fetched s.executer ++ s.executerCmdQueue.items
  called_eq : s.history.called = s.history.returned.map Prod.fst ++ executing s.executer
  unread : ∃ results : List (Sent C × Int32),
    s.history.returned.map asRead = s.history.read ++ results.map asRead ∧
      results.map Prod.snd = s.executerStatQueue.items ++ finished s.executer
  flight : inFlight s = outstanding s.dispatcher

theorem flow_start (capacity : Nat) (clients : ι → List (Option C)) (executed failed : Int32) :
    Flow (start capacity clients executed failed) where
  numbered := rfl
  accepted_eq := rfl
  handed_eq := rfl
  called_eq := rfl
  unread := ⟨[], rfl, rfl⟩
  flight := rfl

theorem cmdSend_eq_some {s t : System ι C capacity} {cmd : C} (sent : cmdSend s cmd = some t) :
    ∃ queue, queue.items = s.dispatcherQueue.items ++ [⟨s.history.accepted.length, cmd⟩] ∧
      t = { s with dispatcherQueue := queue
                   history := { s.history with
                     accepted := s.history.accepted ++ [⟨s.history.accepted.length, cmd⟩] } } := by
  obtain ⟨queue, room, eq⟩ := Option.bind_eq_some_iff.mp sent
  cases eq
  exact ⟨queue, send_eq_some room, rfl⟩

theorem cmdSend_eq_none_iff {s : System ι C capacity} {cmd : C} :
    cmdSend s cmd = none ↔ Full s.dispatcherQueue := by
  simp only [cmdSend, Option.bind_eq_bind, Option.bind_eq_none_iff, reduceCtorEq, imp_false]
  rw [← Option.eq_none_iff_forall_ne_some, send_eq_none_iff]

theorem Flow.cmdSend {s t : System ι C capacity} (flow : Flow s) {cmd : C}
    (sent : cmdSend s cmd = some t) : Flow t := by
  obtain ⟨queue, items, rfl⟩ := cmdSend_eq_some sent
  constructor
  case numbered => simp [flow.numbered, List.range_succ]
  case accepted_eq => simp only [items, ← List.append_assoc, ← flow.accepted_eq]
  case handed_eq => exact flow.handed_eq
  case called_eq => exact flow.called_eq
  case unread => exact flow.unread
  case flight => exact flow.flight

theorem Flow.clientStep [DecidableEq ι] {s t : System ι C capacity} (flow : Flow s) {i : ι}
    (stepped : clientStep s i = some t) : Flow t := by
  simp only [CommandPipeline.clientStep] at stepped
  split at stepped
  · cases stepped
  · cases stepped
    exact { flow with }
  · obtain ⟨u, sent, eq⟩ := Option.bind_eq_some_iff.mp stepped
    cases eq
    exact { flow.cmdSend sent with }

theorem Flow.result {s : System ι C capacity} (flow : Flow s) {value : Int32} {rest : List Int32}
    (items : s.executerStatQueue.items = value :: rest) :
    ∃ cmd, s.history.handed.getLast? = some cmd ∧ rest = [] ∧ finished s.executer = [] ∧
      s.history.returned.map asRead = s.history.read ++ [asRead (cmd, value)] := by
  have atMostOne : inFlight s ≤ 1 := by
    rw [flow.flight]
    cases s.dispatcher <;> simp [outstanding]
  simp only [inFlight, items, List.length_cons] at atMostOne
  have noCmd : s.executerCmdQueue.items = [] := List.eq_nil_of_length_eq_zero (by omega)
  have noFetched : fetched s.executer = [] := List.eq_nil_of_length_eq_zero (by omega)
  have noExecuting : executing s.executer = [] := List.eq_nil_of_length_eq_zero (by omega)
  have noFinished : finished s.executer = [] := List.eq_nil_of_length_eq_zero (by omega)
  have noRest : rest = [] := List.eq_nil_of_length_eq_zero (by omega)
  obtain ⟨results, returned_eq, values⟩ := flow.unread
  rw [items, noFinished, noRest] at values
  obtain ⟨⟨cmd, result⟩, rfl, same⟩ := List.map_eq_singleton_iff.mp values
  have same : result = value := same
  subst same
  have last : (s.history.returned.map asRead).getLast? = some (asRead (cmd, result)) := by
    rw [returned_eq]
    simp
  have lastCmd : (s.history.returned.map Prod.fst).getLast? = some cmd := by
    simp only [List.getLast?_map, Option.map_eq_some_iff, asRead, Prod.mk.injEq] at last ⊢
    obtain ⟨⟨a, b⟩, mem, same, -⟩ := last
    exact ⟨(a, b), mem, Option.some.inj same⟩
  refine ⟨cmd, ?_, noRest, noFinished, returned_eq⟩
  rw [flow.handed_eq, flow.called_eq, noFetched, noExecuting, noCmd]
  simpa using lastCmd

theorem Flow.dispatcherMoves {s : System ι C capacity} (flow : Flow s) {next : Dispatcher C}
    (held : holding next = holding s.dispatcher)
    (out : outstanding next = outstanding s.dispatcher) (executed failed : Int32) :
    Flow { s with dispatcher := next
                  datObcExecutedCmds := executed
                  datObcFailedCmds := failed } where
  numbered := flow.numbered
  accepted_eq := by
    rw [held]
    exact flow.accepted_eq
  handed_eq := flow.handed_eq
  called_eq := flow.called_eq
  unread := flow.unread
  flight := flow.flight.trans out.symm

theorem Flow.executerMoves {s : System ι C capacity} (flow : Flow s) {next : Executer C}
    (sameFetched : fetched next = fetched s.executer)
    (sameExecuting : executing next = executing s.executer)
    (sameFinished : finished next = finished s.executer) : Flow { s with executer := next } where
  numbered := flow.numbered
  accepted_eq := flow.accepted_eq
  handed_eq := by
    rw [sameFetched]
    exact flow.handed_eq
  called_eq := by
    rw [sameExecuting]
    exact flow.called_eq
  unread := by
    rw [sameFinished]
    exact flow.unread
  flight := by
    unfold inFlight
    rw [sameFetched, sameExecuting, sameFinished]
    exact flow.flight

theorem Flow.dispatcherStep {s t : System ι C capacity} (flow : Flow s)
    (stepped : dispatcherStep s = some t) : Flow t := by
  have whole := flow
  obtain ⟨numbered, accepted_eq, handed_eq, called_eq, unread, flight⟩ := flow
  cases phase : s.dispatcher <;>
    simp only [CommandPipeline.dispatcherStep, phase, checkIfExecutable, ↓reduceIte] at stepped
  case receiving =>
    obtain ⟨⟨newCmd, queue⟩, received, eq⟩ := Option.bind_eq_some_iff.mp stepped
    cases eq
    have items := receive_eq_some received
    refine ⟨numbered, ?_, handed_eq, called_eq, unread, ?_⟩
    · simpa [holding, phase, items] using accepted_eq
    · simpa [inFlight, outstanding, phase] using flight
  case received newCmd =>
    cases stepped
    exact whole.dispatcherMoves (by rw [phase]; rfl) (by rw [phase]; rfl) _ _
  case counting newCmd executedCmds =>
    cases stepped
    exact whole.dispatcherMoves (by rw [phase]; rfl) (by rw [phase]; rfl) _ _
  case sending newCmd =>
    obtain ⟨queue, sent, eq⟩ := Option.bind_eq_some_iff.mp stepped
    cases eq
    have items := send_eq_some sent
    refine ⟨numbered, ?_, ?_, called_eq, unread, ?_⟩
    · simpa [holding, phase] using accepted_eq
    · simp [items, handed_eq]
    · simp only [inFlight, phase, outstanding] at flight
      simp only [inFlight, outstanding, items, List.length_append, List.length_singleton]
      omega
  case awaiting =>
    obtain ⟨⟨cmdResult, queue⟩, received, eq⟩ := Option.bind_eq_some_iff.mp stepped
    cases eq
    have items := receive_eq_some received
    obtain ⟨cmd, last, noRest, noFinished, returned_eq⟩ := whole.result items
    have idle : ∀ next : Dispatcher C, next = (if cmdResult ≠ cmdOk then .failed else .receiving) →
        holding next = [] ∧ outstanding next = 0 := by
      rintro next rfl
      split <;> exact ⟨rfl, rfl⟩
    obtain ⟨noneHeld, noneOut⟩ := idle _ rfl
    refine ⟨numbered, ?_, handed_eq, called_eq, ⟨[], ?_, ?_⟩, ?_⟩
    · rw [noneHeld]
      simpa [holding, phase] using accepted_eq
    · simpa [last, asRead] using returned_eq
    · simp [noRest, noFinished]
    · simp only [inFlight, phase, outstanding, items, noRest, List.length_singleton] at flight
      simp only [inFlight, noneOut, noRest, List.length_nil]
      omega
  case failed =>
    cases stepped
    exact whole.dispatcherMoves (by rw [phase]; rfl) (by rw [phase]; rfl) _ _
  case countingFailed failedCmds =>
    cases stepped
    exact whole.dispatcherMoves (by rw [phase]; rfl) (by rw [phase]; rfl) _ _

theorem Flow.executerStep {s t : System ι C capacity} (flow : Flow s)
    (stepped : executerStep s = some t) : Flow t := by
  have whole := flow
  obtain ⟨numbered, accepted_eq, handed_eq, called_eq, unread, flight⟩ := flow
  cases phase : s.executer <;>
    simp only [CommandPipeline.executerStep, phase] at stepped <;>
    simp only [phase, fetched, executing, finished] at handed_eq called_eq unread
  case receiving =>
    obtain ⟨⟨runCmd, queue⟩, received, eq⟩ := Option.bind_eq_some_iff.mp stepped
    cases eq
    have items := receive_eq_some received
    refine ⟨numbered, accepted_eq, ?_, called_eq, unread, ?_⟩
    · simpa [fetched, items] using handed_eq
    · simp only [← flight, inFlight, fetched, executing, finished, phase, items, List.length_cons,
        List.length_nil]
  case received runCmd =>
    cases stepped
    refine ⟨numbered, accepted_eq, ?_, ?_, unread, ?_⟩
    · simpa [fetched] using handed_eq
    · simpa [executing] using called_eq
    · simpa [inFlight, fetched, executing, finished, phase] using flight
  case running runCmd => cases stepped
  case blocked runCmd cmd =>
    obtain ⟨u, sent, eq⟩ := Option.bind_eq_some_iff.mp stepped
    cases eq
    have later := whole.cmdSend sent
    obtain ⟨queue, items, rfl⟩ := cmdSend_eq_some sent
    exact later.executerMoves (by rw [phase]; rfl) (by rw [phase]; rfl) (by rw [phase]; rfl)
  case returned cmdStat =>
    obtain ⟨queue, sent, eq⟩ := Option.bind_eq_some_iff.mp stepped
    cases eq
    have items := send_eq_some sent
    refine ⟨numbered, accepted_eq, handed_eq, called_eq, ?_, ?_⟩
    · simpa [items, finished] using unread
    · simp only [← flight, inFlight, fetched, executing, finished, phase, items,
        List.length_append, List.length_cons, List.length_nil]
      omega

theorem Flow.functionSendsStep {s t : System ι C capacity} (flow : Flow s) {cmd : Option C}
    (stepped : functionSendsStep s cmd = some t) : Flow t := by
  simp only [CommandPipeline.functionSendsStep] at stepped
  split at stepped
  · cases stepped
    exact flow
  · rename_i runCmd cmd phase
    split at stepped
    · rename_i u sent
      cases stepped
      exact flow.cmdSend sent
    · cases stepped
      exact flow.executerMoves (by rw [phase]; rfl) (by rw [phase]; rfl) (by rw [phase]; rfl)
  · cases stepped

theorem Flow.functionReturnsStep {s t : System ι C capacity} (flow : Flow s) {cmdStat : Int32}
    (stepped : functionReturnsStep s cmdStat = some t) : Flow t := by
  simp only [CommandPipeline.functionReturnsStep] at stepped
  split at stepped
  · rename_i runCmd phase
    cases stepped
    obtain ⟨numbered, accepted_eq, handed_eq, called_eq, unread, flight⟩ := flow
    simp only [phase, fetched, executing, finished] at handed_eq called_eq unread
    obtain ⟨results, returned_eq, values⟩ := unread
    refine ⟨numbered, accepted_eq, by simpa [fetched] using handed_eq, ?_,
      ⟨results ++ [(runCmd, cmdStat)], ?_, ?_⟩, ?_⟩
    · simpa [executing] using called_eq
    · simp [returned_eq]
    · simp [values, finished]
    · simpa [inFlight, fetched, executing, finished, phase] using flight
  · cases stepped

theorem Flow.step [DecidableEq ι] {s t : System ι C capacity} (flow : Flow s) {a : Step ι C}
    (stepped : step s a = some t) : Flow t := by
  cases a with
  | client i => exact flow.clientStep stepped
  | dispatcher => exact flow.dispatcherStep stepped
  | executer => exact flow.executerStep stepped
  | functionSends cmd => exact flow.functionSendsStep stepped
  | functionReturns cmdStat => exact flow.functionReturnsStep stepped

/-! The two counters. The dispatcher is their only writer, and it writes them
before it hands a command over and after it has read a result. -/

def ahead : Dispatcher C → Nat
  | .sending _ => 1
  | _ => 0

def behind : Dispatcher C → Nat
  | .failed => 1
  | .countingFailed _ => 1
  | _ => 0

def failures (s : System ι C capacity) : Nat :=
  s.history.read.countP fun result => result.2 ≠ cmdOk

structure Counted (executed failed : Int32) (s : System ι C capacity) : Prop where
  executed_eq : s.datObcExecutedCmds =
    executed + Int32.ofNat (s.history.handed.length + ahead s.dispatcher)
  executed_read : ∀ newCmd executedCmds, s.dispatcher = .counting newCmd executedCmds →
    executedCmds = s.datObcExecutedCmds
  failed_eq : s.datObcFailedCmds + Int32.ofNat (behind s.dispatcher) =
    failed + Int32.ofNat (failures s)
  failed_read : ∀ failedCmds, s.dispatcher = .countingFailed failedCmds →
    failedCmds = s.datObcFailedCmds

def dispatcherView (s : System ι C capacity) :=
  (s.dispatcher, s.datObcExecutedCmds, s.datObcFailedCmds, s.history.handed, s.history.read)

theorem cmdSend_dispatcherView {s t : System ι C capacity} {cmd : C}
    (sent : cmdSend s cmd = some t) : dispatcherView t = dispatcherView s := by
  obtain ⟨queue, -, rfl⟩ := cmdSend_eq_some sent
  rfl

theorem step_dispatcherView [DecidableEq ι] {s t : System ι C capacity} {a : Step ι C}
    (other : a ≠ .dispatcher) (stepped : step s a = some t) :
    dispatcherView t = dispatcherView s := by
  cases a with
  | dispatcher => exact absurd rfl other
  | client i =>
    simp only [step, clientStep] at stepped
    split at stepped
    · cases stepped
    · cases stepped
      rfl
    · obtain ⟨u, sent, eq⟩ := Option.bind_eq_some_iff.mp stepped
      have same := cmdSend_dispatcherView sent
      cases eq
      exact same
  | executer =>
    simp only [step, executerStep] at stepped
    split at stepped
    · obtain ⟨_, -, eq⟩ := Option.bind_eq_some_iff.mp stepped
      cases eq
      rfl
    · cases stepped
      rfl
    · cases stepped
    · obtain ⟨u, sent, eq⟩ := Option.bind_eq_some_iff.mp stepped
      have same := cmdSend_dispatcherView sent
      cases eq
      exact same
    · obtain ⟨_, -, eq⟩ := Option.bind_eq_some_iff.mp stepped
      cases eq
      rfl
  | functionSends cmd =>
    simp only [step, functionSendsStep] at stepped
    split at stepped
    · cases stepped
      rfl
    · split at stepped
      · cases stepped
        exact cmdSend_dispatcherView (by assumption)
      · cases stepped
        rfl
    · cases stepped
  | functionReturns cmdStat =>
    simp only [step, functionReturnsStep] at stepped
    split at stepped
    · cases stepped
      rfl
    · cases stepped

theorem counted_start (capacity : Nat) (clients : ι → List (Option C)) (executed failed : Int32) :
    Counted executed failed (start capacity clients executed failed) := by
  constructor <;> simp [start, ahead, behind, failures]

theorem Counted.of_dispatcherView {executed failed : Int32} {s t : System ι C capacity}
    (counted : Counted executed failed s) (same : dispatcherView t = dispatcherView s) :
    Counted executed failed t := by
  simp only [dispatcherView, Prod.mk.injEq] at same
  obtain ⟨phase, executedCmds, failedCmds, handed, read⟩ := same
  obtain ⟨executed_eq, executed_read, failed_eq, failed_read⟩ := counted
  constructor
  · rw [executedCmds, handed, phase, executed_eq]
  · rw [executedCmds, phase]
    exact executed_read
  · rw [failedCmds, phase, failed_eq, failures, failures, read]
  · rw [failedCmds, phase]
    exact failed_read

theorem Counted.dispatcherStep {executed failed : Int32} {s t : System ι C capacity}
    (counted : Counted executed failed s) (stepped : dispatcherStep s = some t) :
    Counted executed failed t := by
  obtain ⟨executed_eq, executed_read, failed_eq, failed_read⟩ := counted
  cases phase : s.dispatcher <;>
    simp only [CommandPipeline.dispatcherStep, phase, checkIfExecutable, ↓reduceIte] at stepped <;>
    simp only [phase, ahead, behind] at executed_eq failed_eq
  case receiving =>
    obtain ⟨_, -, eq⟩ := Option.bind_eq_some_iff.mp stepped
    cases eq
    exact ⟨executed_eq, nofun, failed_eq, nofun⟩
  case received newCmd =>
    cases stepped
    refine ⟨executed_eq, ?_, failed_eq, nofun⟩
    intro newCmd executedCmds eq
    cases eq
    rfl
  case counting newCmd executedCmds =>
    cases stepped
    refine ⟨?_, nofun, failed_eq, nofun⟩
    simp only [executed_read _ _ phase, executed_eq, ahead, Int32.ofNat_add]
    simp [Int32.add_assoc]
  case sending newCmd =>
    obtain ⟨_, -, eq⟩ := Option.bind_eq_some_iff.mp stepped
    cases eq
    refine ⟨?_, nofun, failed_eq, nofun⟩
    simpa [ahead] using executed_eq
  case awaiting =>
    obtain ⟨⟨cmdResult, queue⟩, -, eq⟩ := Option.bind_eq_some_iff.mp stepped
    cases eq
    by_cases ok : cmdResult = cmdOk
    · subst ok
      refine ⟨executed_eq, nofun, ?_, nofun⟩
      simpa [behind, failures, List.countP_append] using failed_eq
    · simp only [ne_eq, ok, not_false_eq_true, ↓reduceIte]
      refine ⟨executed_eq, nofun, ?_, nofun⟩
      simp [behind, failures, List.countP_append, ok] at failed_eq ⊢
      rw [failed_eq, Int32.add_assoc]
  case failed =>
    cases stepped
    refine ⟨executed_eq, nofun, failed_eq, ?_⟩
    intro failedCmds eq
    cases eq
    rfl
  case countingFailed failedCmds =>
    cases stepped
    refine ⟨executed_eq, nofun, ?_, nofun⟩
    rw [failed_read _ phase]
    simpa [behind, failures] using failed_eq

theorem Counted.step [DecidableEq ι] {executed failed : Int32} {s t : System ι C capacity}
    (counted : Counted executed failed s) {a : Step ι C} (stepped : step s a = some t) :
    Counted executed failed t := by
  by_cases own : a = .dispatcher
  · subst own
    exact counted.dispatcherStep stepped
  · exact counted.of_dispatcherView (step_dispatcherView own stepped)

/-! Every run. -/

theorem run_flow [DecidableEq ι] {clients : ι → List (Option C)} {executed failed : Int32}
    {actions : List (Step ι C)} {s : System ι C capacity}
    (reached : run step (start capacity clients executed failed) actions = some s) : Flow s :=
  run_invariant (fun _ _ _ flow stepped => flow.step stepped)
    (flow_start capacity clients executed failed) reached

/-- In every state of every run the commands are called in the order of their
    acceptance and none twice, at most one is in flight, every result is read
    for its own command, and the counters follow up to the dispatcher's own
    position between counting and handing over, or reading and counting. -/
theorem commands_in_order [DecidableEq ι] {clients : ι → List (Option C)} {executed failed : Int32}
    {actions : List (Step ι C)} {s : System ι C capacity}
    (reached : run step (start capacity clients executed failed) actions = some s) :
    s.history.called <+: s.history.accepted ∧
      (s.history.accepted.map Sent.number).Nodup ∧ (s.history.called.map Sent.number).Nodup ∧
      inFlight s ≤ 1 ∧
      s.history.read <+: s.history.returned.map asRead ∧
      s.datObcExecutedCmds =
        executed + Int32.ofNat (s.history.handed.length + ahead s.dispatcher) ∧
      s.datObcFailedCmds + Int32.ofNat (behind s.dispatcher) =
        failed + Int32.ofNat (failures s) := by
  have flow := run_flow reached
  have counted : Counted executed failed s :=
    run_invariant (fun _ _ _ counted stepped => Counted.step counted stepped)
      (counted_start capacity clients executed failed) reached
  have order : s.history.called <+: s.history.accepted := by
    rw [flow.accepted_eq, flow.handed_eq]
    simp only [List.append_assoc]
    exact List.prefix_append _ _
  have distinct : (s.history.accepted.map Sent.number).Nodup := by
    rw [flow.numbered]
    exact List.nodup_range
  have once : (s.history.called.map Sent.number).Nodup :=
    distinct.sublist (order.sublist.map Sent.number)
  have single : inFlight s ≤ 1 := by
    rw [flow.flight]
    cases s.dispatcher <;> simp [outstanding]
  obtain ⟨results, returned_eq, -⟩ := flow.unread
  have own : s.history.read <+: s.history.returned.map asRead :=
    ⟨results.map asRead, returned_eq.symm⟩
  exact ⟨order, distinct, once, single, own, counted.executed_eq, counted.failed_eq⟩

def failingCommand : List (Step Unit Unit) :=
  [.client (), .dispatcher, .dispatcher, .dispatcher, .dispatcher, .executer, .executer,
    .functionReturns 0, .executer, .dispatcher, .dispatcher, .dispatcher]

theorem failing_command_in_order :
    ∃ s : System Unit Unit 50,
      run step (start 50 (fun _ => [some ()]) 0 0) failingCommand = some s ∧
        s.history.called <+: s.history.accepted ∧
        s.datObcFailedCmds + Int32.ofNat (behind s.dispatcher) = 0 + Int32.ofNat (failures s) ∧
        s.datObcFailedCmds = 1 := by
  obtain ⟨s, reached, failed⟩ : ∃ s : System Unit Unit 50,
      run step (start 50 (fun _ => [some ()]) 0 0) failingCommand = some s ∧
        s.datObcFailedCmds = 1 := ⟨_, rfl, rfl⟩
  have result := commands_in_order reached
  exact ⟨s, reached, result.1, result.2.2.2.2.2.2, failed⟩

theorem counted_before_handover :
    ∃ s : System Unit Unit 50,
      run step (start 50 (fun _ => [some ()]) 0 0)
          [.client (), .dispatcher, .dispatcher, .dispatcher] = some s ∧
        s.datObcExecutedCmds ≠ 0 + Int32.ofNat s.history.handed.length :=
  ⟨_, rfl, by decide⟩

end CommandPipeline
