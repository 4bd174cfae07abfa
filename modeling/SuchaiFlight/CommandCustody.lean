import SuchaiFlight.PipelineDeadlock

/-!
Who may touch a `cmd_t` of the command pipeline. Every command has an owner,
which changes with each `osQueueSend` and `osQueueReceive` of its pointer, and a
freed mark. The pipeline's steps are taken apart where the order of a read, of a
hand-over and of `cmd_free` matters: the `LOGD` of `taskDispatcher` behind its
`osQueueSend` and the `cmd_free` of `taskExecuter` behind the call are steps of
their own, and a running function may change the log level.
-/
namespace CommandCustody
open BoundedQueues Runs CommandPipeline PipelineDeadlock

variable {ι C : Type} {capacity : Nat}

/-- `log_level_t`; `con_set_logger` casts any integer to it. -/
abbrev LogLevel := UInt32

def logLvlDebug : LogLevel := 5

inductive Party where
  | sender
  | dispatcher
  | executer
  deriving DecidableEq

/-- `owner n` is the owner of the command with number `n`, and `none` while its
    pointer is in a queue. `logging` is the command whose `LOGD` is ahead, and
    `toFree` the command whose `cmd_free` is ahead. -/
structure Tracked (ι C : Type) (capacity : Nat) where
  system : System ι C capacity
  logLvl : LogLevel
  logging : Option (Sent C)
  toFree : Option (Sent C)
  owner : Nat → Option Party
  freed : List (Sent C)

inductive Event (ι C : Type) where
  | pipeline (a : Step ι C)
  | logSet (level : LogLevel)

def start (capacity : Nat) (clients : ι → List (Option C)) (executed failed : Int32)
    (logLvl : LogLevel) : Tracked ι C capacity :=
  { system := CommandPipeline.start capacity clients executed failed
    logLvl := logLvl
    logging := none
    toFree := none
    owner := fun _ => some .sender
    freed := [] }

def passes (s : System ι C capacity) : Step ι C → Option (Nat × Option Party)
  | .client i =>
    match s.clients i with
    | some _ :: _ => some (s.history.accepted.length, none)
    | _ => none
  | .dispatcher =>
    match s.dispatcher with
    | .receiving => s.dispatcherQueue.items.head?.map fun cmd => (cmd.number, some .dispatcher)
    | .sending newCmd => some (newCmd.number, none)
    | _ => none
  | .executer =>
    match s.executer with
    | .receiving => s.executerCmdQueue.items.head?.map fun cmd => (cmd.number, some .executer)
    | .blocked _ _ => some (s.history.accepted.length, none)
    | _ => none
  | .functionSends (some _) =>
    if Full s.dispatcherQueue then none else some (s.history.accepted.length, none)
  | .functionSends none => none
  | .functionReturns _ => none

def passOn (owner : Nat → Option Party) : Option (Nat × Option Party) → Nat → Option Party
  | some (number, next) => Function.update owner number next
  | none => owner

def handsOver (s : System ι C capacity) : Step ι C → Option (Sent C)
  | .dispatcher =>
    match s.dispatcher with
    | .sending newCmd => some newCmd
    | _ => none
  | _ => none

def returns (s : System ι C capacity) : Step ι C → Option (Sent C)
  | .functionReturns _ =>
    match s.executer with
    | .running runCmd => some runCmd
    | _ => none
  | _ => none

def advance [DecidableEq ι] (t : Tracked ι C capacity) (a : Step ι C) :
    Option (Tracked ι C capacity) := do
  let s ← CommandPipeline.step t.system a
  some { t with system := s
                logging := (handsOver t.system a).or t.logging
                toFree := (returns t.system a).or t.toFree
                owner := passOn t.owner (passes t.system a) }

def step [DecidableEq ι] (t : Tracked ι C capacity) : Event ι C → Option (Tracked ι C capacity)
  | .logSet level =>
    match t.system.executer with
    | .running _ => some { t with logLvl := level }
    | _ => none
  | .pipeline .dispatcher =>
    match t.logging with
    | some _ => some { t with logging := none }
    | none => advance t .dispatcher
  | .pipeline .executer =>
    match t.toFree with
    | some runCmd => some { t with toFree := none, freed := t.freed ++ [runCmd] }
    | none => advance t .executer
  | .pipeline a => advance t a

/-- The commands whose fields a step reads, and the task that reads them. The
    dispatcher reads `new_cmd->id` in its `LOGD`; the executer reads the command
    that it calls, and `cmd->params` in `cmd_free`; while a function runs it may
    read its parameters. -/
def reads (t : Tracked ι C capacity) : Event ι C → List (Party × Sent C)
  | .pipeline .dispatcher =>
    match t.logging with
    | some newCmd => if logLvlDebug ≤ t.logLvl then [(.dispatcher, newCmd)] else []
    | none => []
  | .pipeline .executer =>
    match t.toFree with
    | some runCmd => [(.executer, runCmd)]
    | none =>
      (fetched t.system.executer ++ executing t.system.executer).map fun cmd => (.executer, cmd)
  | .pipeline (.client _) => []
  | _ => (executing t.system.executer).map fun cmd => (.executer, cmd)

def frees (t : Tracked ι C capacity) : Event ι C → Option (Sent C)
  | .pipeline .executer => t.toFree
  | _ => none

/-! Where the commands are. -/

def ownedBy (s : System ι C capacity) : Option Party → List (Sent C)
  | none => s.executerCmdQueue.items ++ s.dispatcherQueue.items
  | some .sender => []
  | some .dispatcher => holding s.dispatcher
  | some .executer =>
    s.history.returned.map Prod.fst ++ executing s.executer ++ fetched s.executer

theorem Flow.accepted_places {s : System ι C capacity} (flow : Flow s) :
    s.history.accepted = ownedBy s (some .executer) ++ s.executerCmdQueue.items ++
      ownedBy s (some .dispatcher) ++ s.dispatcherQueue.items := by
  rw [flow.accepted_eq, flow.handed_eq, flow.called_eq]
  rfl

theorem mem_accepted {s : System ι C capacity} (flow : Flow s) {owner : Option Party}
    {cmd : Sent C} (mem : cmd ∈ ownedBy s owner) : cmd ∈ s.history.accepted := by
  rw [Flow.accepted_places flow]
  match owner with
  | none =>
    rcases List.mem_append.mp mem with mem | mem
    · simp [mem]
    · simp [mem]
  | some .sender => cases mem
  | some .dispatcher => simp [mem]
  | some .executer => simp [mem]

theorem number_lt {s : System ι C capacity} (flow : Flow s) {cmd : Sent C}
    (mem : cmd ∈ s.history.accepted) : cmd.number < s.history.accepted.length := by
  have inRange : cmd.number ∈ s.history.accepted.map Sent.number := List.mem_map_of_mem mem
  rw [flow.numbered] at inRange
  exact List.mem_range.mp inRange

theorem places_nodup {s : System ι C capacity} (flow : Flow s) :
    ((ownedBy s (some .executer) ++ s.executerCmdQueue.items ++ ownedBy s (some .dispatcher) ++
      s.dispatcherQueue.items).map Sent.number).Nodup := by
  rw [← Flow.accepted_places flow, flow.numbered]
  exact List.nodup_range

/-- What a step does to the place of a command: it passes the command on to
    that place, or the command was there and its pointer is not passed on. -/
def Placed (s : System ι C capacity) (a : Step ι C) (owner : Option Party) (cmd : Sent C) : Prop :=
  passes s a = some (cmd.number, owner) ∨
    (cmd ∈ ownedBy s owner ∧ ∀ passed, passes s a = some passed → passed.1 ≠ cmd.number)

theorem placed_of_no_pass {s : System ι C capacity} {a : Step ι C} (quiet : passes s a = none)
    {owner : Option Party} {cmd : Sent C} (mem : cmd ∈ ownedBy s owner) : Placed s a owner cmd := by
  right
  constructor
  · exact mem
  · intro passed eq
    rw [quiet] at eq
    cases eq

theorem placed_of_other_pass {s : System ι C capacity} {a : Step ι C} {passed : Nat × Option Party}
    (pass : passes s a = some passed) {owner : Option Party} {cmd : Sent C}
    (other : passed.1 ≠ cmd.number) (mem : cmd ∈ ownedBy s owner) : Placed s a owner cmd := by
  right
  constructor
  · exact mem
  · intro found eq
    rw [pass] at eq
    cases eq
    exact other

theorem placed_of_accept {s t : System ι C capacity} {a : Step ι C} (flow : Flow s) {cmd : C}
    (accepts : passes s a = some (s.history.accepted.length, none)) (sent : cmdSend s cmd = some t)
    {owner : Option Party} {moved : Sent C} (mem : moved ∈ ownedBy t owner) :
    Placed s a owner moved := by
  obtain ⟨queue, items, rfl⟩ := cmdSend_eq_some sent
  have old : moved ∈ ownedBy s owner → Placed s a owner moved := by
    intro before
    exact placed_of_other_pass accepts (number_lt flow (mem_accepted flow before)).ne' before
  match owner with
  | none =>
    simp only [ownedBy, items, List.mem_append, List.mem_singleton] at mem
    rcases mem with queued | queued | rfl
    · exact old (List.mem_append_left _ queued)
    · exact old (List.mem_append_right _ queued)
    · exact .inl accepts
  | some .sender => cases mem
  | some .dispatcher => exact old mem
  | some .executer => exact old mem

theorem others_differ {before after : List (Sent C)} {cmd other : Sent C}
    (nodup : ((before ++ cmd :: after).map Sent.number).Nodup)
    (mem : other ∈ before ∨ other ∈ after) : cmd.number ≠ other.number := by
  rw [List.map_append, List.map_cons, List.nodup_middle, List.nodup_cons] at nodup
  intro same
  apply nodup.1
  rw [same, ← List.map_append]
  exact List.mem_map_of_mem (List.mem_append.mpr mem)

theorem placed_beside {s : System ι C capacity} {a : Step ι C} {before after : List (Sent C)}
    {passed cmd : Sent C} {next owner : Option Party}
    (pass : passes s a = some (passed.number, next))
    (nodup : ((before ++ passed :: after).map Sent.number).Nodup)
    (beside : cmd ∈ before ∨ cmd ∈ after) (mem : cmd ∈ ownedBy s owner) : Placed s a owner cmd := by
  have other : passed.number ≠ cmd.number := others_differ nodup beside
  exact placed_of_other_pass pass other mem

theorem placed_of_sameQueues {s t : System ι C capacity} {a : Step ι C} {owner : Option Party}
    {cmd : Sent C} (mem : cmd ∈ ownedBy t owner) (quiet : passes s a = none)
    (sameExecuter : t.executerCmdQueue = s.executerCmdQueue)
    (sameDispatcher : t.dispatcherQueue = s.dispatcherQueue)
    (sameHeld : ownedBy t (some .dispatcher) ⊆ ownedBy s (some .dispatcher))
    (sameDone : ownedBy t (some .executer) = ownedBy s (some .executer)) :
    Placed s a owner cmd := by
  apply placed_of_no_pass quiet
  match owner with
  | none =>
    rw [ownedBy, sameExecuter, sameDispatcher] at mem
    exact mem
  | some .sender => cases mem
  | some .dispatcher => exact sameHeld mem
  | some .executer =>
    rw [sameDone] at mem
    exact mem

theorem placed_dispatcherStep {s t : System ι C capacity} (flow : Flow s)
    (stepped : dispatcherStep s = some t) {owner : Option Party} {cmd : Sent C}
    (mem : cmd ∈ ownedBy t owner) : Placed s .dispatcher owner cmd := by
  have nodup := places_nodup flow
  cases phase : s.dispatcher <;>
    simp only [dispatcherStep, phase, checkIfExecutable, ↓reduceIte] at stepped
  case receiving =>
    obtain ⟨⟨newCmd, queue⟩, received, eq⟩ := Option.bind_eq_some_iff.mp stepped
    cases eq
    have items := receive_eq_some received
    have pass : passes s (.dispatcher : Step ι C) = some (newCmd.number, some .dispatcher) := by
      simp [passes, phase, items]
    rw [items] at nodup
    have old : cmd ∈ ownedBy s owner → cmd ∈ ownedBy s (some .executer) ∨
        cmd ∈ s.executerCmdQueue.items ∨ cmd ∈ queue.items → Placed s .dispatcher owner cmd := by
      intro before place
      apply placed_beside pass nodup _ before
      simp only [List.mem_append]
      rcases place with place | place | place
      · exact .inl (.inl (.inl place))
      · exact .inl (.inl (.inr place))
      · exact .inr place
    cases owner with
    | none =>
      rcases List.mem_append.mp mem with queued | queued
      · exact old (List.mem_append_left _ queued) (.inr (.inl queued))
      · apply old
        · simp only [ownedBy, items, List.mem_append, List.mem_cons]
          exact .inr (.inr queued)
        · exact .inr (.inr queued)
    | some party =>
      cases party with
      | sender => cases mem
      | dispatcher =>
        simp only [ownedBy, holding, List.mem_singleton] at mem
        subst mem
        exact .inl pass
      | executer => exact old mem (.inl mem)
  case sending newCmd =>
    obtain ⟨queue, sent, eq⟩ := Option.bind_eq_some_iff.mp stepped
    cases eq
    have items := send_eq_some sent
    have pass : passes s (.dispatcher : Step ι C) = some (newCmd.number, none) := by
      simp [passes, phase]
    have held : ownedBy s (some .dispatcher) = [newCmd] := by simp [ownedBy, holding, phase]
    rw [held, List.append_assoc, List.singleton_append] at nodup
    have old : cmd ∈ ownedBy s owner → cmd ∈ ownedBy s (some .executer) ∨
        cmd ∈ s.executerCmdQueue.items ∨ cmd ∈ s.dispatcherQueue.items →
        Placed s .dispatcher owner cmd := by
      intro before place
      apply placed_beside pass nodup _ before
      simp only [List.mem_append]
      rcases place with place | place | place
      · exact .inl (.inl place)
      · exact .inl (.inr place)
      · exact .inr place
    cases owner with
    | none =>
      simp only [ownedBy, items, List.mem_append, List.mem_singleton] at mem
      rcases mem with (queued | rfl) | queued
      · exact old (List.mem_append_left _ queued) (.inr (.inl queued))
      · exact .inl pass
      · exact old (List.mem_append_right _ queued) (.inr (.inr queued))
    | some party =>
      cases party with
      | sender => cases mem
      | dispatcher => cases mem
      | executer => exact old mem (.inl mem)
  case awaiting =>
    obtain ⟨⟨cmdResult, queue⟩, received, eq⟩ := Option.bind_eq_some_iff.mp stepped
    cases eq
    refine placed_of_sameQueues mem (by simp [passes, phase]) rfl rfl ?_ rfl
    intro cmd held
    simp only [ownedBy] at held
    split at held <;> cases held
  all_goals
    cases stepped
    exact placed_of_sameQueues mem (by simp [passes, phase]) rfl rfl
      (by simp [ownedBy, holding, phase]) rfl

theorem placed_executerStep {s t : System ι C capacity} (flow : Flow s)
    (stepped : executerStep s = some t) {owner : Option Party} {cmd : Sent C}
    (mem : cmd ∈ ownedBy t owner) : Placed s .executer owner cmd := by
  have nodup := places_nodup flow
  cases phase : s.executer <;> simp only [executerStep, phase] at stepped
  case receiving =>
    obtain ⟨⟨runCmd, queue⟩, received, eq⟩ := Option.bind_eq_some_iff.mp stepped
    cases eq
    have items := receive_eq_some received
    have pass : passes s (.executer : Step ι C) = some (runCmd.number, some .executer) := by
      simp [passes, phase, items]
    rw [items] at nodup
    simp only [List.append_assoc, List.cons_append] at nodup
    have old : cmd ∈ ownedBy s owner → cmd ∈ ownedBy s (some .executer) ∨ cmd ∈ queue.items ∨
        cmd ∈ ownedBy s (some .dispatcher) ∨ cmd ∈ s.dispatcherQueue.items →
        Placed s .executer owner cmd := by
      intro before place
      apply placed_beside pass nodup _ before
      simpa only [List.mem_append] using place
    cases owner with
    | none =>
      rcases List.mem_append.mp mem with queued | queued
      · apply old
        · simp only [ownedBy, items, List.mem_append, List.mem_cons]
          exact .inl (.inr queued)
        · exact .inr (.inl queued)
      · exact old (List.mem_append_right _ queued) (.inr (.inr (.inr queued)))
    | some party =>
      cases party with
      | sender => cases mem
      | dispatcher => exact old mem (.inr (.inr (.inl mem)))
      | executer =>
        simp only [ownedBy, executing, fetched, List.append_nil, List.mem_append,
          List.mem_singleton] at mem
        rcases mem with returned | rfl
        · have before : cmd ∈ ownedBy s (some .executer) := by simp [ownedBy, returned]
          exact old before (.inl before)
        · exact .inl pass
  case received runCmd =>
    cases stepped
    exact placed_of_sameQueues mem (by simp [passes, phase]) rfl rfl (List.Subset.refl _)
      (by simp [ownedBy, executing, fetched, phase])
  case running runCmd => cases stepped
  case blocked runCmd pending =>
    obtain ⟨u, sent, eq⟩ := Option.bind_eq_some_iff.mp stepped
    cases eq
    apply placed_of_accept flow (by simp [passes, phase]) sent
    have same : u.executer = s.executer := by
      obtain ⟨queue, -, rfl⟩ := cmdSend_eq_some sent
      rfl
    cases owner with
    | none => exact mem
    | some party =>
      cases party with
      | sender => cases mem
      | dispatcher => exact mem
      | executer => simpa [ownedBy, executing, fetched, same, phase] using mem
  case returned cmdStat =>
    obtain ⟨queue, sent, eq⟩ := Option.bind_eq_some_iff.mp stepped
    cases eq
    exact placed_of_sameQueues mem (by simp [passes, phase]) rfl rfl (List.Subset.refl _)
      (by simp [ownedBy, executing, fetched, phase])

theorem placed_step [DecidableEq ι] {s t : System ι C capacity} (flow : Flow s) {a : Step ι C}
    (stepped : CommandPipeline.step s a = some t) {owner : Option Party} {cmd : Sent C}
    (mem : cmd ∈ ownedBy t owner) : Placed s a owner cmd := by
  cases a with
  | client i =>
    simp only [CommandPipeline.step, clientStep] at stepped
    split at stepped
    · cases stepped
    · rename_i pending
      cases stepped
      exact placed_of_sameQueues mem (by simp [passes, pending]) rfl rfl (List.Subset.refl _) rfl
    · rename_i cmd rest pending
      obtain ⟨u, sent, eq⟩ := Option.bind_eq_some_iff.mp stepped
      cases eq
      exact placed_of_accept flow (by simp [passes, pending]) sent mem
  | dispatcher => exact placed_dispatcherStep flow stepped mem
  | executer => exact placed_executerStep flow stepped mem
  | functionSends sent =>
    simp only [CommandPipeline.step, functionSendsStep] at stepped
    split at stepped
    · cases stepped
      exact placed_of_sameQueues mem rfl rfl rfl (List.Subset.refl _) rfl
    · rename_i runCmd next phase
      split at stepped
      · rename_i u sent
        cases stepped
        apply placed_of_accept flow _ sent mem
        have room : ¬ Full s.dispatcherQueue := by
          intro full
          rw [cmdSend_eq_none_iff.mpr full] at sent
          cases sent
        simp [passes, room]
      · rename_i full
        cases stepped
        have full := cmdSend_eq_none_iff.mp full
        refine placed_of_sameQueues mem ?_ rfl rfl (List.Subset.refl _) ?_
        · simp [passes, full]
        · simp [ownedBy, executing, fetched, phase]
    · cases stepped
  | functionReturns cmdStat =>
    simp only [CommandPipeline.step, functionReturnsStep] at stepped
    split at stepped
    · rename_i runCmd phase
      cases stepped
      refine placed_of_sameQueues mem rfl rfl rfl (List.Subset.refl _) ?_
      simp [ownedBy, executing, fetched, phase]
    · cases stepped

/-! The ledger of owners and of freed commands. -/

def received (s : System ι C capacity) : List (Sent C) := ownedBy s (some .executer)

structure Custody (t : Tracked ι C capacity) : Prop where
  flow : Flow t.system
  owned : ∀ owner, ∀ cmd ∈ ownedBy t.system owner, t.owner cmd.number = owner
  freed_eq : t.freed ++ t.toFree.toList = t.system.history.returned.map Prod.fst
  toFree : ∀ cmd, t.toFree = some cmd → ∃ cmdStat, t.system.executer = .returned cmdStat
  logging : ∀ cmd, t.logging = some cmd →
    t.system.dispatcher = .awaiting ∧ t.system.history.handed.getLast? = some cmd

theorem custody_start (capacity : Nat) (clients : ι → List (Option C)) (executed failed : Int32)
    (logLvl : LogLevel) : Custody (start capacity clients executed failed logLvl) where
  flow := flow_start capacity clients executed failed
  owned := by
    intro owner cmd mem
    match owner with
    | none => cases mem
    | some .sender => cases mem
    | some .dispatcher => cases mem
    | some .executer => cases mem
  freed_eq := rfl
  toFree := nofun
  logging := nofun

theorem passOn_owned {s : System ι C capacity} {a : Step ι C} {owners : Nat → Option Party}
    (before : ∀ owner, ∀ cmd ∈ ownedBy s owner, owners cmd.number = owner) {owner : Option Party}
    {cmd : Sent C} (placed : Placed s a owner cmd) :
    passOn owners (passes s a) cmd.number = owner := by
  rcases placed with passed | ⟨mem, other⟩
  · simp [passed, passOn]
  · cases pass : passes s a with
    | none => exact before owner cmd mem
    | some passed =>
      have differs := other passed pass
      simp only [passOn, Function.update_of_ne differs.symm]
      exact before owner cmd mem

theorem step_returned [DecidableEq ι] {s t : System ι C capacity} {a : Step ι C}
    (stepped : CommandPipeline.step s a = some t) :
    t.history.returned.map Prod.fst = s.history.returned.map Prod.fst ++ (returns s a).toList := by
  have accepting : ∀ {u : System ι C capacity} {cmd : C}, cmdSend s cmd = some u →
      u.history.returned = s.history.returned := by
    intro u cmd sent
    obtain ⟨queue, -, rfl⟩ := cmdSend_eq_some sent
    rfl
  cases a with
  | client i =>
    simp only [CommandPipeline.step, clientStep] at stepped
    split at stepped
    · cases stepped
    · cases stepped
      simp [returns]
    · obtain ⟨u, sent, eq⟩ := Option.bind_eq_some_iff.mp stepped
      cases eq
      simp [returns, accepting sent]
  | dispatcher =>
    cases phase : s.dispatcher <;>
      simp only [CommandPipeline.step, dispatcherStep, phase, checkIfExecutable, ↓reduceIte]
        at stepped
    case receiving | sending | awaiting =>
      obtain ⟨_, -, eq⟩ := Option.bind_eq_some_iff.mp stepped
      cases eq
      simp [returns]
    all_goals
      cases stepped
      simp [returns]
  | executer =>
    cases phase : s.executer <;> simp only [CommandPipeline.step, executerStep, phase] at stepped
    case receiving | returned =>
      obtain ⟨_, -, eq⟩ := Option.bind_eq_some_iff.mp stepped
      cases eq
      simp [returns]
    case received =>
      cases stepped
      simp [returns]
    case running => cases stepped
    case blocked =>
      obtain ⟨u, sent, eq⟩ := Option.bind_eq_some_iff.mp stepped
      cases eq
      simp [returns, accepting sent]
  | functionSends sent =>
    simp only [CommandPipeline.step, functionSendsStep] at stepped
    split at stepped
    · cases stepped
      simp [returns]
    · split at stepped
      · rename_i u sent
        cases stepped
        simp [returns, accepting sent]
      · cases stepped
        simp [returns]
    · cases stepped
  | functionReturns cmdStat =>
    simp only [CommandPipeline.step, functionReturnsStep] at stepped
    split at stepped
    · rename_i runCmd phase
      cases stepped
      simp [returns, phase]
    · cases stepped

theorem returned_stays [DecidableEq ι] {s t : System ι C capacity} {a : Step ι C}
    (other : a ≠ .executer) (stepped : CommandPipeline.step s a = some t) {cmdStat : Int32}
    (phase : s.executer = .returned cmdStat) : t.executer = .returned cmdStat := by
  cases a with
  | client i => exact (clientStep_executer stepped).trans phase
  | dispatcher => exact (dispatcherStep_executer stepped).trans phase
  | executer => exact absurd rfl other
  | functionSends sent => simp [CommandPipeline.step, functionSendsStep, phase] at stepped
  | functionReturns result => simp [CommandPipeline.step, functionReturnsStep, phase] at stepped

theorem returns_eq_some [DecidableEq ι] {s t : System ι C capacity} {a : Step ι C} {runCmd : Sent C}
    (returned : returns s a = some runCmd) (stepped : CommandPipeline.step s a = some t) :
    s.executer = .running runCmd ∧ ∃ cmdStat, t.executer = .returned cmdStat := by
  cases a with
  | functionReturns cmdStat =>
    simp only [returns] at returned
    split at returned
    · rename_i cmd phase
      cases returned
      simp only [CommandPipeline.step, functionReturnsStep, phase] at stepped
      cases stepped
      exact ⟨phase, cmdStat, rfl⟩
    · cases returned
  | _ => cases returned

theorem handsOver_eq_some [DecidableEq ι] {s t : System ι C capacity} {a : Step ι C}
    {newCmd : Sent C} (handed : handsOver s a = some newCmd)
    (stepped : CommandPipeline.step s a = some t) :
    t.dispatcher = .awaiting ∧ t.history.handed.getLast? = some newCmd := by
  cases a with
  | dispatcher =>
    simp only [handsOver] at handed
    split at handed
    · rename_i cmd phase
      cases handed
      simp only [CommandPipeline.step, dispatcherStep, phase] at stepped
      obtain ⟨queue, -, eq⟩ := Option.bind_eq_some_iff.mp stepped
      cases eq
      exact ⟨rfl, List.getLast?_concat⟩
    · cases handed
  | _ => cases handed

theorem Custody.advance [DecidableEq ι] {t u : Tracked ι C capacity} (custody : Custody t)
    {a : Step ι C} (noLog : a = .dispatcher → t.logging = none)
    (noFree : a = .executer → t.toFree = none) (stepped : advance t a = some u) : Custody u := by
  obtain ⟨s, moved, eq⟩ := Option.bind_eq_some_iff.mp stepped
  cases eq
  have stillToFree : ∀ cmd, t.toFree = some cmd → returns t.system a = none ∧
      ∃ cmdStat, s.executer = .returned cmdStat := by
    intro cmd pending
    obtain ⟨cmdStat, phase⟩ := custody.toFree cmd pending
    have other : a ≠ .executer := by
      intro same
      rw [noFree same] at pending
      cases pending
    constructor
    · cases returned : returns t.system a with
      | none => rfl
      | some runCmd =>
        have running := (returns_eq_some returned moved).1
        rw [phase] at running
        cases running
    · exact ⟨cmdStat, returned_stays other moved phase⟩
  constructor
  case flow => exact custody.flow.step moved
  case owned =>
    intro owner cmd mem
    exact passOn_owned custody.owned (placed_step custody.flow moved mem)
  case freed_eq =>
    rw [step_returned moved, ← custody.freed_eq]
    cases pending : t.toFree with
    | none => simp
    | some cmd => simp [(stillToFree cmd pending).1]
  case toFree =>
    intro cmd pending
    rcases Option.or_eq_some_iff.mp pending with returned | ⟨-, pending⟩
    · exact (returns_eq_some returned moved).2
    · exact (stillToFree cmd pending).2
  case logging =>
    intro cmd ahead
    rcases Option.or_eq_some_iff.mp ahead with handed | ⟨-, ahead⟩
    · exact handsOver_eq_some handed moved
    · have other : a ≠ .dispatcher := by
        intro same
        rw [noLog same] at ahead
        cases ahead
      have same := step_dispatcherView other moved
      simp only [dispatcherView, Prod.mk.injEq] at same
      obtain ⟨samePhase, -, -, sameHanded, -⟩ := same
      rw [samePhase, sameHanded]
      exact custody.logging cmd ahead

/-- What a step of the tracked pipeline is: a log level set by the function that
    runs, the `LOGD` that the dispatcher is at, the `cmd_free` that the executer
    is at, or a step of the pipeline. -/
theorem step_cases [DecidableEq ι] {t u : Tracked ι C capacity} {e : Event ι C}
    (stepped : step t e = some u) :
    (∃ level runCmd, t.system.executer = .running runCmd ∧ u = { t with logLvl := level }) ∨
      (∃ newCmd, t.logging = some newCmd ∧ u = { t with logging := none }) ∨
      (∃ runCmd, t.toFree = some runCmd ∧
        u = { t with toFree := none, freed := t.freed ++ [runCmd] }) ∨
      ∃ a, (a = .dispatcher → t.logging = none) ∧ (a = .executer → t.toFree = none) ∧
        advance t a = some u := by
  cases e with
  | logSet level =>
    simp only [step] at stepped
    split at stepped
    · rename_i runCmd phase
      cases stepped
      exact .inl ⟨level, runCmd, phase, rfl⟩
    · cases stepped
  | pipeline a =>
    cases a with
    | dispatcher =>
      cases ahead : t.logging with
      | some newCmd =>
        simp only [step, ahead] at stepped
        cases stepped
        exact .inr (.inl ⟨newCmd, rfl, rfl⟩)
      | none =>
        simp only [step, ahead] at stepped
        exact .inr (.inr (.inr ⟨.dispatcher, fun _ => rfl, nofun, stepped⟩))
    | executer =>
      cases pending : t.toFree with
      | some runCmd =>
        simp only [step, pending] at stepped
        cases stepped
        exact .inr (.inr (.inl ⟨runCmd, rfl, rfl⟩))
      | none =>
        simp only [step, pending] at stepped
        exact .inr (.inr (.inr ⟨.executer, nofun, fun _ => rfl, stepped⟩))
    | client i => exact .inr (.inr (.inr ⟨.client i, nofun, nofun, stepped⟩))
    | functionSends sent => exact .inr (.inr (.inr ⟨.functionSends sent, nofun, nofun, stepped⟩))
    | functionReturns cmdStat =>
      exact .inr (.inr (.inr ⟨.functionReturns cmdStat, nofun, nofun, stepped⟩))

theorem Custody.step [DecidableEq ι] {t u : Tracked ι C capacity} (custody : Custody t)
    {e : Event ι C} (stepped : step t e = some u) : Custody u := by
  rcases step_cases stepped with ⟨level, runCmd, -, rfl⟩ | ⟨newCmd, -, rfl⟩ |
    ⟨runCmd, pending, rfl⟩ | ⟨a, noLog, noFree, moved⟩
  · exact { custody with }
  · exact { custody with logging := nofun }
  · have freed_eq := custody.freed_eq
    simp only [pending, Option.toList_some] at freed_eq
    exact { custody with freed_eq := by simpa using freed_eq, toFree := nofun }
  · exact custody.advance noLog noFree moved

theorem received_nodup {s : System ι C capacity} (flow : Flow s) :
    ((received s).map Sent.number).Nodup := by
  have nodup := places_nodup flow
  simp only [List.map_append, List.append_assoc] at nodup
  exact nodup.of_append_left

theorem Custody.freed_received {t : Tracked ι C capacity} (custody : Custody t) {cmd : Sent C}
    (mem : cmd ∈ t.freed) : cmd ∈ ownedBy t.system (some .executer) := by
  have returned : cmd ∈ t.freed ++ t.toFree.toList := List.mem_append_left _ mem
  rw [custody.freed_eq] at returned
  simp only [ownedBy, List.mem_append]
  exact .inl (.inl returned)

theorem Custody.in_hand {t : Tracked ι C capacity} (custody : Custody t) {cmd : Sent C}
    (mem : cmd ∈ t.toFree.toList ++ executing t.system.executer ++ fetched t.system.executer) :
    t.owner cmd.number = some .executer ∧ cmd ∉ t.freed := by
  have split : received t.system =
      t.freed ++ (t.toFree.toList ++ executing t.system.executer ++ fetched t.system.executer) := by
    rw [received, ownedBy, ← custody.freed_eq]
    simp only [List.append_assoc]
  have nodup := (received_nodup custody.flow).of_map
  rw [split] at nodup
  constructor
  · apply custody.owned (some .executer)
    show cmd ∈ received t.system
    rw [split]
    exact List.mem_append_right _ mem
  · intro freed
    exact List.disjoint_of_nodup_append nodup freed mem

theorem Custody.handed_over {t : Tracked ι C capacity} (custody : Custody t) {newCmd : Sent C}
    (ahead : t.logging = some newCmd) : t.owner newCmd.number ≠ some .dispatcher := by
  have handed : newCmd ∈ t.system.history.handed :=
    List.mem_of_getLast? (custody.logging newCmd ahead).2
  rw [custody.flow.handed_eq, custody.flow.called_eq] at handed
  simp only [List.mem_append] at handed
  rcases handed with ((returned | running) | fresh) | queued
  · rw [custody.owned (some .executer) newCmd (by simp [ownedBy, returned])]
    simp
  · rw [custody.owned (some .executer) newCmd (by simp [ownedBy, running])]
    simp
  · rw [custody.owned (some .executer) newCmd (by simp [ownedBy, fresh])]
    simp
  · rw [custody.owned none newCmd (by simp [ownedBy, queued])]
    simp

theorem Custody.only_one {t : Tracked ι C capacity} (custody : Custody t) {newCmd cmd : Sent C}
    (ahead : t.logging = some newCmd)
    (mem : cmd ∈ t.toFree.toList ++ executing t.system.executer) : cmd = newCmd := by
  obtain ⟨awaiting, last⟩ := custody.logging newCmd ahead
  have flight := custody.flow.flight
  simp only [inFlight, awaiting, outstanding] at flight
  rw [custody.flow.handed_eq, custody.flow.called_eq, ← custody.freed_eq] at last
  rcases List.mem_append.mp mem with pending | running
  · obtain ⟨cmdStat, phase⟩ := custody.toFree cmd (Option.mem_toList.mp pending)
    simp only [phase, fetched, executing, finished, List.length_nil, List.length_singleton] at flight
    have noCmd : t.system.executerCmdQueue.items = [] := List.eq_nil_of_length_eq_zero (by omega)
    simp only [Option.mem_toList.mp pending, phase, executing, fetched, noCmd, Option.toList_some,
      List.append_nil, List.getLast?_concat] at last
    exact Option.some.inj last
  · have pos := List.length_pos_of_mem running
    have noCmd : t.system.executerCmdQueue.items = [] := List.eq_nil_of_length_eq_zero (by omega)
    have noFetched : fetched t.system.executer = [] := List.eq_nil_of_length_eq_zero (by omega)
    obtain ⟨runCmd, single⟩ := List.length_eq_one_iff.mp
      (show (executing t.system.executer).length = 1 by omega)
    simp only [noCmd, noFetched, single, List.append_nil, List.getLast?_concat] at last
    rw [single] at running
    exact (List.mem_singleton.mp running).trans (Option.some.inj last)

def FreedOnce (t : Tracked ι C capacity) : Prop :=
  (t.freed.map Sent.number).Nodup ∧
    received t.system =
      t.freed ++ (t.toFree.toList ++ executing t.system.executer ++ fetched t.system.executer)

theorem Custody.freedOnce {t : Tracked ι C capacity} (custody : Custody t) : FreedOnce t := by
  have split : received t.system =
      t.freed ++ (t.toFree.toList ++ executing t.system.executer ++ fetched t.system.executer) := by
    rw [received, ownedBy, ← custody.freed_eq]
    simp only [List.append_assoc]
  have nodup := received_nodup custody.flow
  rw [split, List.map_append] at nodup
  exact ⟨nodup.of_append_left, split⟩

end CommandCustody
