import SuchaiFlight.CommandCustody

/-!
Every step of the tracked pipeline reads and frees only what its task owns, as
long as nothing is logged at the debug level where the dispatcher has already
handed the command over.
-/
namespace CommandOwnership
open CommandPipeline hiding start step
open Runs CommandCustody

variable {ι C : Type} {capacity : Nat}

def MayStillRead [DecidableEq ι] (t : Tracked ι C capacity) (party : Party) (cmd : Sent C) : Prop :=
  ∃ events u e, run step t events = some u ∧ (step u e).isSome ∧ (party, cmd) ∈ reads u e

structure Respected [DecidableEq ι] (t : Tracked ι C capacity) (e : Event ι C) : Prop where
  own : ∀ party cmd, (party, cmd) ∈ reads t e → t.owner cmd.number = some party ∧ cmd ∉ t.freed
  once : ∀ cmd, frees t e = some cmd → cmd ∉ t.freed
  last : ∀ cmd u, frees t e = some cmd → step t e = some u →
    ∀ party, party ≠ .executer → ¬ MayStillRead u party cmd

/-- The condition on a step: no debug logging when the dispatcher comes to its
    `LOGD`, nor when the executer frees a command whose `LOGD` is ahead. -/
def Guarded (t : Tracked ι C capacity) (e : Event ι C) : Prop :=
  ∀ newCmd, t.logging = some newCmd → (e = .pipeline .dispatcher ∨ frees t e ≠ none) →
    t.logLvl < logLvlDebug

structure Quiet (cmd : Sent C) (t : Tracked ι C capacity) : Prop where
  custody : Custody t
  freed : cmd ∈ t.freed
  silent : t.logging = some cmd → t.logLvl < logLvlDebug

theorem handsOver_held {s : System ι C capacity} {a : Step ι C} {newCmd : Sent C}
    (handed : handsOver s a = some newCmd) : newCmd ∈ ownedBy s (some .dispatcher) := by
  cases a with
  | dispatcher =>
    simp only [handsOver] at handed
    split at handed
    · rename_i cmd phase
      cases handed
      simp [ownedBy, holding, phase]
    · cases handed
  | _ => cases handed

theorem Quiet.advance [DecidableEq ι] {cmd : Sent C} {t u : Tracked ι C capacity}
    (quiet : Quiet cmd t) {a : Step ι C} (later : Custody u) (stepped : advance t a = some u) :
    Quiet cmd u := by
  obtain ⟨s, moved, eq⟩ := Option.bind_eq_some_iff.mp stepped
  cases eq
  constructor
  · exact later
  · exact quiet.freed
  · intro ahead
    rcases Option.or_eq_some_iff.mp ahead with handed | ⟨-, ahead⟩
    · have dispatchers := quiet.custody.owned _ cmd (handsOver_held handed)
      have executers := quiet.custody.owned _ cmd (quiet.custody.freed_received quiet.freed)
      rw [dispatchers] at executers
      cases executers
    · exact quiet.silent ahead

theorem Quiet.step [DecidableEq ι] {cmd : Sent C} {t u : Tracked ι C capacity}
    (quiet : Quiet cmd t) {e : Event ι C} (stepped : step t e = some u) : Quiet cmd u := by
  have later := quiet.custody.step stepped
  rcases step_cases stepped with ⟨level, runCmd, phase, rfl⟩ | ⟨newCmd, -, rfl⟩ |
    ⟨runCmd, -, rfl⟩ | ⟨a, -, -, moved⟩
  · refine ⟨later, quiet.freed, ?_⟩
    -- The function that sets the level runs another command.
    intro ahead
    have running : runCmd ∈ t.toFree.toList ++ executing t.system.executer := by
      simp [phase, executing]
    have same := quiet.custody.only_one ahead running
    have unfreed := (quiet.custody.in_hand (List.mem_append_left _ running)).2
    rw [same] at unfreed
    exact absurd quiet.freed unfreed
  · refine ⟨later, quiet.freed, ?_⟩
    intro ahead
    cases ahead
  · exact ⟨later, List.mem_append_left _ quiet.freed, quiet.silent⟩
  · exact quiet.advance later moved

theorem read_by_other {t : Tracked ι C capacity} {e : Event ι C} {party : Party} {cmd : Sent C}
    (other : party ≠ .executer) (mem : (party, cmd) ∈ reads t e) :
    e = .pipeline .dispatcher ∧ t.logging = some cmd ∧ logLvlDebug ≤ t.logLvl := by
  have own : ∀ {cmds : List (Sent C)},
      (party, cmd) ∈ cmds.map (fun cmd => (Party.executer, cmd)) → False := by
    intro cmds mem
    obtain ⟨found, -, eq⟩ := List.mem_map.mp mem
    cases eq
    exact other rfl
  cases e with
  | logSet level => exact (own mem).elim
  | pipeline a =>
    cases a with
    | client i => cases mem
    | dispatcher =>
      simp only [reads] at mem
      split at mem
      · rename_i newCmd ahead
        split at mem
        · rename_i debug
          cases List.mem_singleton.mp mem
          exact ⟨rfl, ahead, debug⟩
        · cases mem
      · cases mem
    | executer =>
      simp only [reads] at mem
      split at mem
      · cases List.mem_singleton.mp mem
        exact absurd rfl other
      · exact (own mem).elim
    | functionSends sent => exact (own mem).elim
    | functionReturns cmdStat => exact (own mem).elim

theorem Quiet.not_read [DecidableEq ι] {cmd : Sent C} {t : Tracked ι C capacity}
    (quiet : Quiet cmd t) {party : Party} (other : party ≠ .executer) :
    ¬ MayStillRead t party cmd := by
  rintro ⟨events, u, e, reached, -, mem⟩
  have later : Quiet cmd u :=
    run_invariant (fun _ _ _ quiet stepped => Quiet.step quiet stepped) quiet reached
  obtain ⟨-, ahead, debug⟩ := read_by_other other mem
  exact absurd (later.silent ahead) (UInt32.not_lt.mpr debug)

theorem read_by_executer {t : Tracked ι C capacity} {e : Event ι C} {cmd : Sent C}
    (mem : (Party.executer, cmd) ∈ reads t e) :
    cmd ∈ t.toFree.toList ++ executing t.system.executer ++ fetched t.system.executer := by
  have running : (Party.executer, cmd) ∈
      (executing t.system.executer).map (fun cmd => (Party.executer, cmd)) →
      cmd ∈ t.toFree.toList ++ executing t.system.executer ++ fetched t.system.executer := by
    intro mem
    obtain ⟨found, busy, eq⟩ := List.mem_map.mp mem
    cases eq
    simp [busy]
  cases e with
  | logSet level => exact running mem
  | pipeline a =>
    cases a with
    | client i => cases mem
    | dispatcher =>
      simp only [reads] at mem
      split at mem
      · split at mem
        · cases List.mem_singleton.mp mem
        · cases mem
      · cases mem
    | executer =>
      simp only [reads] at mem
      split at mem
      · rename_i runCmd pending
        cases List.mem_singleton.mp mem
        simp [pending]
      · obtain ⟨found, busy, eq⟩ := List.mem_map.mp mem
        cases eq
        simp only [List.mem_append] at busy ⊢
        rcases busy with fresh | busy
        · exact .inr fresh
        · exact .inl (.inr busy)
    | functionSends sent => exact running mem
    | functionReturns cmdStat => exact running mem

theorem frees_eq_some {t : Tracked ι C capacity} {e : Event ι C} {cmd : Sent C}
    (freed : frees t e = some cmd) : e = .pipeline .executer ∧ t.toFree = some cmd := by
  cases e with
  | logSet level => cases freed
  | pipeline a =>
    cases a with
    | executer => exact ⟨rfl, freed⟩
    | _ => cases freed

theorem respected_of_guarded [DecidableEq ι] {t : Tracked ι C capacity} (custody : Custody t)
    {e : Event ι C} (guarded : Guarded t e) : Respected t e := by
  constructor
  case own =>
    intro party cmd mem
    by_cases executers : party = .executer
    · subst executers
      exact custody.in_hand (read_by_executer mem)
    · obtain ⟨logs, ahead, debug⟩ := read_by_other executers mem
      exact absurd (guarded cmd ahead (.inl logs)) (UInt32.not_lt.mpr debug)
  case once =>
    intro cmd freed
    obtain ⟨-, pending⟩ := frees_eq_some freed
    exact (custody.in_hand (by simp [pending])).2
  case last =>
    intro cmd u freed stepped party other
    have later := custody.step stepped
    have silent : t.logging = some cmd → t.logLvl < logLvlDebug := by
      intro ahead
      apply guarded cmd ahead
      simp [freed]
    obtain ⟨rfl, pending⟩ := frees_eq_some freed
    simp only [step, pending] at stepped
    cases stepped
    have quiet : Quiet cmd { t with toFree := none, freed := t.freed ++ [cmd] } :=
      ⟨later, by simp, silent⟩
    exact quiet.not_read other

theorem guarded_of_respected [DecidableEq ι] {t : Tracked ι C capacity} (custody : Custody t)
    {e : Event ι C} (respected : Respected t e) : Guarded t e := by
  rintro newCmd ahead (rfl | freed)
  · by_contra quiet
    have debug : logLvlDebug ≤ t.logLvl := UInt32.not_lt.mp quiet
    have mem : (Party.dispatcher, newCmd) ∈ reads t (.pipeline .dispatcher) := by
      simp [reads, ahead, debug]
    exact custody.handed_over ahead (respected.own _ _ mem).1
  · by_contra quiet
    have debug : logLvlDebug ≤ t.logLvl := UInt32.not_lt.mp quiet
    obtain ⟨cmd, freed⟩ := Option.ne_none_iff_exists'.mp freed
    obtain ⟨rfl, pending⟩ := frees_eq_some freed
    have same : cmd = newCmd := custody.only_one ahead (by simp [pending])
    have stepped : step t (.pipeline .executer) =
        some { t with toFree := none, freed := t.freed ++ [cmd] } := by
      simp [step, pending]
    apply respected.last cmd _ freed stepped .dispatcher (by decide)
    refine ⟨[], _, .pipeline .dispatcher, rfl, ?_, ?_⟩
    · simp [step, ahead]
    · simp [reads, ahead, debug, same]

/-- In a run the ownership of every command is respected, and every command
    received is freed once, exactly when no debug logging is on as the
    dispatcher comes to a `LOGD` and as the executer frees a command whose
    `LOGD` is ahead. -/
theorem ownership_respected_iff [DecidableEq ι] {clients : ι → List (Option C)}
    {executed failed : Int32} {logLvl : LogLevel} {events : List (Event ι C)}
    {t : Tracked ι C capacity}
    (reached : run step (start capacity clients executed failed logLvl) events = some t) :
    (Along step Respected (start capacity clients executed failed logLvl) events ∧ FreedOnce t) ↔
      Along step Guarded (start capacity clients executed failed logLvl) events := by
  have custody : ∀ done u, run step (start capacity clients executed failed logLvl) done = some u →
      Custody u := fun done u reached =>
    run_invariant (fun _ _ _ custody stepped => Custody.step custody stepped)
      (custody_start capacity clients executed failed logLvl) reached
  constructor
  · rintro ⟨respected, -⟩ done e rest u split before
    exact guarded_of_respected (custody done u before) (respected done e rest u split before)
  · intro guarded
    constructor
    · intro done e rest u split before
      exact respected_of_guarded (custody done u before) (guarded done e rest u split before)
    · exact (custody events t reached).freedOnce

/-- The executer runs and frees a command while the dispatcher stands between
    its `osQueueSend` and its `LOGD`. -/
def lateDispatcher : List (Event Unit Unit) :=
  [.pipeline (.client ()), .pipeline .dispatcher, .pipeline .dispatcher, .pipeline .dispatcher,
    .pipeline .dispatcher, .pipeline .executer, .pipeline .executer,
    .pipeline (.functionReturns 1), .pipeline .executer, .pipeline .dispatcher]

theorem late_dispatcher_respected_iff :
    ∃ t : Tracked Unit Unit 50,
      run step (start 50 (fun _ => [some ()]) 0 0 4) lateDispatcher = some t ∧
        ((Along step Respected (start 50 (fun _ => [some ()]) 0 0 4) lateDispatcher ∧
            FreedOnce t) ↔
          Along step Guarded (start 50 (fun _ => [some ()]) 0 0 4 : Tracked Unit Unit 50)
            lateDispatcher) := by
  obtain ⟨t, reached⟩ : ∃ t : Tracked Unit Unit 50,
      run step (start 50 (fun _ => [some ()]) 0 0 4) lateDispatcher = some t := ⟨_, rfl⟩
  exact ⟨t, reached, ownership_respected_iff reached⟩

theorem late_dispatcher_reads_freed :
    ∃ t : Tracked Unit Unit 50,
      run step (start 50 (fun _ => [some ()]) 0 0 logLvlDebug) lateDispatcher = some t ∧
        ¬ (Along step Respected (start 50 (fun _ => [some ()]) 0 0 logLvlDebug)
          lateDispatcher ∧ FreedOnce t) := by
  refine ⟨_, rfl, ?_⟩
  rintro ⟨respected, -⟩
  have atLog := respected lateDispatcher.dropLast (.pipeline .dispatcher) [] _ rfl rfl
  exact (atLog.own .dispatcher ⟨0, ()⟩ (by decide)).2 (by decide)

end CommandOwnership
