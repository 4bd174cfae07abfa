import SuchaiFlight.PthreadQueue

/-!
The waits on the queue of `pthread_queue.c`. `os_pthread_queue_send` and
`os_pthread_queue_receive` broadcast after they have left the section, so a
thread may sleep although its condition no longer holds: until the broadcast.
-/
namespace QueueWakeups
open ByteMemory BoundedQueues Runs PthreadQueue

variable {size itemSize : Nat} {ι : Type} [DecidableEq ι]

/-- A thread waits only while its condition holds, or while another is on its
    way to the broadcast that ends the wait. -/
def Heard (s : System ι size itemSize) : Prop :=
  ∀ i call, s.phase i = .waiting call →
    Blocked s.queue call ∨ ∃ j done, done ∈ pending (s.phase j) ∧ announces done call = true

theorem heard_of_quiet {s t : System ι size itemSize} {i : ι} (heard : Heard s)
    (change : Change s i t) (items : t.queue.items = s.queue.items)
    (keeps : ∀ done ∈ pending (s.phase i),
      done ∈ pending (t.phase i) ∨ s.phase i = .broadcasting done)
    (sleeps : ∀ call, t.phase i = .waiting call → Blocked s.queue call) : Heard t := by
  have same : ∀ call : Call itemSize, Blocked t.queue call ↔ Blocked s.queue call := by
    intro call
    cases call <;> simp only [Blocked, items]
  intro j call waits
  rw [same]
  by_cases own : j = i
  · subst own
    exact .inl (sleeps call waits)
  · obtain ⟨before, unmeant⟩ := change.waited own waits
    rcases heard j call before with blocked | ⟨k, done, soon, meant⟩
    · exact .inl blocked
    · by_cases mover : k = i
      · subst mover
        rcases keeps done soon with still | now
        · exact .inr ⟨k, done, still, meant⟩
        · rw [unmeant done now] at meant
          cases meant
      · refine .inr ⟨k, done, ?_, meant⟩
        rw [change.pending_others mover]
        exact soon

theorem not_blocked_counting {queue : OsPthreadQueue size itemSize} {items : List (Item itemSize)}
    {done : Effect itemSize} (ready : Ready queue items (.counting done)) {call : Call itemSize}
    (unmeant : announces done call = false) : ¬ Blocked queue call := by
  cases done <;> cases call <;> simp only [announces, Bool.true_eq_false] at unmeant
  case sent.send =>
    simp only [Blocked]
    have room := ready.2.1
    omega
  case received.receive =>
    have length := ready.1.length
    simp only [Blocked]
    intro none_
    rw [none_] at length
    rw [List.eq_nil_of_length_eq_zero length] at ready
    cases ready.2

theorem heard_step {s t : System ι size itemSize} {a : Step ι itemSize} (owned : Owned s)
    (refines : Refines s) (heard : Heard s) (stepped : step s a = some t) : Heard t := by
  obtain ⟨i, change⟩ := step_change stepped
  have whole := change
  cases change
  case counted done at_ =>
    obtain ⟨contents, -, -, taken⟩ := refines
    have ready := taken i ((owned i).mp (by rw [at_]; rfl))
    rw [at_] at ready
    intro j call waits
    have apart : j ≠ i := by
      rintro rfl
      simp [System.goto] at waits
    by_cases meant : announces done call = true
    · exact .inr ⟨i, done, by simp [System.goto, pending], meant⟩
    · have free := not_blocked_counting ready (by simpa using meant)
      rcases heard j call (whole.waited apart waits).1 with blocked | ⟨k, other, soon, means⟩
      · exact absurd blocked free
      · have mover : k ≠ i := by
          rintro rfl
          rw [at_] at soon
          cases soon
        refine .inr ⟨k, other, ?_, means⟩
        rw [whole.pending_others mover]
        exact soon
  case slept call at_ blocked =>
    refine heard_of_quiet heard whole rfl (by simp [at_, pending]) ?_
    intro other waits
    simp only [System.goto, Function.update_self, Phase.waiting.injEq] at waits
    exact waits ▸ blocked
  case copied call at_ =>
    refine heard_of_quiet heard whole ?_ (by simp [at_, pending]) (by simp [System.goto])
    cases call <;> rfl
  case advanced done at_ =>
    refine heard_of_quiet heard whole ?_ (by simp [at_, System.goto, pending])
      (by simp [System.goto])
    cases done <;> rfl
  case locked call at_ free =>
    refine heard_of_quiet heard whole rfl ?_ (by simp [System.goto])
    rcases at_ with at_ | at_ <;> simp [at_, pending]
  all_goals
    refine heard_of_quiet heard whole rfl ?_ (by simp [System.goto, System.returns])
    simp [System.goto, pending, *]

theorem run_heard {s : System ι size itemSize} {buffer : Mem} {actions : List (Step ι itemSize)}
    (reached : run step (start ι size itemSize buffer) actions = some s) : Heard s := by
  have all : (Owned s ∧ Refines s) ∧ Heard s := by
    refine run_invariant (I := fun s => (Owned s ∧ Refines s) ∧ Heard s) ?_
      ⟨⟨fun _ => by simp [start, inside], refines_start buffer⟩,
        fun i call waits => by simp [start] at waits⟩ reached
    intro s a t holds stepped
    exact ⟨⟨owned_step holds.1.1 stepped, refines_step holds.1.1 holds.1.2 stepped⟩,
      heard_step holds.1.1 holds.1.2 holds.2 stepped⟩
  exact all.2

theorem broadcast_wakes {s : System ι size itemSize} {i j : ι} {done : Effect itemSize}
    {call : Call itemSize} (waits : s.phase i = .waiting call)
    (at_ : s.phase j = .broadcasting done) (meant : announces done call = true) :
    ∃ t, step s (.run j) = some t ∧ t.phase i = .relocking call false := by
  have apart : i ≠ j := by
    rintro rfl
    rw [at_] at waits
    cases waits
  refine ⟨_, by simp [step, runStep, at_]; rfl, ?_⟩
  simp [System.returns, apart, waits, broadcast, meant]

theorem unlock_wakes {s : System ι size itemSize} {i j : ι} {done : Effect itemSize}
    {call : Call itemSize} (waits : s.phase i = .waiting call)
    (at_ : s.phase j = .unlocking done) (meant : announces done call = true) :
    ∃ t, run step s [.run j, .run j] = some t ∧ t.phase i = .relocking call false := by
  have apart : i ≠ j := by
    rintro rfl
    rw [at_] at waits
    cases waits
  obtain ⟨next, stepped, still, moved⟩ : ∃ next, step s (.run j) = some next ∧
      next.phase i = .waiting call ∧ next.phase j = .broadcasting done :=
    ⟨_, by simp [step, runStep, at_]; rfl, by simp [System.goto, apart, waits],
      by simp [System.goto]⟩
  obtain ⟨t, last, woken⟩ := broadcast_wakes still moved meant
  exact ⟨t, run_cons stepped (run_single last), woken⟩

theorem advance_wakes {s : System ι size itemSize} {i j : ι} {done : Effect itemSize}
    {call : Call itemSize} (waits : s.phase i = .waiting call)
    (at_ : s.phase j = .advancing done) (meant : announces done call = true) :
    ∃ t, run step s [.run j, .run j, .run j] = some t ∧ t.phase i = .relocking call false := by
  have apart : i ≠ j := by
    rintro rfl
    rw [at_] at waits
    cases waits
  obtain ⟨next, stepped, still, moved⟩ : ∃ next, step s (.run j) = some next ∧
      next.phase i = .waiting call ∧ next.phase j = .unlocking done :=
    ⟨_, by simp [step, runStep, at_]; rfl, by simp [System.goto, apart, waits],
      by simp [System.goto]⟩
  obtain ⟨t, later, woken⟩ := unlock_wakes still moved meant
  exact ⟨t, run_cons stepped later, woken⟩

/-- A thread that waits although its condition no longer holds is woken by at
    most three steps of one other thread, all of which are possible at once. -/
theorem wakeup_not_lost {s : System ι size itemSize} {buffer : Mem}
    {actions : List (Step ι itemSize)}
    (reached : run step (start ι size itemSize buffer) actions = some s) {i : ι}
    {call : Call itemSize} (waits : s.phase i = .waiting call) (free : ¬ Blocked s.queue call) :
    ∃ j n t, n ≤ 3 ∧ run step s (List.replicate n (.run j)) = some t ∧
      t.phase i = .relocking call false := by
  rcases run_heard reached i call waits with blocked | ⟨j, done, soon, meant⟩
  · exact absurd blocked free
  · cases at_ : s.phase j <;> rw [at_] at soon <;>
      simp only [pending, List.not_mem_nil, List.mem_singleton] at soon
    case advancing other =>
      obtain ⟨t, ran, woken⟩ := advance_wakes waits at_ (soon ▸ meant)
      exact ⟨j, 3, t, by omega, ran, woken⟩
    case unlocking other =>
      obtain ⟨t, ran, woken⟩ := unlock_wakes waits at_ (soon ▸ meant)
      exact ⟨j, 2, t, by omega, ran, woken⟩
    case broadcasting other =>
      obtain ⟨t, stepped, woken⟩ := broadcast_wakes waits at_ (soon ▸ meant)
      exact ⟨j, 1, t, by omega, run_single stepped, woken⟩

theorem handover_wakes :
    ∃ s t : System Bool 1 1, ∃ j n,
      run step (start Bool 1 1 fun _ => 0) ((handover (byte 7)).take 9) = some s ∧
        s.phase false = .waiting .receive ∧ n ≤ 3 ∧
        run step s (List.replicate n (.run j)) = some t ∧
        t.phase false = .relocking .receive false := by
  obtain ⟨s, reached, waits, items⟩ : ∃ s : System Bool 1 1,
      run step (start Bool 1 1 fun _ => 0) ((handover (byte 7)).take 9) = some s ∧
        s.phase false = .waiting .receive ∧ s.queue.items = 1 := ⟨_, rfl, rfl, rfl⟩
  obtain ⟨j, n, t, few, ran, woken⟩ := wakeup_not_lost reached waits (by simp [Blocked, items])
  exact ⟨s, t, j, n, reached, waits, few, ran, woken⟩

theorem runStep_eq_none {s : System ι size itemSize} {i : ι} (stuck : runStep s i = none) :
    s.phase i = .idle ∨ (∃ call, s.phase i = .waiting call) ∨
      (s.mutex ≠ none ∧ inside (s.phase i) = false ∧ pending (s.phase i) = []) := by
  cases at_ : s.phase i <;> simp only [runStep, at_] at stuck
  case idle => exact .inl rfl
  case waiting call => exact .inr (.inl ⟨call, rfl⟩)
  case locking call | relocking call ret =>
    refine .inr (.inr ⟨fun free => ?_, rfl, rfl⟩)
    rw [if_pos free] at stuck
    cases stuck
  case testing call =>
    split at stuck <;> cases stuck
  all_goals cases stuck

/-- The queue never hangs: where no thread can go on by itself, nobody holds the
    mutex, every thread is outside its calls or waits, those that wait to send
    find the queue full, and those that wait to receive find it empty. -/
theorem stuck_only_full_or_empty {s : System ι size itemSize} {buffer : Mem}
    {actions : List (Step ι itemSize)}
    (reached : run step (start ι size itemSize buffer) actions = some s)
    (stuck : ∀ i, step s (.run i) = none) :
    s.mutex = none ∧
      ∀ i, s.phase i = .idle ∨ ∃ call, s.phase i = .waiting call ∧ Blocked s.queue call := by
  have owned := run_owned reached
  have free : s.mutex = none := by
    cases holder : s.mutex with
    | none => rfl
    | some i =>
      have within := (owned i).mpr holder
      rcases runStep_eq_none (stuck i) with idle | ⟨call, waits⟩ | ⟨-, outside, -⟩
      · rw [idle] at within
        cases within
      · rw [waits] at within
        cases within
      · rw [outside] at within
        cases within
  have still : ∀ i, s.phase i = .idle ∨ ∃ call, s.phase i = .waiting call := by
    intro i
    rcases runStep_eq_none (stuck i) with idle | waits | ⟨taken, -⟩
    · exact .inl idle
    · exact .inr waits
    · exact absurd free taken
  refine ⟨free, fun i => ?_⟩
  rcases still i with idle | ⟨call, waits⟩
  · exact .inl idle
  · refine .inr ⟨call, waits, ?_⟩
    rcases run_heard reached i call waits with blocked | ⟨j, done, soon, -⟩
    · exact blocked
    · rcases still j with idle | ⟨other, waits⟩ <;> simp_all [pending]

theorem both_receivers_stuck :
    ∃ s : System Bool 1 1,
      run step (start Bool 1 1 fun _ => 0)
          [.call false .receive, .run false, .run false, .call true .receive, .run true,
            .run true] = some s ∧
        s.mutex = none ∧ s.phase true = .waiting .receive ∧
        (s.phase true = .idle ∨ ∃ call, s.phase true = .waiting call ∧ Blocked s.queue call) := by
  obtain ⟨s, reached, waits, stuck⟩ : ∃ s : System Bool 1 1,
      run step (start Bool 1 1 fun _ => 0)
          [.call false .receive, .run false, .run false, .call true .receive, .run true,
            .run true] = some s ∧
        s.phase true = .waiting .receive ∧ ∀ i, step s (.run i) = none :=
    ⟨_, rfl, rfl, fun i => by cases i <;> rfl⟩
  obtain ⟨free, each⟩ := stuck_only_full_or_empty reached stuck
  exact ⟨s, reached, free, waits, each true⟩

end QueueWakeups
