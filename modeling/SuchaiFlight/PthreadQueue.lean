import SuchaiFlight.Library.BoundedQueue
import SuchaiFlight.Library.ByteMemory
import SuchaiFlight.Library.RingCells
import SuchaiFlight.Library.Runs
import Mathlib.Logic.Function.Basic
import Mathlib.Tactic.Common

/-!
The queue of `pthread_queue.c`: a ring of items behind one mutex and two
condition variables. Any number of threads call `os_pthread_queue_send` and
`os_pthread_queue_receive`; one step of a thread is one statement or one call of
the pthread library, so the steps of all threads interleave freely. A wait on a
condition ends by a broadcast, by its timeout or for no reason at all.
-/
namespace PthreadQueue
open ByteMemory BoundedQueues RingCells Runs

structure Item (itemSize : Nat) where
  bytes : List UInt8
  length_eq : bytes.length = itemSize
  deriving DecidableEq

/-- `size` and `item_size` are fixed when the queue is created. -/
structure OsPthreadQueue (size itemSize : Nat) where
  buffer : Mem
  items : Nat
  inIndex : Nat
  outIndex : Nat

inductive Call (itemSize : Nat) where
  | send (value : Item itemSize)
  | receive
  deriving DecidableEq

/-- What a call has done to the queue; for `receive`, what it copied to `buf`. -/
inductive Effect (itemSize : Nat) where
  | sent (value : Item itemSize)
  | received (buf : Item itemSize)
  deriving DecidableEq

variable {size itemSize : Nat} {ι : Type}

def Effect.call : Effect itemSize → Call itemSize
  | .sent value => .send value
  | .received _ => .receive

/-- Where a thread stands. `ret` is the result of `pthread_cond_timedwait`, true
    when it is not zero; after `givingUp` the call returns `PTHREAD_QUEUE_FULL`
    or `PTHREAD_QUEUE_EMPTY`. -/
inductive Phase (itemSize : Nat) where
  | idle
  | locking (call : Call itemSize)
  | testing (call : Call itemSize)
  | waiting (call : Call itemSize)
  | relocking (call : Call itemSize) (ret : Bool)
  | givingUp (call : Call itemSize)
  | copying (call : Call itemSize)
  | counting (done : Effect itemSize)
  | advancing (done : Effect itemSize)
  | unlocking (done : Effect itemSize)
  | broadcasting (done : Effect itemSize)
  deriving DecidableEq

inductive Outcome (itemSize : Nat) where
  | ok (done : Effect itemSize)
  | failed (call : Call itemSize)
  deriving DecidableEq

/-- `called`, `returned` and `effects` record the run: the calls of each thread,
    their results, and the changes of `items` in their order. -/
structure System (ι : Type) (size itemSize : Nat) where
  queue : OsPthreadQueue size itemSize
  mutex : Option ι
  phase : ι → Phase itemSize
  called : ι → List (Call itemSize)
  returned : ι → List (Outcome itemSize)
  effects : List (ι × Effect itemSize)

inductive Step (ι : Type) (itemSize : Nat) where
  | call (i : ι) (call : Call itemSize)
  | clockFails (i : ι) (call : Call itemSize)
  | run (i : ι)
  | wakes (i : ι)
  | timeout (i : ι)
  deriving DecidableEq

/-- `malloc` leaves the buffer as it finds it. -/
def osPthreadQueueCreate (buffer : Mem) : OsPthreadQueue size itemSize :=
  { buffer := buffer, items := 0, inIndex := 0, outIndex := 0 }

def Blocked (queue : OsPthreadQueue size itemSize) : Call itemSize → Prop
  | .send _ => queue.items = size
  | .receive => queue.items = 0

instance (queue : OsPthreadQueue size itemSize) (call : Call itemSize) :
    Decidable (Blocked queue call) := by
  cases call <;> exact inferInstanceAs (Decidable (_ = _))

def copy (queue : OsPthreadQueue size itemSize) :
    Call itemSize → OsPthreadQueue size itemSize × Effect itemSize
  | .send value =>
    ({ queue with buffer := write queue.buffer (queue.inIndex * itemSize) value.bytes },
      .sent value)
  | .receive =>
    (queue, .received ⟨read queue.buffer (queue.outIndex * itemSize) itemSize, read_length _ _ _⟩)

def count (queue : OsPthreadQueue size itemSize) :
    Effect itemSize → OsPthreadQueue size itemSize
  | .sent _ => { queue with items := queue.items + 1 }
  | .received _ => { queue with items := queue.items - 1 }

def advance (queue : OsPthreadQueue size itemSize) :
    Effect itemSize → OsPthreadQueue size itemSize
  | .sent _ => { queue with inIndex := (queue.inIndex + 1) % size }
  | .received _ => { queue with outIndex := (queue.outIndex + 1) % size }

/-- The condition variable of the broadcast: `send` wakes those that wait in
    `receive`, and `receive` those in `send`. -/
def announces : Effect itemSize → Call itemSize → Bool
  | .sent _, .receive => true
  | .received _, .send _ => true
  | _, _ => false

def broadcast (done : Effect itemSize) : Phase itemSize → Phase itemSize
  | .waiting call => if announces done call then .relocking call false else .waiting call
  | phase => phase

def start (ι : Type) (size itemSize : Nat) (buffer : Mem) : System ι size itemSize :=
  { queue := osPthreadQueueCreate buffer
    mutex := none
    phase := fun _ => .idle
    called := fun _ => []
    returned := fun _ => []
    effects := [] }

section Steps
variable [DecidableEq ι]

def System.goto (s : System ι size itemSize) (i : ι) (phase : Phase itemSize) :
    System ι size itemSize :=
  { s with phase := Function.update s.phase i phase }

def System.returns (s : System ι size itemSize) (i : ι) (outcome : Outcome itemSize) :
    System ι size itemSize :=
  { s with phase := Function.update s.phase i .idle
           returned := Function.update s.returned i (s.returned i ++ [outcome]) }

def runStep (s : System ι size itemSize) (i : ι) : Option (System ι size itemSize) :=
  match s.phase i with
  | .idle => none
  | .waiting _ => none
  | .locking call =>
    if s.mutex = none then some { s.goto i (.testing call) with mutex := some i } else none
  | .relocking call ret =>
    if s.mutex = none then
      some { s.goto i (if ret then .givingUp call else .testing call) with mutex := some i }
    else none
  | .testing call =>
    if Blocked s.queue call then some { s.goto i (.waiting call) with mutex := none }
    else some (s.goto i (.copying call))
  | .givingUp call => some { s.returns i (.failed call) with mutex := none }
  | .copying call =>
    let (queue, done) := copy s.queue call
    some { s.goto i (.counting done) with queue := queue }
  | .counting done =>
    some { s.goto i (.advancing done) with queue := count s.queue done
                                           effects := s.effects ++ [(i, done)] }
  | .advancing done => some { s.goto i (.unlocking done) with queue := advance s.queue done }
  | .unlocking done => some { s.goto i (.broadcasting done) with mutex := none }
  | .broadcasting done =>
    some ({ s with phase := fun j => broadcast done (s.phase j) }.returns i (.ok done))

def step (s : System ι size itemSize) : Step ι itemSize → Option (System ι size itemSize)
  | .call i call =>
    if s.phase i = .idle then
      some { s.goto i (.locking call) with
        called := Function.update s.called i (s.called i ++ [call]) }
    else none
  | .clockFails i call =>
    if s.phase i = .idle then
      some { s.returns i (.failed call) with
        called := Function.update s.called i (s.called i ++ [call]) }
    else none
  | .run i => runStep s i
  | .wakes i =>
    match s.phase i with
    | .waiting call => some (s.goto i (.relocking call false))
    | _ => none
  | .timeout i =>
    match s.phase i with
    | .waiting call => some (s.goto i (.relocking call true))
    | _ => none

inductive Change (s : System ι size itemSize) (i : ι) : System ι size itemSize → Prop where
  | called (call) (idle : s.phase i = .idle) :
      Change s i { s.goto i (.locking call) with
        called := Function.update s.called i (s.called i ++ [call]) }
  | clockFailed (call) (idle : s.phase i = .idle) :
      Change s i { s.returns i (.failed call) with
        called := Function.update s.called i (s.called i ++ [call]) }
  | woken (call ret) (at_ : s.phase i = .waiting call) :
      Change s i (s.goto i (.relocking call ret))
  | locked (call) (at_ : s.phase i = .locking call ∨ s.phase i = .relocking call false)
      (free : s.mutex = none) :
      Change s i { s.goto i (.testing call) with mutex := some i }
  | timedOut (call) (at_ : s.phase i = .relocking call true) (free : s.mutex = none) :
      Change s i { s.goto i (.givingUp call) with mutex := some i }
  | slept (call) (at_ : s.phase i = .testing call) (blocked : Blocked s.queue call) :
      Change s i { s.goto i (.waiting call) with mutex := none }
  | passed (call) (at_ : s.phase i = .testing call) (free : ¬ Blocked s.queue call) :
      Change s i (s.goto i (.copying call))
  | gaveUp (call) (at_ : s.phase i = .givingUp call) :
      Change s i { s.returns i (.failed call) with mutex := none }
  | copied (call) (at_ : s.phase i = .copying call) :
      Change s i { s.goto i (.counting (copy s.queue call).2) with queue := (copy s.queue call).1 }
  | counted (done) (at_ : s.phase i = .counting done) :
      Change s i { s.goto i (.advancing done) with queue := count s.queue done
                                                   effects := s.effects ++ [(i, done)] }
  | advanced (done) (at_ : s.phase i = .advancing done) :
      Change s i { s.goto i (.unlocking done) with queue := advance s.queue done }
  | unlocked (done) (at_ : s.phase i = .unlocking done) :
      Change s i { s.goto i (.broadcasting done) with mutex := none }
  | announced (done) (at_ : s.phase i = .broadcasting done) :
      Change s i ({ s with phase := fun j => broadcast done (s.phase j) }.returns i (.ok done))

theorem runStep_change {s t : System ι size itemSize} {i : ι} (stepped : runStep s i = some t) :
    Change s i t := by
  simp only [runStep] at stepped
  split at stepped
  case h_1 | h_2 => cases stepped
  case h_3 call at_ =>
    split at stepped
    case isFalse => cases stepped
    case isTrue free =>
      cases stepped
      exact .locked call (.inl at_) free
  case h_4 call ret at_ =>
    split at stepped
    case isFalse => cases stepped
    case isTrue free =>
      cases stepped
      cases ret with
      | false => exact .locked call (.inr at_) free
      | true => exact .timedOut call at_ free
  case h_5 call at_ =>
    split at stepped
    case isTrue blocked =>
      cases stepped
      exact .slept call at_ blocked
    case isFalse free =>
      cases stepped
      exact .passed call at_ free
  case h_6 call at_ => cases stepped; exact .gaveUp call at_
  case h_7 call at_ => cases stepped; exact .copied call at_
  case h_8 done at_ => cases stepped; exact .counted done at_
  case h_9 done at_ => cases stepped; exact .advanced done at_
  case h_10 done at_ => cases stepped; exact .unlocked done at_
  case h_11 done at_ => cases stepped; exact .announced done at_

theorem step_change {s t : System ι size itemSize} {a : Step ι itemSize}
    (stepped : step s a = some t) : ∃ i, Change s i t := by
  cases a with
  | call i call =>
    simp only [step] at stepped
    split at stepped
    case isFalse => cases stepped
    case isTrue idle =>
      cases stepped
      exact ⟨i, .called call idle⟩
  | clockFails i call =>
    simp only [step] at stepped
    split at stepped
    case isFalse => cases stepped
    case isTrue idle =>
      cases stepped
      exact ⟨i, .clockFailed call idle⟩
  | run i => exact ⟨i, runStep_change stepped⟩
  | wakes i =>
    simp only [step] at stepped
    split at stepped <;> cases stepped
    exact ⟨i, .woken _ false ‹_›⟩
  | timeout i =>
    simp only [step] at stepped
    split at stepped <;> cases stepped
    exact ⟨i, .woken _ true ‹_›⟩

/-! One thread holds the mutex, and it is the one inside the section. -/

def inside : Phase itemSize → Bool
  | .testing _ | .givingUp _ | .copying _ | .counting _ | .advancing _ | .unlocking _ => true
  | _ => false

def Owned (s : System ι size itemSize) : Prop := ∀ i, inside (s.phase i) ↔ s.mutex = some i

@[simp] theorem inside_broadcast (done : Effect itemSize) (phase : Phase itemSize) :
    inside (broadcast done phase) = inside phase := by
  cases phase <;> simp only [broadcast]
  split <;> rfl

theorem Change.others {s t : System ι size itemSize} {i j : ι} (change : Change s i t)
    (apart : j ≠ i) : t.phase j = s.phase j ∨
      ∃ done, s.phase i = .broadcasting done ∧ t.phase j = broadcast done (s.phase j) := by
  cases change
  case announced done at_ =>
    exact .inr ⟨done, at_, Function.update_of_ne apart _ _⟩
  all_goals exact .inl (Function.update_of_ne apart _ _)

theorem Change.waited {s t : System ι size itemSize} {i j : ι} (change : Change s i t)
    (apart : j ≠ i) {call : Call itemSize} (waits : t.phase j = .waiting call) :
    s.phase j = .waiting call ∧
      ∀ done, s.phase i = .broadcasting done → announces done call = false := by
  cases change
  case announced done at_ =>
    simp only [System.returns, Function.update_of_ne apart] at waits
    cases before : s.phase j <;> rw [before] at waits <;> simp only [broadcast] at waits
    case waiting own =>
      split at waits <;> cases waits
      refine ⟨rfl, fun other at' => ?_⟩
      rw [at_] at at'
      cases at'
      simpa using ‹¬announces done call = true›
    all_goals cases waits
  all_goals
    refine ⟨by simpa [System.goto, System.returns, apart] using waits, fun done at' => ?_⟩
    simp_all

theorem Change.mutex_cases {s t : System ι size itemSize} {i : ι} (change : Change s i t) :
    (t.mutex = s.mutex ∧ inside (t.phase i) = inside (s.phase i)) ∨
      (s.mutex = none ∧ t.mutex = some i ∧ inside (t.phase i) = true) ∨
      (inside (s.phase i) = true ∧ t.mutex = none ∧ inside (t.phase i) = false) := by
  cases change
  case locked at_ free | timedOut at_ free =>
    exact .inr (.inl ⟨free, rfl, by simp [System.goto, inside]⟩)
  case slept at_ _ | gaveUp at_ | unlocked at_ =>
    exact .inr (.inr ⟨by rw [at_]; rfl, rfl, by simp [System.goto, System.returns, inside]⟩)
  all_goals
    refine .inl ⟨rfl, ?_⟩
    simp [System.goto, System.returns, inside, *]

theorem owned_step {s t : System ι size itemSize} {a : Step ι itemSize} (owned : Owned s)
    (stepped : step s a = some t) : Owned t := by
  obtain ⟨i, change⟩ := step_change stepped
  intro j
  have holder := owned i
  have before := owned j
  by_cases same : j = i
  · subst same
    rcases change.mutex_cases with ⟨kept, here⟩ | ⟨-, taken, here⟩ | ⟨-, given, here⟩
    · rw [kept, here]
      exact before
    · simp [taken, here]
    · simp [given, here]
  · have outside : inside (t.phase j) = inside (s.phase j) := by
      rcases change.others same with kept | ⟨done, -, moved⟩
      · rw [kept]
      · rw [moved, inside_broadcast]
    rw [outside]
    rcases change.mutex_cases with ⟨kept, -⟩ | ⟨free, taken, -⟩ | ⟨own, given, -⟩
    · rw [kept]
      exact before
    · rw [free] at before
      simpa [taken, Ne.symm same] using before
    · rw [holder.mp own] at before
      simpa [given, Ne.symm same] using before

theorem run_owned {s : System ι size itemSize} {buffer : Mem} {actions : List (Step ι itemSize)}
    (reached : run step (start ι size itemSize buffer) actions = some s) : Owned s :=
  run_invariant (fun _ _ _ owned stepped => owned_step owned stepped)
    (fun _ => by simp [start, inside]) reached

/-! The ring holds the items of a bounded queue that does the same effects. -/

def cell (queue : OsPthreadQueue size itemSize) (slot : Nat) : List UInt8 :=
  read queue.buffer (slot * itemSize) itemSize

structure Holds (queue : OsPthreadQueue size itemSize) (items : List (Item itemSize)) : Prop where
  contents_eq : contents (cell queue) size queue.outIndex queue.items = items.map Item.bytes
  in_eq : queue.inIndex = place size queue.outIndex queue.items
  out_eq : queue.outIndex = queue.outIndex % size

/-- The ring between two statements of the section: `items` leads the index that
    follows it. -/
def Ready (queue : OsPthreadQueue size itemSize) (items : List (Item itemSize)) :
    Phase itemSize → Prop
  | .copying call => Holds queue items ∧ ¬ Blocked queue call
  | .counting (.sent value) =>
    Holds queue items ∧ queue.items < size ∧ cell queue queue.inIndex = value.bytes
  | .counting (.received buf) => Holds queue items ∧ items.head? = some buf
  | .advancing done => Holds (advance queue done) items
  | _ => Holds queue items

def replay (queue : BoundedQueue (Item itemSize) size) :
    Effect itemSize → Option (BoundedQueue (Item itemSize) size)
  | .sent value => send queue value
  | .received buf =>
    match receive queue with
    | some (item, next) => if item = buf then some next else none
    | none => none

theorem Holds.length {queue : OsPthreadQueue size itemSize} {items : List (Item itemSize)}
    (holds : Holds queue items) : items.length = queue.items := by
  have lengths := congrArg List.length holds.contents_eq
  simpa using lengths.symm

theorem Item.ext_bytes {x y : Item itemSize} (same : x.bytes = y.bytes) : x = y := by
  cases x
  cases y
  cases same
  rfl

theorem ready_copy {queue : OsPthreadQueue size itemSize} {items : List (Item itemSize)}
    (fits : items.length ≤ size) {call : Call itemSize} (holds : Holds queue items)
    (free : ¬ Blocked queue call) :
    Ready (copy queue call).1 items (.counting (copy queue call).2) := by
  have length := holds.length
  cases call with
  | receive =>
    refine ⟨holds, ?_⟩
    simp only [Blocked] at free
    obtain ⟨rest, count⟩ := Nat.exists_eq_succ_of_ne_zero free
    have first := holds.contents_eq
    rw [count, contents_pop] at first
    cases items with
    | nil => simp at first
    | cons item more =>
      simp only [List.map_cons, List.cons.injEq] at first
      refine congrArg some (Item.ext_bytes ?_)
      rw [← first.1, place, Nat.add_zero, ← holds.out_eq]
      rfl
  | send value =>
    have room : queue.items < size := by
      simp only [Blocked] at free
      omega
    have written : cell (copy queue (.send value)).1 queue.inIndex = value.bytes := by
      simp only [cell, copy, ← value.length_eq]
      exact read_write_same _ _ _
    refine ⟨⟨?_, holds.in_eq, holds.out_eq⟩, room, written⟩
    rw [← holds.contents_eq]
    refine (contents_frame room ?_).symm
    intro p other _
    change p ≠ place size queue.outIndex queue.items at other
    rw [← holds.in_eq] at other
    simp only [cell, copy]
    rw [read_write_disjoint]
    rw [value.length_eq]
    rcases Nat.lt_or_gt_of_ne other with below | above
    · right
      calc p * itemSize + itemSize = (p + 1) * itemSize := (Nat.succ_mul p itemSize).symm
        _ ≤ queue.inIndex * itemSize := Nat.mul_le_mul_right _ below
    · left
      calc queue.inIndex * itemSize + itemSize = (queue.inIndex + 1) * itemSize :=
            (Nat.succ_mul _ itemSize).symm
        _ ≤ p * itemSize := Nat.mul_le_mul_right _ above

theorem ready_count {queue : OsPthreadQueue size itemSize}
    {contents : BoundedQueue (Item itemSize) size} {done : Effect itemSize}
    (ready : Ready queue contents.items (.counting done)) :
    ∃ next, replay contents done = some next ∧
      Ready (count queue done) next.items (.advancing done) := by
  cases done with
  | sent value =>
    obtain ⟨holds, room, written⟩ := ready
    have length := holds.length
    have sent : send contents value ≠ none := by
      rw [Ne, send_eq_none_iff, Full]
      omega
    obtain ⟨next, sent⟩ := Option.ne_none_iff_exists'.mp sent
    refine ⟨next, sent, ?_, ?_, holds.out_eq⟩
    · rw [send_eq_some sent, List.map_append]
      simp only [advance, count]
      rw [contents_push]
      congr 1
      · exact holds.contents_eq
      · rw [← holds.in_eq]
        exact congrArg (fun bytes => [bytes]) written
    · simp only [advance, count, holds.in_eq]
      exact place_end
  | received buf =>
    obtain ⟨holds, first⟩ := ready
    have length := holds.length
    obtain ⟨items, bound⟩ := contents
    cases items with
    | nil => cases first
    | cons item rest =>
      cases first
      refine ⟨⟨rest, Nat.le_of_succ_le bound⟩, by simp [replay, receive], ?_, ?_, ?_⟩
      · have whole := holds.contents_eq
        have positive : queue.items = (queue.items - 1) + 1 := by
          simp only [List.length_cons] at length
          omega
        rw [positive, contents_pop, List.map_cons] at whole
        exact (List.cons.inj whole).2
      · have positive : queue.items = (queue.items - 1) + 1 := by
          simp only [List.length_cons] at length
          omega
        simp only [advance, count]
        rw [place_advance, ← positive]
        exact holds.in_eq
      · simp only [advance, count, Nat.mod_mod]

/-- The ring and the mutex refine a bounded queue that has done the effects of
    the run in their order. -/
def Refines (s : System ι size itemSize) : Prop :=
  ∃ contents : BoundedQueue (Item itemSize) size,
    run replay empty (s.effects.map Prod.snd) = some contents ∧
      (s.mutex = none → Holds s.queue contents.items) ∧
      ∀ i, s.mutex = some i → Ready s.queue contents.items (s.phase i)

def atRest : Phase itemSize → Bool
  | .copying _ | .counting _ | .advancing _ => false
  | _ => true

theorem ready_atRest {queue : OsPthreadQueue size itemSize} {items : List (Item itemSize)}
    {phase : Phase itemSize} (rest : atRest phase = true) :
    Ready queue items phase ↔ Holds queue items := by
  cases phase <;> first | exact Iff.rfl | cases rest

theorem refines_of_rest {s t : System ι size itemSize} {i : ι} (owned : Owned s)
    (refines : Refines s) (change : Change s i t) (queue : t.queue = s.queue)
    (effects : t.effects = s.effects)
    (rests : atRest (s.phase i) = true ∧ atRest (t.phase i) = true) : Refines t := by
  obtain ⟨contents, ran, free, taken⟩ := refines
  refine ⟨contents, by rw [effects]; exact ran, ?_, ?_⟩
  · intro none_
    rw [queue]
    rcases change.mutex_cases with ⟨kept, -⟩ | ⟨-, some_, -⟩ | ⟨own, -, -⟩
    · exact free (kept ▸ none_)
    · rw [some_] at none_
      cases none_
    · exact (ready_atRest rests.1).mp (taken i ((owned i).mp own))
  · intro j some_
    rw [queue]
    rcases change.mutex_cases with ⟨kept, here⟩ | ⟨none_, own, -⟩ | ⟨-, none_, -⟩
    · rw [kept] at some_
      have before := taken j some_
      by_cases same : j = i
      · subst same
        rw [ready_atRest rests.2, ← ready_atRest rests.1]
        exact before
      · have within := (owned j).mpr some_
        rcases change.others same with kept' | ⟨done, -, moved⟩
        · rw [kept']
          exact before
        · rw [moved]
          cases phase : s.phase j <;> rw [phase] at before within <;>
            first | exact before | cases within
    · obtain rfl : i = j := Option.some.inj (own.symm.trans some_)
      exact (ready_atRest rests.2).mpr (free none_)
    · rw [none_] at some_
      cases some_

theorem refines_step {s t : System ι size itemSize} {a : Step ι itemSize} (owned : Owned s)
    (refines : Refines s) (stepped : step s a = some t) : Refines t := by
  obtain ⟨i, change⟩ := step_change stepped
  have whole := change
  cases change
  case passed call at_ free =>
    obtain ⟨contents, ran, -, taken⟩ := refines
    have own : s.mutex = some i := (owned i).mp (by rw [at_]; rfl)
    refine ⟨contents, ran, fun none_ => absurd (own.symm.trans none_) (Option.some_ne_none i), ?_⟩
    intro j some_
    obtain rfl : i = j := Option.some.inj (own.symm.trans some_)
    have holds := taken i own
    rw [at_] at holds
    simp only [System.goto, Function.update_self]
    exact ⟨holds, free⟩
  case copied call at_ =>
    obtain ⟨contents, ran, -, taken⟩ := refines
    have own : s.mutex = some i := (owned i).mp (by rw [at_]; rfl)
    refine ⟨contents, ran, fun none_ => absurd (own.symm.trans none_) (Option.some_ne_none i), ?_⟩
    intro j some_
    obtain rfl : i = j := Option.some.inj (own.symm.trans some_)
    have ready := taken i own
    rw [at_] at ready
    simp only [System.goto, Function.update_self]
    exact ready_copy contents.bound ready.1 ready.2
  case counted done at_ =>
    obtain ⟨contents, ran, -, taken⟩ := refines
    have own : s.mutex = some i := (owned i).mp (by rw [at_]; rfl)
    have ready := taken i own
    rw [at_] at ready
    obtain ⟨next, replayed, counted⟩ := ready_count ready
    refine ⟨next, ?_, fun none_ => absurd (own.symm.trans none_) (Option.some_ne_none i), ?_⟩
    · rw [List.map_append]
      exact run_trans ran (run_single replayed)
    · intro j some_
      obtain rfl : i = j := Option.some.inj (own.symm.trans some_)
      simp only [System.goto, Function.update_self]
      exact counted
  case advanced done at_ =>
    obtain ⟨contents, ran, -, taken⟩ := refines
    have own : s.mutex = some i := (owned i).mp (by rw [at_]; rfl)
    refine ⟨contents, ran, fun none_ => absurd (own.symm.trans none_) (Option.some_ne_none i), ?_⟩
    intro j some_
    obtain rfl : i = j := Option.some.inj (own.symm.trans some_)
    have ready := taken i own
    rw [at_] at ready
    simp only [System.goto, Function.update_self]
    exact ready
  case locked call at_ free =>
    refine refines_of_rest owned refines whole rfl rfl ⟨?_, by simp [System.goto, atRest]⟩
    rcases at_ with at_ | at_ <;> rw [at_] <;> rfl
  all_goals
    exact refines_of_rest owned refines whole rfl rfl
      ⟨by simp [atRest, *], by simp [System.goto, System.returns, atRest]⟩

omit [DecidableEq ι] in
theorem refines_start (buffer : Mem) : Refines (start ι size itemSize buffer) := by
  have holds : Holds (osPthreadQueueCreate buffer : OsPthreadQueue size itemSize) [] :=
    ⟨rfl, by simp [osPthreadQueueCreate, place], by simp [osPthreadQueueCreate]⟩
  exact ⟨empty, rfl, fun _ => holds, fun _ taken => by cases taken⟩

theorem run_refines {s : System ι size itemSize} {buffer : Mem} {actions : List (Step ι itemSize)}
    (reached : run step (start ι size itemSize buffer) actions = some s) :
    Owned s ∧ Refines s := by
  refine run_invariant (I := fun s => Owned s ∧ Refines s) ?_
    ⟨fun _ => by simp [start, inside], refines_start buffer⟩ reached
  intro s a t both stepped
  exact ⟨owned_step both.1 stepped, refines_step both.1 both.2 stepped⟩

/-! Each call has its effect once, between the call and its return. -/

def current : Phase itemSize → List (Call itemSize)
  | .idle => []
  | .locking call | .testing call | .waiting call | .relocking call _ | .givingUp call
  | .copying call => [call]
  | .counting done | .advancing done | .unlocking done | .broadcasting done => [done.call]

def pending : Phase itemSize → List (Effect itemSize)
  | .advancing done | .unlocking done | .broadcasting done => [done]
  | _ => []

def Outcome.call : Outcome itemSize → Call itemSize
  | .ok done => done.call
  | .failed call => call

def Outcome.effect : Outcome itemSize → Option (Effect itemSize)
  | .ok done => some done
  | .failed _ => none

def effectsOf (s : System ι size itemSize) (i : ι) : List (Effect itemSize) :=
  (s.effects.filter fun e => e.1 = i).map Prod.snd

def InOrder (s : System ι size itemSize) (i : ι) : Prop :=
  s.called i = (s.returned i).map Outcome.call ++ current (s.phase i) ∧
    effectsOf s i = (s.returned i).filterMap Outcome.effect ++ pending (s.phase i)

@[simp] theorem current_broadcast (done : Effect itemSize) (phase : Phase itemSize) :
    current (broadcast done phase) = current phase := by
  cases phase <;> simp only [broadcast]
  split <;> rfl

@[simp] theorem pending_broadcast (done : Effect itemSize) (phase : Phase itemSize) :
    pending (broadcast done phase) = pending phase := by
  cases phase <;> simp only [broadcast]
  split <;> rfl

omit [DecidableEq ι] in
@[simp] theorem copy_call (queue : OsPthreadQueue size itemSize) (call : Call itemSize) :
    (copy queue call).2.call = call := by
  cases call <;> rfl

theorem Change.pending_others {s t : System ι size itemSize} {i j : ι} (change : Change s i t)
    (apart : j ≠ i) : pending (t.phase j) = pending (s.phase j) := by
  rcases change.others apart with kept | ⟨done, -, moved⟩
  · rw [kept]
  · rw [moved, pending_broadcast]

theorem Change.histories {s t : System ι size itemSize} {i j : ι} (change : Change s i t)
    (apart : j ≠ i) : t.called j = s.called j ∧ t.returned j = s.returned j ∧
      effectsOf t j = effectsOf s j := by
  cases change <;>
    simp [System.goto, System.returns, effectsOf, apart, Ne.symm apart, List.filter_append]

theorem inOrder_step {s t : System ι size itemSize} {a : Step ι itemSize}
    (order : ∀ i, InOrder s i) (stepped : step s a = some t) (j : ι) : InOrder t j := by
  obtain ⟨i, change⟩ := step_change stepped
  obtain ⟨calls, effects⟩ := order j
  by_cases same : j = i
  · subst same
    cases change
    case called call idle =>
      rw [idle] at calls effects
      refine ⟨?_, ?_⟩
      · simp [System.goto, current, calls]
      · exact effects.trans (by simp [System.goto, pending])
    case clockFailed call idle =>
      rw [idle] at calls effects
      refine ⟨?_, ?_⟩
      · simp [System.returns, current, calls, Outcome.call]
      · exact effects.trans (by simp [System.returns, pending, Outcome.effect])
    case woken call ret at_ | slept call at_ _ | passed call at_ _ | timedOut call at_ _ =>
      rw [at_] at calls effects
      refine ⟨calls.trans ?_, effects.trans ?_⟩ <;> simp [System.goto, current, pending]
    case locked call at_ free =>
      have here : current (s.phase j) = [call] ∧ pending (s.phase j) = [] := by
        rcases at_ with at_ | at_ <;> rw [at_] <;> exact ⟨rfl, rfl⟩
      rw [here.1] at calls
      rw [here.2] at effects
      refine ⟨calls.trans ?_, effects.trans ?_⟩ <;> simp [System.goto, current, pending]
    case gaveUp call at_ =>
      rw [at_] at calls effects
      refine ⟨?_, effects.trans ?_⟩ <;>
        simp [System.returns, current, pending, calls, Outcome.call, Outcome.effect]
    case copied call at_ =>
      rw [at_] at calls effects
      refine ⟨calls.trans ?_, effects.trans ?_⟩ <;> simp [System.goto, current, pending]
    case counted done at_ =>
      rw [at_] at calls effects
      refine ⟨calls.trans ?_, ?_⟩
      · simp [System.goto, current]
      · simp only [effectsOf] at effects
        simp [effectsOf, System.goto, pending, List.filter_append, effects]
    case advanced done at_ | unlocked done at_ =>
      rw [at_] at calls effects
      refine ⟨calls.trans ?_, effects.trans ?_⟩ <;> simp [System.goto, current, pending]
    case announced done at_ =>
      rw [at_] at calls effects
      refine ⟨calls.trans ?_, effects.trans ?_⟩ <;>
        simp [System.returns, current, pending, Outcome.call, Outcome.effect]
  · obtain ⟨called, returned, done⟩ := change.histories same
    simp only [InOrder, called, returned, done]
    rcases change.others same with kept | ⟨done, -, moved⟩
    · rw [kept]
      exact ⟨calls, effects⟩
    · rw [moved, current_broadcast, pending_broadcast]
      exact ⟨calls, effects⟩

def sentItems (effects : List (Effect itemSize)) : List (Item itemSize) :=
  effects.filterMap fun
    | .sent value => some value
    | .received _ => none

def receivedItems (effects : List (Effect itemSize)) : List (Item itemSize) :=
  effects.filterMap fun
    | .sent _ => none
    | .received buf => some buf

theorem replay_fifo {before after : BoundedQueue (Item itemSize) size}
    {effects : List (Effect itemSize)} (ran : run replay before effects = some after) :
    before.items ++ sentItems effects = receivedItems effects ++ after.items := by
  induction effects generalizing before with
  | nil =>
    cases ran
    simp [sentItems, receivedItems]
  | cons done rest ih =>
    obtain ⟨next, first, later⟩ := Option.bind_eq_some_iff.mp ran
    have more := ih later
    cases done with
    | sent value =>
      have items := send_eq_some (show send before value = some next from first)
      rw [items, List.append_assoc] at more
      exact more
    | received buf =>
      simp only [replay] at first
      split at first
      case h_2 => cases first
      case h_1 item queue received =>
        split at first
        case isFalse => cases first
        case isTrue same =>
          cases first
          rw [receive_eq_some received, same]
          exact congrArg (buf :: ·) more

/-- Whatever the threads call and however their steps interleave, the effects
    are those of a bounded first-in first-out queue, one for each call that
    returned `PTHREAD_QUEUE_OK` and none for the others, in the order in which
    each thread made them; and when no thread is inside the section the ring
    holds what that queue holds. -/
theorem queue_linearizable {s : System ι size itemSize} {buffer : Mem}
    {actions : List (Step ι itemSize)}
    (reached : run step (start ι size itemSize buffer) actions = some s) :
    ∃ queue : BoundedQueue (Item itemSize) size,
      run replay empty (s.effects.map Prod.snd) = some queue ∧
        (s.mutex = none →
          contents (cell s.queue) size s.queue.outIndex s.queue.items =
            queue.items.map Item.bytes) ∧
        sentItems (s.effects.map Prod.snd) =
          receivedItems (s.effects.map Prod.snd) ++ queue.items ∧
        ∀ i, InOrder s i := by
  obtain ⟨queue, ran, free, -⟩ := (run_refines reached).2
  have order : ∀ i, InOrder s i :=
    run_invariant (fun _ _ _ order stepped => inOrder_step order stepped)
      (fun _ => ⟨rfl, rfl⟩) reached
  exact ⟨queue, ran, fun none_ => (free none_).contents_eq, replay_fifo ran, order⟩

def handover (value : Item itemSize) : List (Step Bool itemSize) :=
  [.call false .receive, .run false, .run false, .call true (.send value), .run true, .run true,
    .run true, .run true, .run true, .run true, .run true, .run false, .run false, .run false,
    .run false, .run false, .run false, .run false]

def byte (b : UInt8) : Item 1 := ⟨[b], rfl⟩

theorem handover_linearizable :
    ∃ s : System Bool 1 1,
      run step (start Bool 1 1 fun _ => 0) (handover (byte 7)) = some s ∧
        s.returned false = [.ok (.received (byte 7))] ∧
        sentItems (s.effects.map Prod.snd) = receivedItems (s.effects.map Prod.snd) := by
  obtain ⟨s, reached, result⟩ : ∃ s : System Bool 1 1,
      run step (start Bool 1 1 fun _ => 0) (handover (byte 7)) = some s ∧
        s.returned false = [.ok (.received (byte 7))] ∧
        receivedItems (s.effects.map Prod.snd) = [byte 7] ∧
        sentItems (s.effects.map Prod.snd) = [byte 7] := ⟨_, rfl, by decide⟩
  obtain ⟨queue, -, -, fifo, -⟩ := queue_linearizable reached
  have rest : queue.items = [] := by
    rw [result.2.1, result.2.2] at fifo
    simpa using fifo
  rw [rest, List.append_nil] at fifo
  exact ⟨s, reached, result.1, fifo⟩

end Steps
end PthreadQueue
