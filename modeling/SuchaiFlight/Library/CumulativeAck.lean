import SuchaiFlight.Library.Blocks

/-!
Items that are sent in blocks over a channel that loses some of them. An
acknowledgement says how many of the first items are there, and what is sent
next starts behind those.
-/
namespace CumulativeAck
open Blocks

variable {α β : Type*} {size : Nat}

/-- What arrives of a list. Nothing arrives without an entry in `kept`. -/
def arriving : List Bool → List α → List α
  | true :: kept, a :: rest => a :: arriving kept rest
  | false :: kept, _ :: rest => arriving kept rest
  | _, _ => []

def TailLost (kept : List Bool) : Prop :=
  List.Pairwise (fun first later => later = true → first = true) kept

instance (kept : List Bool) : Decidable (TailLost kept) :=
  inferInstanceAs (Decidable (List.Pairwise (fun first later => later = true → first = true) kept))

def blocks (size : Nat) (l : List α) : List (List α) :=
  (List.range (blockCount size l.length)).map (block size l)

structure Transfer (α : Type*) where
  stored : List α
  acked : Nat
  received : List α

inductive Event (α : Type*) where
  | store (item : α)
  | send (limit : Option Nat) (kept : List Bool)
  | acknowledge (count : Nat)

def Transfer.window (t : Transfer α) : Option Nat → List α
  | none => t.stored.drop t.acked
  | some limit => (t.stored.drop t.acked).take limit

/-- No acknowledgement is taken back, and none is for more than what is stored. -/
def Transfer.step (size : Nat) (t : Transfer α) : Event α → Transfer α
  | .store item => { t with stored := t.stored ++ [item] }
  | .send limit kept =>
    { t with received := t.received ++ (arriving kept (blocks size (t.window limit))).flatten }
  | .acknowledge count =>
    if count < t.acked then t else { t with acked := min count t.stored.length }

def Transfer.after (size : Nat) (t : Transfer α) (events : List (Event α)) : Transfer α :=
  events.foldl (Transfer.step size) t

/-- Nothing is sent before all that has arrived is acknowledged, and nothing is
    acknowledged that has not. -/
def Transfer.InOrder (t : Transfer α) : Event α → Prop
  | .store _ => True
  | .send _ kept => t.acked = t.received.length ∧ TailLost kept
  | .acknowledge count => count ≤ t.received.length

def Transfer.AllInOrder (size : Nat) (t : Transfer α) : List (Event α) → Prop
  | [] => True
  | event :: rest => t.InOrder event ∧ (t.step size event).AllInOrder size rest

structure Transfer.Exact (t : Transfer α) : Prop where
  first : t.received <+: t.stored
  there : t.acked ≤ t.received.length

/-! What arrives. -/

theorem arriving_map (f : α → β) (kept : List Bool) (l : List α) :
    arriving kept (l.map f) = (arriving kept l).map f := by
  induction kept generalizing l with
  | nil => rfl
  | cons here kept ih =>
    cases l with
    | nil => cases here <;> rfl
    | cons a rest => cases here <;> simp [arriving, ih]

theorem arriving_sublist (kept : List Bool) (l : List α) : (arriving kept l).Sublist l := by
  induction kept generalizing l with
  | nil => simp [arriving]
  | cons here kept ih =>
    cases l with
    | nil => cases here <;> simp [arriving]
    | cons a rest =>
      cases here with
      | true => exact (ih rest).cons_cons a
      | false => exact (ih rest).cons a

theorem arriving_take {kept : List Bool} (tail : TailLost kept) (l : List α) :
    arriving kept l = l.take (kept.count true) := by
  induction kept generalizing l with
  | nil => rfl
  | cons here kept ih =>
    obtain ⟨lost, rest_lost⟩ := List.pairwise_cons.mp tail
    cases here with
    | true =>
      cases l with
      | nil => simp [arriving]
      | cons a rest => simp [arriving, ih rest_lost]
    | false =>
      have none_left : (false :: kept).count true = 0 := by
        rw [List.count_eq_zero]
        intro mem
        rcases List.mem_cons.mp mem with here | later
        · cases here
        · exact Bool.false_ne_true (lost true later rfl)
      rw [none_left, List.take_zero]
      cases l with
      | nil => simp [arriving]
      | cons a rest =>
        have more : kept.count true = 0 := by simpa using none_left
        rw [arriving, ih rest_lost, more, List.take_zero]

theorem take_blocks (pos : 0 < size) (l : List α) (n : Nat) :
    ((blocks size l).take n).flatten = l.take (size * n) := by
  unfold blocks
  rw [← List.map_take, List.take_range, ← List.flatMap_def, flatMap_block]
  rcases Nat.le_total n (blockCount size l.length) with few | all
  · rw [Nat.min_eq_left few]
  · have stop := (lt_blockCount_iff pos (n := l.length)).not.mp (lt_irrefl _)
    have more := Nat.mul_le_mul_left size all
    rw [Nat.min_eq_right all, List.take_of_length_le (by omega), List.take_of_length_le (by omega)]

theorem arriving_blocks (pos : 0 < size) {kept : List Bool} (tail : TailLost kept) (l : List α) :
    (arriving kept (blocks size l)).flatten = l.take (size * kept.count true) := by
  rw [arriving_take tail, take_blocks pos]

/-! What one event keeps. -/

section Step
variable {t : Transfer α} {event : Event α} {events : List (Event α)}

@[simp] theorem after_nil (t : Transfer α) : t.after size [] = t := rfl

@[simp] theorem after_cons (t : Transfer α) (event : Event α) (rest : List (Event α)) :
    t.after size (event :: rest) = (t.step size event).after size rest := rfl

theorem after_append (t : Transfer α) (events more : List (Event α)) :
    t.after size (events ++ more) = (t.after size events).after size more :=
  List.foldl_append

theorem stored_step (t : Transfer α) (event : Event α) :
    t.stored <+: (t.step size event).stored := by
  cases event with
  | store item => exact List.prefix_append _ _
  | send limit kept => exact List.prefix_refl _
  | acknowledge count =>
    simp only [Transfer.step]
    split <;> exact List.prefix_refl _

theorem received_step (t : Transfer α) (event : Event α) :
    t.received <+: (t.step size event).received := by
  cases event with
  | store item => exact List.prefix_refl _
  | send limit kept => exact List.prefix_append _ _
  | acknowledge count =>
    simp only [Transfer.step]
    split <;> exact List.prefix_refl _

theorem after_grows (size : Nat) (t : Transfer α) (events : List (Event α)) :
    t.stored <+: (t.after size events).stored ∧
      t.received <+: (t.after size events).received := by
  induction events generalizing t with
  | nil => exact ⟨List.prefix_refl _, List.prefix_refl _⟩
  | cons event rest ih =>
    obtain ⟨stored, received⟩ := ih (t.step size event)
    exact ⟨(stored_step t event).trans stored, (received_step t event).trans received⟩

theorem window_continues (exact : t.Exact) (settled : t.acked = t.received.length)
    (limit : Option Nat) : t.received ++ t.window limit <+: t.stored := by
  have start : t.stored.take t.acked = t.received := by
    rw [settled]
    exact (List.prefix_iff_eq_take.mp exact.first).symm
  have whole : t.received ++ t.stored.drop t.acked = t.stored := by
    rw [← start, List.take_append_drop]
  cases limit with
  | none => exact whole ▸ List.prefix_refl _
  | some limit =>
    conv_rhs => rw [← whole]
    exact (List.prefix_append_right_inj _).mpr (List.take_prefix _ _)

theorem Transfer.Exact.step (pos : 0 < size) (exact : t.Exact) (order : t.InOrder event) :
    (t.step size event).Exact := by
  cases event with
  | store item =>
    exact ⟨exact.first.trans (List.prefix_append _ _), exact.there⟩
  | send limit kept =>
    obtain ⟨settled, tail⟩ := order
    have continues := window_continues exact settled limit
    constructor
    · simp only [Transfer.step, arriving_blocks pos tail]
      exact ((List.prefix_append_right_inj _).mpr (List.take_prefix _ _)).trans continues
    · simp only [Transfer.step, List.length_append]
      exact Nat.le_trans exact.there (Nat.le_add_right _ _)
  | acknowledge count =>
    have enough : count ≤ t.received.length := order
    simp only [Transfer.step]
    split
    · exact exact
    · exact ⟨exact.first, Nat.le_trans (Nat.min_le_left _ _) enough⟩

theorem Transfer.Exact.after (pos : 0 < size) (exact : t.Exact)
    (order : t.AllInOrder size events) : (t.after size events).Exact := by
  induction events generalizing t with
  | nil => exact exact
  | cons event rest ih => exact ih (exact.step pos order.1) order.2

end Step

/-! Sessions: everything that is not acknowledged is sent, and what has arrived
is acknowledged. -/

section Sessions
variable {t : Transfer α}

def session (size : Nat) (t : Transfer α) (kept : List Bool) : List (Event α) :=
  [.send none kept, .acknowledge (t.step size (.send none kept)).received.length]

def sessions (size : Nat) (t : Transfer α) : List (List Bool) → List (Event α)
  | [] => []
  | kept :: rest => session size t kept ++ sessions size (t.after size (session size t kept)) rest

structure Transfer.Settled (t : Transfer α) : Prop extends t.Exact where
  settled : t.acked = t.received.length

theorem session_received (pos : 0 < size) (settled : t.Settled) {kept : List Bool}
    (tail : TailLost kept) :
    (t.step size (.send none kept)).received =
      t.stored.take (t.acked + size * kept.count true) := by
  have start : t.received = t.stored.take t.acked := by
    rw [settled.settled]
    exact List.prefix_iff_eq_take.mp settled.first
  simp only [Transfer.step, Transfer.window, arriving_blocks pos tail]
  rw [start, ← List.take_add]

theorem session_settles (pos : 0 < size) (settled : t.Settled) {kept : List Bool}
    (tail : TailLost kept) :
    (t.after size (session size t kept)).Settled ∧
      (t.after size (session size t kept)).stored = t.stored ∧
      (t.after size (session size t kept)).acked =
        min (t.acked + size * kept.count true) t.stored.length := by
  have received := session_received pos settled tail
  have exact : (t.step size (.send none kept)).Exact :=
    settled.toExact.step pos ⟨settled.settled, tail⟩
  have count : (t.step size (.send none kept)).received.length =
      min (t.acked + size * kept.count true) t.stored.length := by
    rw [received, List.length_take]
  have within : t.acked ≤ t.stored.length := by
    rw [settled.settled]
    exact settled.first.length_le
  have forward : ¬ (t.step size (.send none kept)).received.length < t.acked := by
    rw [count]
    omega
  have last : t.after size (session size t kept) =
      { t.step size (.send none kept) with
        acked := min (t.step size (.send none kept)).received.length t.stored.length } :=
    if_neg forward
  rw [last]
  have few : min (t.step size (.send none kept)).received.length t.stored.length =
      (t.step size (.send none kept)).received.length := by
    rw [count]
    omega
  rw [few]
  exact ⟨⟨⟨exact.first, Nat.le_refl _⟩, rfl⟩, rfl, count⟩

theorem session_inOrder (settled : t.Settled) {kept : List Bool} (tail : TailLost kept) :
    t.AllInOrder size (session size t kept) :=
  ⟨⟨settled.settled, tail⟩, Nat.le_refl _, trivial⟩

theorem allInOrder_append {events more : List (Event α)} (first : t.AllInOrder size events)
    (later : (t.after size events).AllInOrder size more) :
    t.AllInOrder size (events ++ more) := by
  induction events generalizing t with
  | nil => exact later
  | cons event rest ih => exact ⟨first.1, ih first.2 later⟩

theorem sessions_events (pos : 0 < size) (settled : t.Settled) {losses : List (List Bool)}
    (tails : ∀ kept ∈ losses, TailLost kept) :
    ∀ event ∈ sessions size t losses, (∃ kept, event = .send none kept) ∨
      ∃ count ≤ t.stored.length, event = .acknowledge count := by
  induction losses generalizing t with
  | nil => simp [sessions]
  | cons kept rest ih =>
    have tail := tails kept List.mem_cons_self
    obtain ⟨settled', stored, -⟩ := session_settles pos settled tail
    intro event mem
    rcases List.mem_append.mp mem with here | later
    · rcases List.mem_cons.mp here with rfl | acknowledged
      · exact .inl ⟨kept, rfl⟩
      · have exact : (t.step size (.send none kept)).Exact :=
          settled.toExact.step pos ⟨settled.settled, tail⟩
        exact .inr ⟨_, exact.first.length_le, List.mem_singleton.mp acknowledged⟩
    · rw [← stored]
      exact ih settled' (fun kept mem => tails kept (List.mem_cons_of_mem _ mem)) event later

/-- As many sessions as there are blocks left bring everything, whatever is lost
    behind the first block of each. -/
theorem sessions_complete (pos : 0 < size) (settled : t.Settled) {losses : List (List Bool)}
    (tails : ∀ kept ∈ losses, TailLost kept ∧ 0 < kept.count true)
    (enough : t.stored.length ≤ t.acked + size * losses.length) :
    t.AllInOrder size (sessions size t losses) ∧
      (t.after size (sessions size t losses)).stored = t.stored ∧
      (t.after size (sessions size t losses)).received = t.stored ∧
      (t.after size (sessions size t losses)).acked = t.stored.length := by
  induction losses generalizing t with
  | nil =>
    have within := settled.first.length_le
    have count := settled.settled
    simp only [List.length_nil, Nat.mul_zero, Nat.add_zero] at enough
    exact ⟨trivial, rfl, settled.first.eq_of_length (by omega), show t.acked = _ by omega⟩
  | cons kept rest ih =>
    obtain ⟨tail, some_block⟩ := tails kept List.mem_cons_self
    obtain ⟨settled', stored, acked⟩ := session_settles pos settled tail
    have moved := Nat.mul_le_mul_left size some_block
    rw [List.length_cons, Nat.mul_succ] at enough
    obtain ⟨order, same, received, all⟩ := ih settled'
      (fun kept mem => tails kept (List.mem_cons_of_mem _ mem)) (by rw [stored, acked]; omega)
    rw [stored] at same received all
    rw [sessions, after_append]
    exact ⟨allInOrder_append (session_inOrder settled tail) order, same, received, all⟩

end Sessions

end CumulativeAck
