import Mathlib.Data.List.Basic

/-!
Runs of a transition system. `step s a` is the state after action `a`, or
`none` when the action is not possible in `s`.
-/
namespace Runs

variable {σ α : Type*} {step : σ → α → Option σ}

def run (step : σ → α → Option σ) : σ → List α → Option σ
  | s, [] => some s
  | s, a :: rest => (step s a).bind fun s => run step s rest

/-- `P` holds of every action of the run and of the state it is taken in. -/
def Along (step : σ → α → Option σ) (P : σ → α → Prop) (s : σ) (actions : List α) : Prop :=
  ∀ done a rest t, actions = done ++ a :: rest → run step s done = some t → P t a

/-- `P` holds of every state that the run passes, the first and last included. -/
def Throughout (step : σ → α → Option σ) (P : σ → Prop) (s : σ) (actions : List α) : Prop :=
  ∀ done rest t, actions = done ++ rest → run step s done = some t → P t

theorem run_append (s : σ) (first second : List α) :
    run step s (first ++ second) = (run step s first).bind fun t => run step t second := by
  induction first generalizing s with
  | nil => rfl
  | cons a rest ih =>
    simp only [List.cons_append, run, Option.bind_assoc]
    congr 1
    funext t
    exact ih t

theorem run_trans {s t u : σ} {first second : List α} (reached : run step s first = some t)
    (further : run step t second = some u) : run step s (first ++ second) = some u := by
  rw [run_append, reached]
  exact further

theorem run_single {s t : σ} {a : α} (stepped : step s a = some t) : run step s [a] = some t := by
  simp [run, stepped]

theorem run_cons {s t u : σ} {a : α} {rest : List α} (stepped : step s a = some t)
    (further : run step t rest = some u) : run step s (a :: rest) = some u :=
  run_trans (run_single stepped) further

theorem run_invariant_among {I : σ → Prop} {D : α → Prop}
    (keeps : ∀ s a t, I s → D a → step s a = some t → I t) {s t : σ} {actions : List α}
    (start : I s) (among : ∀ a ∈ actions, D a) (reached : run step s actions = some t) : I t := by
  induction actions generalizing s with
  | nil =>
    cases reached
    exact start
  | cons a rest ih =>
    obtain ⟨next, first, later⟩ := Option.bind_eq_some_iff.mp reached
    have kept := keeps s a next start (among a List.mem_cons_self) first
    exact ih kept (fun b mem => among b (List.mem_cons_of_mem a mem)) later

theorem run_invariant {I : σ → Prop} (keeps : ∀ s a t, I s → step s a = some t → I t)
    {s t : σ} {actions : List α} (start : I s) (reached : run step s actions = some t) : I t :=
  run_invariant_among (D := fun _ => True) (fun s a t holds _ => keeps s a t holds) start
    (fun _ _ => trivial) reached

theorem run_total {I : σ → Prop} {D : α → Prop}
    (goes : ∀ s a, I s → D a → ∃ t, step s a = some t ∧ I t) {s : σ} {actions : List α}
    (start : I s) (among : ∀ a ∈ actions, D a) : ∃ t, run step s actions = some t ∧ I t := by
  induction actions generalizing s with
  | nil => exact ⟨s, rfl, start⟩
  | cons a rest ih =>
    obtain ⟨t, stepped, kept⟩ := goes s a start (among a List.mem_cons_self)
    obtain ⟨u, further, kept'⟩ := ih kept fun b mem => among b (List.mem_cons_of_mem a mem)
    exact ⟨u, run_cons stepped further, kept'⟩

theorem run_raised {I : σ → Prop} {D : α → Prop} {m : σ → Nat} {raises : α → Bool}
    (keeps : ∀ s a t, I s → D a → step s a = some t → I t)
    (bound : ∀ s a t, I s → D a → step s a = some t → m t ≤ m s + (raises a).toNat)
    {s t : σ} {actions : List α} (start : I s) (among : ∀ a ∈ actions, D a)
    (reached : run step s actions = some t) : m t ≤ m s + actions.countP raises := by
  induction actions generalizing s with
  | nil =>
    cases reached
    exact Nat.le_refl _
  | cons a rest ih =>
    obtain ⟨next, first, later⟩ := Option.bind_eq_some_iff.mp reached
    have here := among a List.mem_cons_self
    have raised := bound s a next start here first
    have further := ih (keeps s a next start here first)
      (fun b mem => among b (List.mem_cons_of_mem a mem)) later
    rw [List.countP_cons]
    cases kind : raises a <;> rw [kind] at raised
    · simp only [Bool.toNat_false, Nat.add_zero] at raised
      simpa using Nat.le_trans further (Nat.add_le_add_right raised _)
    · simp only [Bool.toNat_true] at raised
      simp only [↓reduceIte]
      omega

theorem Along.tail {P : σ → α → Prop} {s t : σ} {a : α} {rest : List α}
    (along : Along step P s (a :: rest)) (first : step s a = some t) : Along step P t rest := by
  intro done b later u split reached
  apply along (a :: done) b later u (by rw [split]; rfl)
  simpa [run, first] using reached

theorem along_nil (P : σ → α → Prop) (s : σ) : Along step P s [] := by
  intro done a rest t split
  simp at split

theorem along_cons {P : σ → α → Prop} {s : σ} {a : α} {rest : List α} :
    Along step P s (a :: rest) ↔ P s a ∧ ∀ t, step s a = some t → Along step P t rest := by
  constructor
  · intro along
    exact ⟨along [] a rest s rfl rfl, fun t first => along.tail first⟩
  · rintro ⟨first, later⟩ done b more t split reached
    cases done with
    | nil =>
      simp only [List.nil_append, List.cons.injEq] at split
      obtain ⟨rfl, -⟩ := split
      cases reached
      exact first
    | cons d done =>
      simp only [List.cons_append, List.cons.injEq] at split
      obtain ⟨rfl, split⟩ := split
      obtain ⟨next, stepped, reached⟩ := Option.bind_eq_some_iff.mp reached
      exact later next stepped done b more t split reached

/-- Two conditions on steps that are the same, along a run within `R`, where an
    invariant holds that the steps keep which meet one of them. -/
theorem along_iff_within {I : σ → Prop} {R P Q : σ → α → Prop}
    (same : ∀ s a, I s → R s a → (P s a ↔ Q s a))
    (keeps : ∀ s a t, I s → R s a → P s a → step s a = some t → I t) {s : σ} (start : I s)
    {actions : List α} (within : Along step R s actions) :
    Along step P s actions ↔ Along step Q s actions := by
  induction actions generalizing s with
  | nil => simp [along_nil]
  | cons a rest ih =>
    obtain ⟨here, inside⟩ := along_cons.mp within
    rw [along_cons, along_cons, ← same s a start here]
    refine and_congr_right fun meets => ?_
    refine forall₂_congr fun t stepped => ?_
    exact ih (keeps s a t start here meets stepped) (inside t stepped)

theorem along_iff {I : σ → Prop} {D : α → Prop} {P Q : σ → α → Prop}
    (same : ∀ s a, I s → D a → (P s a ↔ Q s a))
    (keeps : ∀ s a t, I s → D a → P s a → step s a = some t → I t) {s : σ} (start : I s)
    {actions : List α} (among : ∀ a ∈ actions, D a) :
    Along step P s actions ↔ Along step Q s actions :=
  along_iff_within (R := fun _ a => D a) same keeps start fun done a rest _ split _ =>
    among a (by simp [split])

theorem along_iff_forall {I : σ → Prop} {R P : σ → α → Prop} {Q : α → Prop}
    (same : ∀ s a, I s → R s a → (P s a ↔ Q a))
    (goes : ∀ s a, I s → R s a → P s a → ∃ t, step s a = some t ∧ I t) {s : σ} (start : I s)
    {actions : List α} (within : Along step R s actions) :
    Along step P s actions ↔ ∀ a ∈ actions, Q a := by
  induction actions generalizing s with
  | nil => simp [along_nil]
  | cons a rest ih =>
    obtain ⟨here, inside⟩ := along_cons.mp within
    rw [along_cons, List.forall_mem_cons, ← same s a start here]
    refine and_congr_right fun meets => ?_
    obtain ⟨t, stepped, keeps⟩ := goes s a start here meets
    have later := ih keeps (inside t stepped)
    constructor
    · intro along
      exact later.mp (along t stepped)
    · intro all t' stepped'
      cases stepped.symm.trans stepped'
      exact later.mpr all

theorem throughout_of_along {I : σ → Prop} {P : σ → α → Prop}
    (keeps : ∀ s a t, I s → P s a → step s a = some t → I t) {s : σ} {actions : List α}
    (start : I s) (along : Along step P s actions) : Throughout step I s actions := by
  intro done rest t split reached
  induction done generalizing s actions with
  | nil =>
    cases reached
    exact start
  | cons a done ih =>
    obtain ⟨next, first, later⟩ := Option.bind_eq_some_iff.mp reached
    subst split
    have meets : P s a := along [] a (done ++ rest) s rfl rfl
    exact ih (keeps s a next start meets first) (along.tail first) rfl later

theorem throughout_iff_along {P : σ → Prop} {s : σ} {actions : List α} :
    Throughout step P s actions ↔
      P s ∧ Along step (fun s a => ∀ t, step s a = some t → P t) s actions := by
  constructor
  · intro throughout
    refine ⟨throughout [] actions s rfl rfl, fun done a rest t split reached u stepped => ?_⟩
    exact throughout (done ++ [a]) rest u (by simp [split]) (run_trans reached (run_single stepped))
  · intro ⟨start, along⟩
    exact throughout_of_along (fun _ _ t _ next => next t) start along

theorem run_total_along {I : σ → Prop} {P : σ → α → Prop}
    (goes : ∀ s a, I s → P s a → ∃ t, step s a = some t ∧ I t) {s : σ} (start : I s)
    {actions : List α} (along : Along step P s actions) :
    ∃ t, run step s actions = some t ∧ I t := by
  induction actions generalizing s with
  | nil => exact ⟨s, rfl, start⟩
  | cons a rest ih =>
    obtain ⟨here, later⟩ := along_cons.mp along
    obtain ⟨t, stepped, kept⟩ := goes s a start here
    obtain ⟨u, further, kept'⟩ := ih kept (later t stepped)
    exact ⟨u, run_cons stepped further, kept'⟩

theorem along_and {P Q : σ → α → Prop} {s : σ} {actions : List α} :
    Along step (fun s a => P s a ∧ Q s a) s actions ↔
      Along step P s actions ∧ Along step Q s actions := by
  constructor
  · intro both
    exact ⟨fun done a rest t split reached => (both done a rest t split reached).1,
      fun done a rest t split reached => (both done a rest t split reached).2⟩
  · intro ⟨one, two⟩ done a rest t split reached
    exact ⟨one done a rest t split reached, two done a rest t split reached⟩

end Runs
