import SuchaiFlight.Library.Runs

/-!
Two parties over a channel that loses, repeats and reorders messages. A request
puts the messages that answer it into the air; each message in the air can reach
the receiver, once or several times, or be lost.
-/
namespace LossyChannel
open Runs

structure Session (σ μ : Type) where
  receiver : σ
  air : List μ
  heard : List μ

inductive Event (ρ : Type) where
  | call (request : ρ)
  | deliver (i : Nat)
  | copy (i : Nat)
  | lose (i : Nat)
  deriving DecidableEq

variable {σ μ ρ : Type} {answer : ρ → Option (List μ)} {receive : σ → μ → Option σ}
  {D : μ → Prop} {R : ρ → Prop}

def opening (rx : σ) : Session σ μ := ⟨rx, [], []⟩

def arrive (receive : σ → μ → Option σ) (s : Session σ μ) (m : μ) : Option (Session σ μ) :=
  (receive s.receiver m).map fun rx => { s with receiver := rx, heard := s.heard ++ [m] }

def step (answer : ρ → Option (List μ)) (receive : σ → μ → Option σ) (s : Session σ μ) :
    Event ρ → Option (Session σ μ)
  | .call request => (answer request).map fun messages => { s with air := s.air ++ messages }
  | .deliver i => do
    let m ← s.air[i]?
    let s' ← arrive receive s m
    return { s' with air := s.air.eraseIdx i }
  | .copy i => do
    let m ← s.air[i]?
    arrive receive s m
  | .lose i => do
    let _ ← s.air[i]?
    return { s with air := s.air.eraseIdx i }

inductive Change (answer : ρ → Option (List μ)) (receive : σ → μ → Option σ) (s : Session σ μ) :
    Event ρ → Session σ μ → Prop where
  | answered {request : ρ} {messages : List μ} (sent : answer request = some messages) :
      Change answer receive s (.call request) { s with air := s.air ++ messages }
  | delivered {i : Nat} {m : μ} {rx : σ} (flying : s.air[i]? = some m)
      (taken : receive s.receiver m = some rx) :
      Change answer receive s (.deliver i) ⟨rx, s.air.eraseIdx i, s.heard ++ [m]⟩
  | copied {i : Nat} {m : μ} {rx : σ} (flying : s.air[i]? = some m)
      (taken : receive s.receiver m = some rx) :
      Change answer receive s (.copy i) ⟨rx, s.air, s.heard ++ [m]⟩
  | lost {i : Nat} {m : μ} (flying : s.air[i]? = some m) :
      Change answer receive s (.lose i) { s with air := s.air.eraseIdx i }

theorem step_cases {s t : Session σ μ} {event : Event ρ}
    (taken : step answer receive s event = some t) : Change answer receive s event t := by
  cases event with
  | call request =>
    obtain ⟨messages, sent, rfl⟩ := Option.map_eq_some_iff.mp taken
    exact .answered sent
  | deliver i =>
    obtain ⟨m, flying, later⟩ := Option.bind_eq_some_iff.mp taken
    obtain ⟨s', arrived, done⟩ := Option.bind_eq_some_iff.mp later
    obtain ⟨rx, received, rfl⟩ := Option.map_eq_some_iff.mp arrived
    cases done
    exact .delivered flying received
  | copy i =>
    obtain ⟨m, flying, arrived⟩ := Option.bind_eq_some_iff.mp taken
    obtain ⟨rx, received, rfl⟩ := Option.map_eq_some_iff.mp arrived
    exact .copied flying received
  | lose i =>
    obtain ⟨m, flying, done⟩ := Option.bind_eq_some_iff.mp taken
    cases done
    exact .lost flying

def Accounted (receive : σ → μ → Option σ) (rx : σ) (s : Session σ μ) : Prop :=
  run receive rx s.heard = some s.receiver

def Only (D : μ → Prop) (s : Session σ μ) : Prop :=
  (∀ m ∈ s.air, D m) ∧ ∀ m ∈ s.heard, D m

theorem opening_reached (rx : σ) :
    Accounted receive rx (opening rx) ∧ Only D (opening rx) :=
  ⟨rfl, by simp [Only, opening]⟩

theorem Accounted.step {rx : σ} {s t : Session σ μ} {event : Event ρ}
    (accounted : Accounted receive rx s) (taken : step answer receive s event = some t) :
    Accounted receive rx t := by
  cases step_cases taken with
  | answered => exact accounted
  | delivered flying received => exact run_trans accounted (run_single received)
  | copied flying received => exact run_trans accounted (run_single received)
  | lost => exact accounted

theorem only_heard {s : Session σ μ} {i : Nat} {m : μ} (only : Only D s)
    (flying : s.air[i]? = some m) : ∀ m' ∈ s.heard ++ [m], D m' := by
  intro m' mem
  rcases List.mem_append.mp mem with before | now
  · exact only.2 m' before
  · rw [List.mem_singleton.mp now]
    exact only.1 m (List.mem_of_getElem? flying)

theorem Only.step (kind : ∀ r messages, R r → answer r = some messages → ∀ m ∈ messages, D m)
    {s t : Session σ μ} {event : Event ρ} (only : Only D s)
    (legit : ∀ r, event = .call r → R r) (taken : step answer receive s event = some t) :
    Only D t := by
  cases step_cases taken with
  | answered sent =>
    refine ⟨fun m mem => ?_, only.2⟩
    rcases List.mem_append.mp mem with before | now
    · exact only.1 m before
    · exact kind _ _ (legit _ rfl) sent m now
  | delivered flying received =>
    exact ⟨fun m mem => only.1 m (List.mem_of_mem_eraseIdx mem), only_heard only flying⟩
  | copied flying received => exact ⟨only.1, only_heard only flying⟩
  | lost flying => exact ⟨fun m mem => only.1 m (List.mem_of_mem_eraseIdx mem), only.2⟩

theorem reached_heard (kind : ∀ r messages, R r → answer r = some messages → ∀ m ∈ messages, D m)
    {rx : σ} {s : Session σ μ} {events : List (Event ρ)}
    (legit : ∀ r, Event.call r ∈ events → R r)
    (reached : run (step answer receive) (opening rx) events = some s) :
    Accounted receive rx s ∧ Only D s := by
  refine run_invariant_among (I := fun s => Accounted receive rx s ∧ Only D s)
    (D := fun event => ∀ r, event = .call r → R r) ?_ (opening_reached rx) ?_ reached
  · intro s event t ⟨accounted, only⟩ legit taken
    exact ⟨accounted.step taken, only.step kind legit taken⟩
  · rintro event mem r rfl
    exact legit r mem

def Possible (s : Session σ μ) : Event ρ → Prop
  | .call _ => True
  | .deliver i | .copy i | .lose i => i < s.air.length

theorem arrive_eq {s : Session σ μ} {m : μ} {rx : σ} (received : receive s.receiver m = some rx) :
    arrive receive s m = some { s with receiver := rx, heard := s.heard ++ [m] } := by
  simp [arrive, received]

theorem step_goes (answers : ∀ r, R r → ∃ messages, answer r = some messages)
    {s : Session σ μ} (takes : ∀ m ∈ s.air, ∃ rx, receive s.receiver m = some rx)
    {event : Event ρ} (legit : ∀ r, event = .call r → R r) (possible : Possible s event) :
    ∃ t, step answer receive s event = some t := by
  cases event with
  | call request =>
    obtain ⟨messages, sent⟩ := answers request (legit request rfl)
    exact ⟨_, by rw [step, sent, Option.map_some]⟩
  | deliver i =>
    have within : i < s.air.length := possible
    obtain ⟨rx, received⟩ := takes s.air[i] (List.getElem_mem within)
    rw [step, List.getElem?_eq_getElem within, Option.bind_eq_bind, Option.bind_some,
      arrive_eq received]
    exact ⟨_, rfl⟩
  | copy i =>
    have within : i < s.air.length := possible
    obtain ⟨rx, received⟩ := takes s.air[i] (List.getElem_mem within)
    rw [step, List.getElem?_eq_getElem within, Option.bind_eq_bind, Option.bind_some,
      arrive_eq received]
    exact ⟨_, rfl⟩
  | lose i =>
    have within : i < s.air.length := possible
    rw [step, List.getElem?_eq_getElem within]
    exact ⟨_, rfl⟩

theorem call_deliver {s : Session σ μ} {request : ρ} {m : μ} {rx : σ}
    (sent : answer request = some [m]) (received : receive s.receiver m = some rx) :
    run (step answer receive) s [.call request, .deliver s.air.length] =
      some ⟨rx, s.air, s.heard ++ [m]⟩ := by
  have received' : receive ({ s with air := s.air ++ [m] } : Session σ μ).receiver m = some rx :=
    received
  simp only [run, step, sent, Option.map_some, Option.bind_some, List.getElem?_concat_length,
    Option.bind_eq_bind, arrive_eq received', Option.pure_def]
  simp [List.eraseIdx_append_of_length_le]

end LossyChannel
