import Mathlib.Data.List.Basic

/-!
Components that answer calls. An implementation agrees with an abstract one as
long as the abstract one admits the calls; two implementations of one abstract
component then give the same replies.
-/
namespace Refinement

variable {α σ τ κ ρ : Type}

def replies (step : σ → κ → Option (ρ × σ)) : σ → List κ → Option (List ρ × σ)
  | s, [] => some ([], s)
  | s, call :: calls => do
    let (reply, s) ← step s call
    let (rest, s) ← replies step s calls
    return (reply :: rest, s)

def answers (step : α → κ → ρ × α) : α → List κ → List ρ × α
  | a, [] => ([], a)
  | a, call :: calls =>
    let (reply, a) := step a call
    let (rest, a) := answers step a calls
    (reply :: rest, a)

def AdmitsAll (step : α → κ → ρ × α) (admits : α → κ → Prop) : α → List κ → Prop
  | _, [] => True
  | a, call :: calls => admits a call ∧ AdmitsAll step admits (step a call).2 calls

def Implements (spec : α → κ → ρ × α) (admits : α → κ → Prop) (step : σ → κ → Option (ρ × σ))
    (R : α → σ → Prop) : Prop :=
  ∀ a s call, R a s → admits a call →
    ∃ s', step s call = some ((spec a call).1, s') ∧ R (spec a call).2 s'

theorem Implements.replies {spec : α → κ → ρ × α} {admits : α → κ → Prop}
    {step : σ → κ → Option (ρ × σ)} {R : α → σ → Prop} (implements : Implements spec admits step R)
    {a : α} {s : σ} (related : R a s) {calls : List κ} (admitted : AdmitsAll spec admits a calls) :
    ∃ s', Refinement.replies step s calls = some ((answers spec a calls).1, s') ∧
      R (answers spec a calls).2 s' := by
  induction calls generalizing a s with
  | nil => exact ⟨s, rfl, related⟩
  | cons call calls ih =>
    obtain ⟨s₁, stepped, related₁⟩ := implements a s call related admitted.1
    obtain ⟨s₂, further, related₂⟩ := ih related₁ admitted.2
    refine ⟨s₂, ?_, related₂⟩
    rw [Refinement.replies, stepped]
    simp only [Option.bind_eq_bind, Option.bind_some, further]
    rfl

theorem Implements.agree {spec : α → κ → ρ × α} {admits : α → κ → Prop}
    {step : σ → κ → Option (ρ × σ)} {step' : τ → κ → Option (ρ × τ)} {R : α → σ → Prop}
    {R' : α → τ → Prop} (one : Implements spec admits step R)
    (other : Implements spec admits step' R') {a : α} {s : σ} {t : τ} (related : R a s)
    (related' : R' a t) {calls : List κ} (admitted : AdmitsAll spec admits a calls) :
    ∃ s' t', Refinement.replies step s calls = some ((answers spec a calls).1, s') ∧
      Refinement.replies step' t calls = some ((answers spec a calls).1, t') := by
  obtain ⟨s', run, -⟩ := one.replies related admitted
  obtain ⟨t', run', -⟩ := other.replies related' admitted
  exact ⟨s', t', run, run'⟩

end Refinement
