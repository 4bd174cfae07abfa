import Mathlib.Data.List.Basic
import Mathlib.Tactic.Common

/-!
Loops that count from 0 and write the cells of an array. A loop has no result
when one of its passes has none, as when it leaves the array.
-/
namespace CountedLoops

variable {σ ι K : Type*}

/-- `for (i = 0; i < n; ++i) body` -/
def upTo : Nat → (Nat → σ → Option σ) → σ → Option σ
  | 0, _, s => some s
  | n + 1, body, s => (upTo n body s).bind (body n)

def load (a : List K) (i : Nat) : Option K := a[i]?

def store (a : List K) (i : Nat) (x : K) : Option (List K) :=
  if i < a.length then some (a.set i x) else none

theorem store_inside {a : List K} {i : Nat} (inside : i < a.length) (x : K) :
    store a i x = some (a.set i x) := by rw [store, if_pos inside]

theorem store_eq_some {a b : List K} {i : Nat} {x : K} (stored : store a i x = some b) :
    i < a.length ∧ b = a.set i x := by
  unfold store at stored
  split at stored
  · rename_i inside
    exact ⟨inside, (Option.some.inj stored).symm⟩
  · cases stored

theorem bind_of_eq {α β : Type} {x : Option α} {a : α} (found : x = some a) (f : α → Option β) :
    x >>= f = f a := by
  rw [found]
  rfl

/-! The rules of a loop. -/

section Rules
variable {n : Nat} {body : Nat → σ → Option σ} {I : Nat → σ → Prop} {s t : σ}

theorem upTo_spec (start : I 0 s)
    (pass : ∀ i < n, ∀ s, I i s → ∃ t, body i s = some t ∧ I (i + 1) t) :
    ∃ t, upTo n body s = some t ∧ I n t := by
  induction n with
  | zero => exact ⟨s, rfl, start⟩
  | succ n ih =>
    obtain ⟨u, before, held⟩ := ih fun i below => pass i (by omega)
    obtain ⟨t, last, next⟩ := pass n (by omega) u held
    refine ⟨t, ?_, next⟩
    rw [upTo, before]
    exact last

theorem upTo_invariant (run : upTo n body s = some t) (start : I 0 s)
    (pass : ∀ i < n, ∀ s t, I i s → body i s = some t → I (i + 1) t) : I n t := by
  induction n generalizing t with
  | zero =>
    cases run
    exact start
  | succ n ih =>
    obtain ⟨u, before, last⟩ := Option.bind_eq_some_iff.mp run
    exact pass n (by omega) u t (ih before fun i below => pass i (by omega)) last

theorem upTo_passes (run : upTo n body s = some t) {i : Nat} (below : i < n) :
    ∃ u v, body i u = some v := by
  induction n generalizing t with
  | zero => omega
  | succ n ih =>
    obtain ⟨u, before, last⟩ := Option.bind_eq_some_iff.mp run
    by_cases here : i = n
    · exact ⟨u, t, here ▸ last⟩
    · exact ih before (by omega)

end Rules

/-! What a loop has written. -/

structure Filled (D : ι → Prop) (target : ι → Nat) (value : ι → Option K) (a b : List K) :
    Prop where
  length : b.length = a.length
  written : ∀ x, D x → b[target x]? = value x
  frame : ∀ k, (∀ x, D x → target x ≠ k) → b[k]? = a[k]?

section Fill
variable {D D' : ι → Prop} {target : ι → Nat} {value : ι → Option K} {a b : List K}

theorem filled_none (empty : ∀ x, ¬ D x) : Filled D target value a a where
  length := rfl
  written x member := absurd member (empty x)
  frame _ _ := rfl

theorem Filled.insert (filled : Filled D target value a b) {x : ι} {v : K}
    (inside : target x < a.length) (new : value x = some v)
    (more : ∀ y, D' y ↔ D y ∨ y = x) (apart : ∀ y, D y → target y ≠ target x) :
    Filled D' target value a (b.set (target x) v) where
  length := by rw [List.length_set, filled.length]
  written y member := by
    rcases (more y).mp member with old | rfl
    · rw [List.getElem?_set_ne (apart y old).symm]
      exact filled.written y old
    · rw [List.getElem?_set_self (by rw [filled.length]; exact inside), new]
  frame k untouched := by
    rw [List.getElem?_set_ne (untouched x ((more x).mpr (.inr rfl)))]
    exact filled.frame k fun y old => untouched y ((more y).mpr (.inl old))

theorem Filled.congr (filled : Filled D target value a b) (same : ∀ x, D' x ↔ D x) :
    Filled D' target value a b where
  length := filled.length
  written x member := filled.written x ((same x).mp member)
  frame k untouched := filled.frame k fun x member => untouched x ((same x).mpr member)

end Fill

section Loops
variable {n m : Nat} {a : List K}

theorem upTo_fill (body : Nat → List K → Option (List K)) (target : Nat → Nat)
    (value : Nat → Option K) (inside : ∀ i < n, target i < a.length)
    (apart : ∀ i < n, ∀ j < n, target i = target j → i = j)
    (pass : ∀ i < n, ∀ b : List K, b.length = a.length → b[target i]? = a[target i]? →
      ∃ v, value i = some v ∧ body i b = some (b.set (target i) v)) :
    ∃ b, upTo n body a = some b ∧ Filled (fun i => i < n) target value a b := by
  apply upTo_spec (I := fun i b => Filled (fun j => j < i) target value a b)
  · exact filled_none fun i => Nat.not_lt_zero i
  · intro i below b filled
    have others : ∀ j < i, target j ≠ target i := by
      intro j old same
      have eq := apart j (by omega) i below same
      omega
    obtain ⟨v, new, run⟩ := pass i below b filled.length (filled.frame (target i) others)
    refine ⟨_, run, filled.insert (inside i below) new ?_ others⟩
    intro j
    omega

theorem upTo_fill₂ (body : Nat → Nat → List K → Option (List K)) (target : Nat × Nat → Nat)
    (value : Nat × Nat → Option K) (inside : ∀ i < n, ∀ j < m, target (i, j) < a.length)
    (apart : ∀ i < n, ∀ j < m, ∀ i' < n, ∀ j' < m,
      target (i, j) = target (i', j') → i = i' ∧ j = j')
    (pass : ∀ i < n, ∀ j < m, ∀ b : List K, b.length = a.length →
      b[target (i, j)]? = a[target (i, j)]? →
      ∃ v, value (i, j) = some v ∧ body i j b = some (b.set (target (i, j)) v)) :
    ∃ b, upTo n (fun i => upTo m (body i)) a = some b ∧
      Filled (fun x => x.1 < n ∧ x.2 < m) target value a b := by
  apply upTo_spec (I := fun i b => Filled (fun x => x.1 < i ∧ x.2 < m) target value a b)
  · exact filled_none fun x member => Nat.not_lt_zero _ member.1
  · intro i row b filled
    -- within row `i` the columns before `j` are written
    have columns : ∀ j < m, ∀ b : List K,
        Filled (fun x => x.1 < i ∧ x.2 < m ∨ x.1 = i ∧ x.2 < j) target value a b →
        ∃ t, body i j b = some t ∧
          Filled (fun x => x.1 < i ∧ x.2 < m ∨ x.1 = i ∧ x.2 < j + 1) target value a t := by
      intro j column b filled
      have others : ∀ x : Nat × Nat, x.1 < i ∧ x.2 < m ∨ x.1 = i ∧ x.2 < j →
          target x ≠ target (i, j) := by
        rintro ⟨i', j'⟩ old same
        have eq := apart i' (by omega) j' (by omega) i row j column same
        omega
      obtain ⟨v, new, run⟩ :=
        pass i row j column b filled.length (filled.frame (target (i, j)) others)
      refine ⟨_, run, filled.insert (inside i row j column) new ?_ others⟩
      rintro ⟨i', j'⟩
      simp only [Prod.mk.injEq]
      omega
    obtain ⟨t, run, filled⟩ := upTo_spec (filled.congr fun x => by omega) columns
    exact ⟨t, run, filled.congr fun x => by omega⟩

end Loops

end CountedLoops
