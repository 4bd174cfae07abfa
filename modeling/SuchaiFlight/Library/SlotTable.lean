import Mathlib.Data.Multiset.Filter
import Mathlib.Data.Multiset.Range
import Mathlib.Data.Multiset.AddSub
import Mathlib.Logic.Function.Basic
import Mathlib.Tactic.Common

/-!
A table of `n` recycled slots and the bounded multimap it stands for. A slot
holds at most one record; the table is scanned from slot 0 and the first slot
that passes a test is used. The multimap forgets the slots.
-/
namespace SlotTable

/-- The index at which a scan `for i in 0 .. n-1` first passes its test. -/
def first (n : Nat) (p : Nat → Bool) : Option Nat := (List.range n).find? p

theorem first_eq_none_iff {n : Nat} {p : Nat → Bool} :
    first n p = none ↔ ∀ i < n, p i = false := by
  simp [first]

theorem first_eq_some_iff {n i : Nat} {p : Nat → Bool} :
    first n p = some i ↔ i < n ∧ p i = true ∧ ∀ j < i, p j = false := by
  simp only [first, List.find?_range_eq_some, Bool.not_eq_true', List.mem_range]
  tauto

theorem first_congr {n : Nat} {p q : Nat → Bool} (same : ∀ i < n, p i = q i) :
    first n p = first n q := by
  cases h : first n q with
  | none =>
    rw [first_eq_none_iff] at h ⊢
    intro i bound
    rw [same i bound, h i bound]
  | some i =>
    obtain ⟨bound, hit, before⟩ := first_eq_some_iff.mp h
    refine first_eq_some_iff.mpr ⟨bound, by rw [same i bound, hit], ?_⟩
    intro j lt
    rw [same j (by omega), before j lt]

section Contents
variable {α : Type}

def contents (n : Nat) (slot : Nat → Option α) : Multiset α := (Multiset.range n).filterMap slot

theorem mem_contents {n : Nat} {slot : Nat → Option α} {a : α} :
    a ∈ contents n slot ↔ ∃ i < n, slot i = some a := by
  simp [contents]

theorem contents_succ (n : Nat) (slot : Nat → Option α) :
    contents (n + 1) slot = Multiset.ofList (slot n).toList + contents n slot := by
  rw [contents, Multiset.range_succ]
  cases h : slot n with
  | none => simp [Multiset.filterMap_cons_none _ _ h, contents]
  | some a => simp [Multiset.filterMap_cons_some _ _ _ h, contents]

theorem contents_congr {n : Nat} {slot slot' : Nat → Option α}
    (same : ∀ i < n, slot i = slot' i) : contents n slot = contents n slot' := by
  induction n with
  | zero => rfl
  | succ n ih =>
    rw [contents_succ, contents_succ, same n (by omega), ih fun i bound => same i (by omega)]

theorem contents_card_congr {β : Type} {n : Nat} {slot : Nat → Option α} {slot' : Nat → Option β}
    (same : ∀ i < n, (slot i).isSome = (slot' i).isSome) :
    (contents n slot).card = (contents n slot').card := by
  induction n with
  | zero => rfl
  | succ n ih =>
    have here := same n (by omega)
    rw [contents_succ, contents_succ, Multiset.card_add, Multiset.card_add,
      ih fun i bound => same i (by omega)]
    cases h : slot n <;> cases h' : slot' n <;> simp_all

theorem contents_fill {n i : Nat} {slot : Nat → Option α} (bound : i < n) (free : slot i = none)
    (a : α) : contents n (Function.update slot i (some a)) = a ::ₘ contents n slot := by
  induction n with
  | zero => omega
  | succ n ih =>
    rw [contents_succ, contents_succ]
    by_cases last : i = n
    · subst i
      have before : contents n (Function.update slot n (some a)) = contents n slot :=
        contents_congr fun j lt => by simp [Nat.ne_of_lt lt]
      simp [before, free]
    · have ne : n ≠ i := fun eq => last eq.symm
      rw [ih (by omega), Function.update_of_ne ne, Multiset.add_cons]

theorem contents_clear {n i : Nat} {slot : Nat → Option α} {a : α} (bound : i < n)
    (taken : slot i = some a) :
    contents n slot = a ::ₘ contents n (Function.update slot i none) := by
  have refill := contents_fill bound (Function.update_self i none slot) a
  rwa [Function.update_idem, ← taken, Function.update_eq_self] at refill

theorem contents_eq_zero_iff {n : Nat} {slot : Nat → Option α} :
    contents n slot = 0 ↔ ∀ i < n, slot i = none := by
  rw [Multiset.eq_zero_iff_forall_notMem]
  constructor
  · intro empty i bound
    cases h : slot i with
    | none => rfl
    | some a => exact absurd (mem_contents.mpr ⟨i, bound, h⟩) (empty a)
  · intro free a mem
    obtain ⟨i, bound, h⟩ := mem_contents.mp mem
    rw [free i bound] at h
    contradiction

theorem contents_card (n : Nat) (slot : Nat → Option α) :
    (contents n slot).card = (List.range n).countP fun i => (slot i).isSome := by
  induction n with
  | zero => rfl
  | succ n ih =>
    rw [contents_succ, Multiset.card_add, ih, List.range_succ, List.countP_append]
    cases here : slot n <;> simp [here, Nat.add_comm]

theorem contents_card_le (n : Nat) (slot : Nat → Option α) : (contents n slot).card ≤ n := by
  induction n with
  | zero => simp [contents]
  | succ n ih => cases h : slot n <;> simp [contents_succ, h] <;> omega

theorem contents_card_lt_iff {n : Nat} {slot : Nat → Option α} :
    (contents n slot).card < n ↔ ∃ i < n, slot i = none := by
  induction n with
  | zero => simp
  | succ n ih =>
    cases h : slot n with
    | none =>
      have le := contents_card_le n slot
      simp only [contents_succ, h, Option.toList_none, Multiset.coe_nil, Multiset.card_add,
        Multiset.card_zero]
      exact ⟨fun _ => ⟨n, by omega, h⟩, fun _ => by omega⟩
    | some a =>
      simp only [contents_succ, h, Option.toList_some, Multiset.coe_singleton, Multiset.card_add,
        Multiset.card_singleton]
      constructor
      · intro room
        obtain ⟨i, bound, free⟩ := ih.mp (by omega)
        exact ⟨i, by omega, free⟩
      · rintro ⟨i, bound, free⟩
        have ne : i ≠ n := fun eq => by rw [eq, h] at free; contradiction
        have lower := ih.mpr ⟨i, by omega, free⟩
        omega

end Contents

/-!
The bounded multimap. `ok` is the proposition that the call reported success,
so both directions of "succeeds iff" are part of the specification.
-/
section Multimap
variable {α κ : Type}

def Puts (cap : Nat) (a : α) (ok : Prop) (m m' : Multiset α) : Prop :=
  (ok ↔ m.card < cap) ∧ (ok → m' = a ::ₘ m) ∧ (¬ ok → m' = m)

def Takes (key : α → κ) (k : κ) (m : Multiset α) : Option α → Multiset α → Prop
  | some a, m' => key a = k ∧ m = a ::ₘ m'
  | none, m' => (∀ a ∈ m, key a ≠ k) ∧ m' = m

theorem takes_isSome_iff {key : α → κ} {k : κ} {m m' : Multiset α} {found : Option α}
    (takes : Takes key k m found m') : found.isSome ↔ ∃ a ∈ m, key a = k := by
  cases found with
  | none =>
    have absent := takes.1
    simpa using absent
  | some a =>
    obtain ⟨hit, split⟩ := takes
    simp only [Option.isSome_some, true_iff]
    exact ⟨a, by simp [split], hit⟩

theorem takes_none {key : α → κ} {k : κ} {m m' : Multiset α} {found : Option α}
    (takes : Takes key k m found m') (absent : ¬ ∃ a ∈ m, key a = k) : found = none := by
  rwa [← takes_isSome_iff takes, Option.isSome_iff_ne_none, not_not] at absent

theorem puts_first_free {n i : Nat} {slot : Nat → Option α}
    (free : first n (fun j => (slot j).isNone) = some i) (a : α) :
    Puts n a True (contents n slot) (contents n (Function.update slot i (some a))) := by
  obtain ⟨bound, empty, -⟩ := first_eq_some_iff.mp free
  have none : slot i = none := by simpa using empty
  refine ⟨?_, fun _ => contents_fill bound none a, fun no => absurd trivial no⟩
  simpa using contents_card_lt_iff.mpr ⟨i, bound, none⟩

theorem puts_no_free {n : Nat} {slot : Nat → Option α}
    (full : first n (fun j => (slot j).isNone) = none) (a : α) :
    Puts n a False (contents n slot) (contents n slot) := by
  refine ⟨?_, False.elim, fun _ => rfl⟩
  simp only [false_iff]
  intro room
  obtain ⟨i, bound, free⟩ := contents_card_lt_iff.mp room
  have taken := first_eq_none_iff.mp full i bound
  simp [free] at taken

variable [DecidableEq κ]

theorem takes_first_match {n i : Nat} {slot : Nat → Option α} {key : α → κ} {k : κ}
    (hit : first n (fun j => (slot j).any fun a => key a = k) = some i) :
    ∃ a, slot i = some a ∧ key a = k ∧
      Takes key k (contents n slot) (some a) (contents n (Function.update slot i none)) := by
  obtain ⟨bound, test, -⟩ := first_eq_some_iff.mp hit
  cases h : slot i with
  | none => simp [h] at test
  | some a =>
    have eq : key a = k := by simpa [h] using test
    exact ⟨a, rfl, eq, eq, contents_clear bound h⟩

theorem takes_no_match {n : Nat} {slot : Nat → Option α} {key : α → κ} {k : κ}
    (miss : first n (fun j => (slot j).any fun a => key a = k) = none) :
    Takes key k (contents n slot) none (contents n slot) := by
  refine ⟨?_, rfl⟩
  intro a mem eq
  obtain ⟨i, bound, h⟩ := mem_contents.mp mem
  have test := first_eq_none_iff.mp miss i bound
  simp [h, eq] at test

end Multimap

end SlotTable
