import Mathlib.Data.List.Basic
import Mathlib.Data.List.Pairwise
import Mathlib.Data.List.Perm.Basic
import Mathlib.Tactic.Common

/-!
A table of rows with ascending row numbers, as a relational database keeps it.
A new row takes the number after the greatest one in use. A replacing insertion
takes its number before the rows that it replaces are deleted.
-/
namespace RowTables

structure RowTable (α : Type) where
  rows : List (Nat × α)
  ascending : (rows.map Prod.fst).Pairwise (· < ·)
  positive : ∀ r ∈ rows, 0 < r.1

variable {α : Type} {t : RowTable α}

def empty : RowTable α := ⟨[], List.Pairwise.nil, nofun⟩

def values (t : RowTable α) : List α := t.rows.map Prod.snd

def lastNumber (t : RowTable α) : Nat := (t.rows.getLast?.map Prod.fst).getD 0

theorem le_lastNumber {r : Nat × α} (mem : r ∈ t.rows) : r.1 ≤ lastNumber t := by
  obtain ⟨rows, ascending, positive⟩ := t
  rcases List.eq_nil_or_concat rows with rfl | ⟨before, last, rfl⟩
  · cases mem
  · simp only [lastNumber, List.concat_eq_append, List.getLast?_concat, Option.map_some,
      Option.getD_some]
    simp only [List.concat_eq_append, List.mem_append, List.mem_singleton] at mem
    rcases mem with old | rfl
    · simp only [List.concat_eq_append, List.map_append, List.pairwise_append] at ascending
      exact Nat.le_of_lt (ascending.2.2 _ (List.mem_map_of_mem old) _ (by simp))
    · exact Nat.le_refl _

def deleteRows (p : Nat × α → Bool) (t : RowTable α) : RowTable α where
  rows := t.rows.filter fun r => !p r
  ascending := t.ascending.sublist (List.filter_sublist.map Prod.fst)
  positive r mem := t.positive r (List.mem_of_mem_filter mem)

def appendRow (t : RowTable α) (n : Nat) (a : α) (above : ∀ r ∈ t.rows, r.1 < n)
    (pos : 0 < n) : RowTable α where
  rows := t.rows ++ [(n, a)]
  ascending := by
    rw [List.map_append, List.pairwise_append]
    refine ⟨t.ascending, List.pairwise_singleton _ _, ?_⟩
    intro m hm k hk
    obtain ⟨r, mem, rfl⟩ := List.mem_map.mp hm
    rw [List.mem_singleton.mp hk]
    exact above r mem
  positive := by
    intro r mem
    rcases List.mem_append.mp mem with old | new
    · exact t.positive r old
    · rw [List.mem_singleton.mp new]
      exact pos

def insert (a : α) (t : RowTable α) : RowTable α :=
  appendRow t (lastNumber t + 1) a (fun _ mem => Nat.lt_succ_of_le (le_lastNumber mem))
    (Nat.succ_pos _)

def insertOrReplace (p : α → Bool) (a : α) (t : RowTable α) : RowTable α :=
  appendRow (deleteRows (fun r => p r.2) t) (lastNumber t + 1) a
    (fun _ mem => Nat.lt_succ_of_le (le_lastNumber (List.mem_of_mem_filter mem))) (Nat.succ_pos _)

def selectFirst (p : α → Bool) (t : RowTable α) : Option α := (values t).find? p

def rowAt (n : Nat) (t : RowTable α) : Option α := (t.rows.find? fun r => r.1 = n).map Prod.snd

@[simp] theorem values_empty : values (empty : RowTable α) = [] := rfl

@[simp] theorem values_insert (a : α) : values (insert a t) = values t ++ [a] := by
  simp [values, insert, appendRow]

@[simp] theorem values_deleteRows (p : α → Bool) :
    values (deleteRows (fun r => p r.2) t) = (values t).filter fun a => !p a := by
  simp only [values, deleteRows, List.filter_map]
  rfl

@[simp] theorem values_insertOrReplace (p : α → Bool) (a : α) :
    values (insertOrReplace p a t) = (values t).filter (fun b => !p b) ++ [a] := by
  rw [← values_deleteRows]
  simp [values, insertOrReplace, appendRow]

@[simp] theorem lastNumber_insertOrReplace (p : α → Bool) (a : α) :
    lastNumber (insertOrReplace p a t) = lastNumber t + 1 := by
  simp [lastNumber, insertOrReplace, appendRow]

theorem lastNumber_deleteRows (p : Nat × α → Bool) : lastNumber (deleteRows p t) ≤ lastNumber t := by
  cases last : (deleteRows p t).rows.getLast? with
  | none => simp [lastNumber, last]
  | some r =>
    have mem := List.mem_of_mem_filter (List.mem_of_getLast? last)
    simpa [lastNumber, last] using le_lastNumber mem

/-! The scan of the first `n` row numbers. -/

def scan (t : RowTable α) (n : Nat) : List α := (List.range n).filterMap fun i => rowAt (i + 1) t

theorem filter_le_succ {rows : List (Nat × α)} (ascending : (rows.map Prod.fst).Pairwise (· < ·))
    (n : Nat) : rows.filter (fun r => r.1 ≤ n + 1) =
      rows.filter (fun r => r.1 ≤ n) ++ rows.filter (fun r => r.1 = n + 1) := by
  induction rows with
  | nil => rfl
  | cons r rest ih =>
    rw [List.map_cons, List.pairwise_cons] at ascending
    obtain ⟨after, tail⟩ := ascending
    have later : ∀ q ∈ rest, r.1 < q.1 := fun q mem => after q.1 (List.mem_map_of_mem mem)
    by_cases low : r.1 ≤ n
    · have step : r.1 ≤ n + 1 := by omega
      have ne : ¬ r.1 = n + 1 := by omega
      simp [low, step, ne, ih tail]
    · have none : rest.filter (fun q => decide (q.1 ≤ n)) = [] := by
        rw [List.filter_eq_nil_iff]
        intro q mem
        have := later q mem
        simp only [decide_eq_true_eq]
        omega
      have same : rest.filter (fun q => decide (q.1 ≤ n + 1)) =
          rest.filter fun q => decide (q.1 = n + 1) := by
        apply List.filter_congr
        intro q mem
        have := later q mem
        simp only [decide_eq_decide]
        omega
      by_cases hit : r.1 = n + 1
      · simp [hit, none, same]
      · have high : ¬ r.1 ≤ n + 1 := by omega
        simp [low, high, hit, none, same]

theorem find_number {rows : List (Nat × α)} (ascending : (rows.map Prod.fst).Pairwise (· < ·))
    (n : Nat) : (rows.find? fun r => r.1 = n).toList = rows.filter fun r => r.1 = n := by
  induction rows with
  | nil => rfl
  | cons r rest ih =>
    rw [List.map_cons, List.pairwise_cons] at ascending
    obtain ⟨after, tail⟩ := ascending
    by_cases hit : r.1 = n
    · have none : rest.filter (fun q => decide (q.1 = n)) = [] := by
        rw [List.filter_eq_nil_iff]
        intro q mem
        have := after q.1 (List.mem_map_of_mem mem)
        simp only [decide_eq_true_eq]
        omega
      simp [hit, none]
    · simp [hit, ih tail]

theorem rowAt_eq_some_iff {n : Nat} {a : α} : rowAt n t = some a ↔ (n, a) ∈ t.rows := by
  have found := find_number t.ascending n
  have one : rowAt n t = some a ↔ a ∈ ((t.rows.find? fun r => r.1 = n).toList.map Prod.snd) := by
    rw [rowAt, ← Option.toList_map, Option.mem_toList]
  rw [one, found]
  simp only [List.mem_map, List.mem_filter, decide_eq_true_eq]
  constructor
  · rintro ⟨r, ⟨mem, rfl⟩, rfl⟩
    exact mem
  · intro mem
    exact ⟨(n, a), ⟨mem, rfl⟩, rfl⟩

theorem rowAt_eq_none_iff {n : Nat} : rowAt n t = none ↔ ∀ r ∈ t.rows, r.1 ≠ n := by
  simp [rowAt]

theorem rowAt_deleteRows_of_ne {m n : Nat} (ne : m ≠ n) :
    rowAt m (deleteRows (fun r => r.1 = n) t) = rowAt m t := by
  apply Option.ext
  intro a
  rw [rowAt_eq_some_iff, rowAt_eq_some_iff]
  simp [deleteRows, ne]

theorem scan_eq (t : RowTable α) (n : Nat) :
    scan t n = (t.rows.filter fun r => r.1 ≤ n).map Prod.snd := by
  induction n with
  | zero =>
    have none : t.rows.filter (fun r => decide (r.1 ≤ 0)) = [] := by
      rw [List.filter_eq_nil_iff]
      intro r mem
      have := t.positive r mem
      simp only [decide_eq_true_eq]
      omega
    rw [none]
    rfl
  | succ n ih =>
    have one : [n].filterMap (fun i => rowAt (i + 1) t) = (rowAt (n + 1) t).toList := by
      cases found : rowAt (n + 1) t <;> simp [found]
    rw [scan, List.range_succ, List.filterMap_append, one, ← scan, ih, filter_le_succ t.ascending,
      List.map_append, ← find_number t.ascending, rowAt, Option.toList_map]

theorem scan_perm_iff (t : RowTable α) (n : Nat) :
    (scan t n).Perm (values t) ↔ ∀ r ∈ t.rows, r.1 ≤ n := by
  rw [scan_eq, values]
  constructor
  · intro perm
    have length := perm.length_eq
    rw [List.length_map, List.length_map, List.length_filter_eq_length_iff] at length
    intro r mem
    simpa using length r mem
  · intro all
    have whole : t.rows.filter (fun r => decide (r.1 ≤ n)) = t.rows := by
      rw [List.filter_eq_self]
      intro r mem
      simpa using all r mem
    rw [whole]

end RowTables
