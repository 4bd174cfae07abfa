import SuchaiFlight.SqliteFlightPlan
import SuchaiFlight.TripleWriting

/-!
Power losses while a status variable is written. `dat_set_status_var` writes
its copies one after another, so a loss leaves the first ones new and the
others old; the vote of the reader makes that the old or the new value.
-/
namespace TornWrites
open StorageApi RepoData StatusVariables Replication Runs TripleWriting

section Votes
variable {α : Type*} [DecidableEq α]

def torn (copies : Nat → α) (value : α) (k n : Nat) : α := if n < k then value else copies n

theorem majority_torn (copies : Nat → α) (value : α) (k : Nat) :
    majority (torn copies value k) = majority copies ∨ majority (torn copies value k) = value := by
  match k with
  | 0 => exact .inl rfl
  | 1 =>
    by_cases agree : copies 1 = copies 2
    · by_cases same : value = copies 1
      · exact .inr (by simp [majority, torn, same])
      · -- the two old copies outvote the new one, as they outvoted the first one before
        left
        have other : value ≠ copies 2 := agree ▸ same
        by_cases old : copies 0 = copies 1
        · simp [majority, torn, ← agree, same, old]
        · simp [majority, torn, ← agree, same, old]
    · exact .inr (by simp [majority, torn, agree])
  | k + 2 =>
    right
    simp [majority, torn]

end Votes

variable {σ ρ : Type} {S : Storage σ} {c : Config} {good : σ → Prop}
  {cell : σ → Nat → Option UInt32} {rest : σ → ρ} {put : σ → Nat → UInt32 → σ}

/-! A write that is cut short. -/

def copyCells (c : Config) (index : Nat) : List Nat :=
  (List.range (statusCopies c)).map (copyCell c index)

def writeCells (S : Storage σ) (value : UInt32) (s : σ) (cells : List Nat) : Option σ :=
  cells.foldlM (fun s k => (S.storageStatusSetValueIdx s k value).map Prod.snd) s

/-- Power is lost when `k` of the copies have been written. -/
def cutStatusVar (S : Storage σ) (c : Config) (s : σ) (index : Nat) (value : UInt32) (k : Nat) :
    Option σ :=
  writeCells S value s ((copyCells c index).take k)

theorem writeCells_spec (laws : StatusLaws S c good cell rest put) (value : UInt32)
    (cells : List Nat) {s : σ} (ok : good s)
    (inside : ∀ k ∈ cells, k < statusCopies c * c.datStatusLastVar) :
    ∃ s', writeCells S value s cells = some s' ∧ good s' ∧ rest s' = rest s ∧
      ∀ j < statusCopies c * c.datStatusLastVar,
        cell s' j = if j ∈ cells then some value else cell s j := by
  induction cells generalizing s with
  | nil => exact ⟨s, rfl, ok, rfl, fun j _ => by simp⟩
  | cons k more ih =>
    have here := inside k List.mem_cons_self
    obtain ⟨s', later, ok', rest', written⟩ := ih (laws.good_write s k value ok here)
      fun j mem => inside j (List.mem_cons_of_mem k mem)
    refine ⟨s', ?_, ok', rest'.trans (laws.rest_write s k value), ?_⟩
    · simp only [writeCells, List.foldlM_cons, laws.set s k value ok here, Option.map_some,
        Option.bind_eq_bind, Option.bind_some]
      exact later
    · intro j bound
      rw [written j bound, laws.cell_write s k value j ok here bound]
      by_cases last : j ∈ more
      · simp [last]
      · simp [last]

theorem copyCell_inside {index n : Nat} (bound : index < c.datStatusLastAddress)
    (copy : n < statusCopies c) : copyCell c index n < statusCopies c * c.datStatusLastVar := by
  rw [c.lastVar_eq, copyCell]
  calc index + c.datStatusLastAddress * n
      < c.datStatusLastAddress * (n + 1) := by rw [Nat.mul_succ]; omega
    _ ≤ c.datStatusLastAddress * statusCopies c := Nat.mul_le_mul_left _ copy
    _ = statusCopies c * c.datStatusLastAddress := Nat.mul_comm _ _

/-! What is read after it. -/

def elected (c : Config) (copies : Nat → UInt32) : UInt32 :=
  if c.schStorageTripleWr then majority copies else copies 0

theorem voted_of_copies {cells : Nat → Option UInt32} {index : Nat} {copies : Nat → UInt32}
    (held : ∀ n < statusCopies c, cells (copyCell c index n) = some (copies n)) :
    voted c cells index = some (elected c copies) := by
  cases triple : c.schStorageTripleWr with
  | false =>
    have first := held 0 (by simp [statusCopies, triple])
    simp only [copyCell, Nat.mul_zero, Nat.add_zero] at first
    simp [voted, elected, triple, first]
  | true =>
    have three : statusCopies c = 3 := by simp [statusCopies, triple]
    have first := held 0 (by omega)
    have second := held 1 (by omega)
    have third := held 2 (by omega)
    simp only [copyCell, Nat.mul_zero, Nat.mul_one, Nat.add_zero] at first second third
    simp only [voted, elected, triple, first, second, third, majority, Option.bind_eq_bind,
      Option.bind_some, ↓reduceIte]
    split
    · rfl
    · split <;> rfl

theorem copies_of_voted {cells : Nat → Option UInt32} {index : Nat} {value : UInt32}
    (read : voted c cells index = some value) :
    ∃ copies : Nat → UInt32, ∀ n < statusCopies c,
      cells (copyCell c index n) = some (copies n) := by
  have readable : ∀ n < statusCopies c, ∃ x, cells (copyCell c index n) = some x := by
    intro n bound
    obtain ⟨first, one, read⟩ := Option.bind_eq_some_iff.mp read
    cases triple : c.schStorageTripleWr with
    | false =>
      obtain rfl : n = 0 := by simpa [statusCopies, triple] using bound
      exact ⟨first, by simpa [copyCell] using one⟩
    | true =>
      simp only [triple, ↓reduceIte] at read
      obtain ⟨second, two, read⟩ := Option.bind_eq_some_iff.mp read
      obtain ⟨third, three, -⟩ := Option.bind_eq_some_iff.mp read
      have listed : n = 0 ∨ n = 1 ∨ n = 2 := by
        simp only [statusCopies, triple, ↓reduceIte] at bound
        omega
      obtain rfl | rfl | rfl := listed
      · exact ⟨first, by simpa [copyCell] using one⟩
      · exact ⟨second, by simpa [copyCell] using two⟩
      · exact ⟨third, three⟩
  choose! copies held using readable
  exact ⟨copies, held⟩

theorem cutStatusVar_spec (laws : StatusLaws S c good cell rest put) {s : σ} (ok : good s)
    {index : Nat} (bound : index < c.datStatusLastAddress) (value : UInt32) (k : Nat) :
    ∃ s', cutStatusVar S c s index value k = some s' ∧ good s' ∧ rest s' = rest s ∧
      (∀ old, voted c (cell s) index = some old →
        voted c (cell s') index = some old ∨ voted c (cell s') index = some value) ∧
      ∀ j < c.datStatusLastAddress, j ≠ index → voted c (cell s') j = voted c (cell s) j := by
  have cells : (copyCells c index).take k =
      (List.range (min k (statusCopies c))).map (copyCell c index) := by
    rw [copyCells, ← List.map_take, List.take_range]
  have inside : ∀ j ∈ (copyCells c index).take k, j < statusCopies c * c.datStatusLastVar := by
    intro j mem
    obtain ⟨n, copy, rfl⟩ := List.mem_map.mp (List.mem_of_mem_take mem)
    exact copyCell_inside bound (List.mem_range.mp copy)
  obtain ⟨s', cut, ok', rest', written⟩ := writeCells_spec laws value _ ok inside
  refine ⟨s', cut, ok', rest', ?_, ?_⟩
  · intro old read
    obtain ⟨copies, held⟩ := copies_of_voted read
    have held' : ∀ n < statusCopies c,
        cell s' (copyCell c index n) = some (torn copies value k n) := by
      intro n copy
      rw [written _ (copyCell_inside bound copy), held n copy, cells]
      have listed : copyCell c index n ∈ (List.range (min k (statusCopies c))).map
          (copyCell c index) ↔ n < k := by
        rw [List.mem_map]
        constructor
        · rintro ⟨m, below, same⟩
          have pos : 0 < c.datStatusLastAddress := by omega
          obtain rfl : m = n := Nat.eq_of_mul_eq_mul_left pos (Nat.add_left_cancel same)
          exact (Nat.lt_min.mp (List.mem_range.mp below)).1
        · intro below
          exact ⟨n, List.mem_range.mpr (Nat.lt_min.mpr ⟨below, copy⟩), rfl⟩
      by_cases new : n < k
      · rw [if_pos (listed.mpr new), torn, if_pos new]
      · rw [if_neg (new ∘ listed.mp), torn, if_neg new]
    rw [voted_of_copies held] at read
    rw [voted_of_copies held', ← read]
    cases triple : c.schStorageTripleWr with
    | false =>
      simp only [elected, triple, Bool.false_eq_true, ↓reduceIte, torn, Option.some.injEq]
      split
      · exact .inr rfl
      · exact .inl rfl
    | true =>
      simp only [elected, triple, ↓reduceIte, Option.some.injEq]
      exact majority_torn copies value k
  · intro j hj ne
    have same : ∀ n < statusCopies c,
        cell s' (copyCell c j n) = cell s (copyCell c j n) := by
      intro n copy
      rw [written _ (copyCell_inside hj copy), if_neg]
      intro mem
      obtain ⟨m, -, eq⟩ := List.mem_map.mp (List.mem_of_mem_take mem)
      exact copyCell_apart bound hj ne eq.symm
    cases triple : c.schStorageTripleWr with
    | false =>
      have first := same 0 (by simp [statusCopies, triple])
      simp only [copyCell, Nat.mul_zero, Nat.add_zero] at first
      simp [voted, triple, first]
    | true =>
      have three : statusCopies c = 3 := by simp [statusCopies, triple]
      have first := same 0 (by omega)
      have second := same 1 (by omega)
      have third := same 2 (by omega)
      simp only [copyCell, Nat.mul_zero, Nat.mul_one, Nat.add_zero] at first second third
      simp [voted, triple, first, second, third]

/-! Histories of writes. -/

inductive Event (c : Config) where
  | set (index : Fin c.datStatusLastAddress) (value : UInt32)
  | cut (index : Fin c.datStatusLastAddress) (value : UInt32) (copies : Nat)

def stepEvent (S : Storage σ) (c : Config) (s : σ) : Event c → Option σ
  | .set index value => (datSetStatusVar S c s index value).map Prod.snd
  | .cut index value copies => cutStatusVar S c s index value copies

/-- The values that a variable may have: that of its last whole write, before
    any write the value at the start, and those of the writes cut short since. -/
def candidates (c : Config) (index : Nat) : List UInt32 → List (Event c) → List UInt32
  | values, [] => values
  | values, .set i value :: events =>
    candidates c index (if i.val = index then [value] else values) events
  | values, .cut i value _ :: events =>
    candidates c index (if i.val = index then value :: values else values) events

theorem stepEvent_spec (laws : StatusLaws S c good cell rest put) {s : σ} (ok : good s)
    (event : Event c) : ∃ s', stepEvent S c s event = some s' ∧ good s' ∧
      ∀ index < c.datStatusLastAddress, ∀ values, (∃ v ∈ values, voted c (cell s) index = some v) →
        ∃ v ∈ candidates c index values [event], voted c (cell s') index = some v := by
  cases event with
  | set i value =>
    obtain ⟨s', set, ok', -, vote⟩ := datSetStatusVar_spec laws ok i.isLt value
    refine ⟨s', by rw [stepEvent, set]; rfl, ok', ?_⟩
    intro index bound values held
    simp only [candidates]
    rw [vote index bound]
    by_cases here : i.val = index
    · exact ⟨value, by simp [here], by rw [if_pos here.symm]⟩
    · rw [if_neg here, if_neg fun same => here same.symm]
      exact held
  | cut i value copies =>
    obtain ⟨s', cut, ok', -, either, others⟩ := cutStatusVar_spec laws ok i.isLt value copies
    refine ⟨s', cut, ok', ?_⟩
    intro index bound values held
    simp only [candidates]
    obtain ⟨old, mem, read⟩ := held
    by_cases here : i.val = index
    · subst here
      rw [if_pos rfl]
      rcases either old read with same | new
      · exact ⟨old, List.mem_cons_of_mem value mem, same⟩
      · exact ⟨value, List.mem_cons_self, new⟩
    · rw [if_neg here, others index bound fun same => here same.symm]
      exact ⟨old, mem, read⟩

theorem candidates_cons (index : Nat) (values : List UInt32) (event : Event c)
    (events : List (Event c)) :
    candidates c index values (event :: events) =
      candidates c index (candidates c index values [event]) events := by
  cases event <;> rfl

/-- Whatever writes are cut short, and after however many copies: every variable
    still has one of the values that were written to it, that of the last whole
    write or of one cut short since. -/
theorem cut_writes_atomic (laws : StatusLaws S c good cell rest put) {s : σ} (ok : good s)
    (events : List (Event c)) : ∃ s', run (stepEvent S c) s events = some s' ∧ good s' ∧
      ∀ index < c.datStatusLastAddress, ∀ start, datGetStatusVar S c s index = some start →
        ∃ v ∈ candidates c index [start] events, datGetStatusVar S c s' index = some v := by
  have kept : ∃ s', run (stepEvent S c) s events = some s' ∧ good s' ∧
      ∀ index < c.datStatusLastAddress, ∀ values, (∃ v ∈ values, voted c (cell s) index = some v) →
        ∃ v ∈ candidates c index values events, voted c (cell s') index = some v := by
    induction events generalizing s with
    | nil => exact ⟨s, rfl, ok, fun _ _ _ held => held⟩
    | cons event events ih =>
      obtain ⟨s₁, stepped, ok₁, first⟩ := stepEvent_spec laws ok event
      obtain ⟨s', further, ok', later⟩ := ih ok₁
      refine ⟨s', run_cons stepped further, ok', fun index bound values held => ?_⟩
      rw [candidates_cons]
      exact later index bound _ (first index bound values held)
  obtain ⟨s', reached, ok', held⟩ := kept
  refine ⟨s', reached, ok', fun index bound start read => ?_⟩
  rw [datGetStatusVar_eq laws ok bound] at read
  rw [datGetStatusVar_eq laws ok' bound]
  exact held index bound [start] ⟨start, List.mem_singleton_self start, read⟩

def tripleConfig : Config := { simpleConfig with schStorageTripleWr := true }

theorem resetCounter_lt : 4 < tripleConfig.datStatusLastAddress := by decide

def resetCounter : Fin tripleConfig.datStatusLastAddress := ⟨4, resetCounter_lt⟩

theorem two_cuts_atomic :
    ∃ s', run (stepEvent SqliteStorage.sqliteStorage tripleConfig) SqliteFlightPlan.openedStore
        [.cut resetCounter 1 1, .cut resetCounter 2 2] = some s' ∧
      ∃ v ∈ [2, 1, 0],
        datGetStatusVar SqliteStorage.sqliteStorage tripleConfig s' resetCounter = some v := by
  obtain ⟨s', reached, -, read⟩ := cut_writes_atomic (SqliteStorage.sqlite_status tripleConfig)
    (s := SqliteFlightPlan.openedStore) rfl [.cut resetCounter 1 1, .cut resetCounter 2 2]
  exact ⟨s', reached, read resetCounter resetCounter.isLt 0 rfl⟩

end TornWrites
