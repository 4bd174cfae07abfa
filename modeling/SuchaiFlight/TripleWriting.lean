import SuchaiFlight.Library.Replication
import SuchaiFlight.Library.Runs
import SuchaiFlight.FlightPlanCalls

/-!
Status variables kept in three copies (`SCH_STORAGE_TRIPLE_WR`) on the RAM back
end, while stored cells are corrupted. `dat_set_status_var` places the copies
with `dat_status_last_address` and `dat_get_status_var` with
`dat_status_last_var`; a schema lists one variable for each address.
-/
namespace TripleWriting
open StorageApi RepoData RamStorage RamFlightPlan Replication Runs

def copyCell (c : Config) (index n : Nat) : Nat := index + c.datStatusLastAddress * n

inductive Event (c : Config) where
  | set (index : Fin c.datStatusLastAddress) (value : UInt32)
  | corrupt (cell : Fin (3 * c.datStatusLastAddress)) (value : UInt32)

def stepEvent (c : Config) (s : RamStore) : Event c → Option RamStore
  | .set index value => (datSetStatusVar (ramStorage c) c s index value).map Prod.snd
  | .corrupt cell value =>
    s.statusDb.map fun db => { s with statusDb := some (Function.update db cell value) }

/-- At most one copy of the variable is corrupted, any number of times. -/
def OneCopyHit {c : Config} (index : Nat) (events : List (Event c)) : Prop :=
  ∃ faulty, ∀ n < 3, n ≠ faulty → ∀ cell value, Event.corrupt cell value ∈ events →
    cell.val ≠ copyCell c index n

def copies (c : Config) (status : Nat → UInt32) (index : Nat) (n : Nat) : UInt32 :=
  status (copyCell c index n)

variable {c : Config} {s : RamStore} {status : Nat → UInt32} {index other : Nat}

theorem vote_eq_majority (triple : c.schStorageTripleWr = true) (status : Nat → UInt32)
    (index : Nat) : vote c status index = majority (copies c status index) := by
  simp [vote, triple, majority, copies, copyCell]

theorem storeCopies_copy (triple : c.schStorageTripleWr = true) (value : UInt32) {n : Nat}
    (bound : n < 3) : storeCopies c status index value (copyCell c index n) = value := by
  have listed : n = 0 ∨ n = 1 ∨ n = 2 := by omega
  simp only [storeCopies, triple, if_true, Function.update_apply, copyCell]
  obtain rfl | rfl | rfl := listed <;> simp

theorem storeCopies_apart (triple : c.schStorageTripleWr = true) (value : UInt32) {k : Nat}
    (apart : ∀ n < 3, k ≠ copyCell c index n) :
    storeCopies c status index value k = status k := by
  have zero := apart 0 (by decide)
  have one := apart 1 (by decide)
  have two := apart 2 (by decide)
  simp only [copyCell, Nat.mul_zero, Nat.mul_one, Nat.add_zero] at zero one two
  simp [storeCopies, triple, zero, one, two]

theorem copyCell_apart (bound : index < c.datStatusLastAddress)
    (bound' : other < c.datStatusLastAddress) (ne : other ≠ index) {m n : Nat} :
    copyCell c other m ≠ copyCell c index n := by
  intro same
  have cell := congrArg (· % c.datStatusLastAddress) same
  simp only [copyCell, Nat.add_mul_mod_self_left, Nat.mod_eq_of_lt bound,
    Nat.mod_eq_of_lt bound'] at cell
  exact ne cell

theorem copies_set_other (triple : c.schStorageTripleWr = true)
    (bound : index < c.datStatusLastAddress) (bound' : other < c.datStatusLastAddress)
    (ne : other ≠ index) (value : UInt32) (n : Nat) :
    copies c (storeCopies c status index value) other n = copies c status other n :=
  storeCopies_apart triple value fun _ _ => copyCell_apart bound bound' ne

/-! One event. -/

theorem stepEvent_set (ready : Ready c s status) (index : Fin c.datStatusLastAddress)
    (value : UInt32) : stepEvent c s (.set index value) =
      some { s with statusDb := some (storeCopies c status index value) } := by
  rw [stepEvent, datSetStatusVar_ready ready value index.isLt, Option.map_some]

theorem stepEvent_corrupt (ready : Ready c s status) (cell : Fin (3 * c.datStatusLastAddress))
    (value : UInt32) : stepEvent c s (.corrupt cell value) =
      some { s with statusDb := some (Function.update status cell value) } := by
  rw [stepEvent, ready.statusEq, Option.map_some]

theorem stepEvent_ready (ready : Ready c s status) (event : Event c) :
    ∃ status', stepEvent c s event = some { s with statusDb := some status' } ∧
      Ready c { s with statusDb := some status' } status' := by
  cases event with
  | set index value => exact ⟨_, stepEvent_set ready index value, ready.withStatus _⟩
  | corrupt cell value => exact ⟨_, stepEvent_corrupt ready cell value, ready.withStatus _⟩

theorem run_ready (ready : Ready c s status) (events : List (Event c)) :
    ∃ s' status', run (stepEvent c) s events = some s' ∧ Ready c s' status' := by
  induction events generalizing s status with
  | nil => exact ⟨s, status, rfl, ready⟩
  | cons event rest ih =>
    obtain ⟨status₁, step, ready₁⟩ := stepEvent_ready ready event
    obtain ⟨s', status', later, ready'⟩ := ih ready₁
    exact ⟨s', status', by rw [run, step]; exact later, ready'⟩

theorem masked_run {faulty : Nat} {value : UInt32} (triple : c.schStorageTripleWr = true)
    (bound : index < c.datStatusLastAddress) (events : List (Event c))
    (unset : ∀ j v, Event.set j v ∈ events → j.val ≠ index)
    (hits : ∀ n < 3, n ≠ faulty → ∀ cell v, Event.corrupt cell v ∈ events →
      cell.val ≠ copyCell c index n)
    (ready : Ready c s status) (masked : Masked (copies c status index) faulty value) :
    ∃ s' status', run (stepEvent c) s events = some s' ∧ Ready c s' status' ∧
      Masked (copies c status' index) faulty value := by
  induction events generalizing s status with
  | nil => exact ⟨s, status, rfl, ready, masked⟩
  | cons event rest ih =>
    have unset' := fun j v mem => unset j v (List.mem_cons_of_mem event mem)
    have hits' := fun n copy apart cell v mem =>
      hits n copy apart cell v (List.mem_cons_of_mem event mem)
    cases event with
    | set j v =>
      have other := unset j v List.mem_cons_self
      have kept : Masked (copies c (storeCopies c status j v) index) faulty value :=
        masked.of_same fun n _ _ => copies_set_other triple j.isLt bound (Ne.symm other) v n
      obtain ⟨s', status', later, done⟩ := ih unset' hits' (ready.withStatus _) kept
      exact ⟨s', status', by rw [run, stepEvent_set ready]; exact later, done⟩
    | corrupt cell v =>
      have kept : Masked (copies c (Function.update status cell v) index) faulty value :=
        masked.of_same fun n copy apart =>
          Function.update_of_ne (hits n copy apart cell v List.mem_cons_self).symm _ _
      obtain ⟨s', status', later, done⟩ := ih unset' hits' (ready.withStatus _) kept
      exact ⟨s', status', by rw [run, stepEvent_corrupt ready]; exact later, done⟩

/-- In every run of sets and faults, a variable reads as the value that it was
    set to last, if at most one of its copies was corrupted since then. -/
theorem single_fault_masked (triple : c.schStorageTripleWr = true) (ready : Ready c s status)
    (events : List (Event c)) :
    ∃ s', run (stepEvent c) s events = some s' ∧
      (∀ before (index : Fin c.datStatusLastAddress) value since,
        events = before ++ .set index value :: since →
        (∀ v, Event.set index v ∉ since) → OneCopyHit index since →
        datGetStatusVar (ramStorage c) c s' index = some value) ∧
      ∀ index other : Fin c.datStatusLastAddress, other ≠ index → ∀ value,
        ∃ s'' status' status'', datSetStatusVar (ramStorage c) c s' index value =
            some (schStOk, s'') ∧ s'.statusDb = some status' ∧ s''.statusDb = some status'' ∧
          ∀ n < 3, copies c status'' other n = copies c status' other n := by
  obtain ⟨s', status', reached, ready'⟩ := run_ready ready events
  refine ⟨s', reached, ?_, ?_⟩
  · rintro before index value since rfl last ⟨faulty, hits⟩
    obtain ⟨s₁, status₁, first, ready₁⟩ := run_ready ready before
    have fresh : Masked (copies c (storeCopies c status₁ index value) index) faulty value :=
      masked_of_equal (fun _ copy => storeCopies_copy triple value copy) faulty
    have unset : ∀ j v, Event.set j v ∈ since → j.val ≠ index := by
      intro j v mem same
      exact last v (Fin.ext same ▸ mem)
    obtain ⟨s₂, status₂, later, ready₂, masked⟩ :=
      masked_run triple index.isLt since unset hits (ready₁.withStatus _) fresh
    have whole : run (stepEvent c) s (before ++ .set index value :: since) = some s₂ := by
      refine run_trans first ?_
      rw [run, stepEvent_set ready₁]
      exact later
    cases reached.symm.trans whole
    rw [datGetStatusVar_ready ready₂ index.isLt, vote_eq_majority triple, majority_of_masked masked]
  · intro index other ne value
    refine ⟨_, status', _, datSetStatusVar_ready ready' value index.isLt, ready'.statusEq, rfl, ?_⟩
    intro n _
    exact copies_set_other triple index.isLt other.isLt (fun same => ne (Fin.ext same)) value n

def tripleConfig : Config := { simpleConfig with schStorageTripleWr := true }

theorem single_fault_masked_after_boot :
    ∃ s₀ s', datRepoInit tripleConfig 1 = some s₀ ∧
      run (stepEvent tripleConfig) s₀
        [.set ⟨3, by decide⟩ 7, .corrupt ⟨20, by decide⟩ 0] = some s' ∧
      datGetStatusVar (ramStorage tripleConfig) tripleConfig s' 3 = some 7 := by
  obtain ⟨s₀, boot, fresh⟩ := FlightPlanCalls.datRepoInit_fresh tripleConfig 1
  obtain ⟨⟨db, status, stocked, -⟩, -⟩ := fresh.kept
  obtain ⟨s', reached, masked, -⟩ := single_fault_masked rfl stocked.toReady
    [.set ⟨3, by decide⟩ 7, .corrupt ⟨20, by decide⟩ 0]
  refine ⟨s₀, s', boot, reached, masked [] ⟨3, by decide⟩ 7 _ rfl (by simp) ⟨1, ?_⟩⟩
  intro n copy apart cell value mem
  simp only [List.mem_singleton, Event.corrupt.injEq] at mem
  rw [mem.1]
  simp only [copyCell, tripleConfig, simpleConfig]
  omega

end TripleWriting
