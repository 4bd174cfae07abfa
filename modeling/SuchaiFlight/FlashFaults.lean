import SuchaiFlight.FlashSections

/-!
Insertions that report an error on the FLASH back end. The TLB in RAM is
changed before the first write, so the entry stays in it whichever of the
writes fails.
-/
namespace FlashFaults
open NonVolatile CStrings StorageApi SlotTable FlashStorage FlashOperations FlashSections

variable {dev : Device} {s s' : FlashStore} {rc : Int32} {row : FpEntry}

def runCalls (dev : Device) : FlashStore → List FlashCall → Option FlashStore
  | s, [] => some s
  | s, call :: rest => do
    let (_, s) ← stepCall dev s call
    runCalls dev s rest

theorem runCalls_bounded (calls : List FlashCall) (bounded : Bounded s)
    (run : runCalls dev s calls = some s') : Bounded s' := by
  induction calls generalizing s with
  | nil =>
    obtain rfl := Option.some.inj run
    exact bounded
  | cons call rest ih =>
    simp only [runCalls, Option.bind_eq_bind, Option.bind_eq_some_iff] at run
    obtain ⟨⟨rc, s₁⟩, step, run⟩ := run
    exact ih (stepCall_bounded bounded step) run

/-- What the caller of a failed insertion relies on: every lookup by time
    answers as before, and as many entries are live as before, which is the
    number that `dat_set_fp` leaves in `dat_fpl_queue`. -/
def TableKept (dev : Device) (s s' : FlashStore) : Prop :=
  (∀ t, storageFlightPlanGetArgs dev s' t = storageFlightPlanGetArgs dev s t) ∧
    liveCount s'.stFlightplanTlb = liveCount s.stFlightplanTlb

theorem inserted_not_kept (bounded : Bounded s) (real : row.unixtime ≠ stFpNull) {index : Nat}
    (free : storageFlightplanFindIndexTlb s stFpNull = some index)
    {cmd args : CString} (hc : row.cmd = some cmd) (ha : row.args = some args)
    (run : storageFlightPlanSetSt dev s (some row) = some (rc, s')) :
    ¬ TableKept dev s s' ∧
      (rc = schStOk ↔ ∀ k < 3, dev.fails (s.log.length + k) = false) := by
  rw [storageFlightPlanSetSt_eq bounded.toInitialised bounded.few] at run
  obtain ⟨inside, null, -⟩ := first_eq_some_iff.mp free
  rcases Nat.lt_or_eq_of_le bounded.few with room | full
  · obtain ⟨rc', s₁, insert, -, tlb, ok⟩ :=
      insertEntry_ram dev bounded.toInitialised row hc ha free room
    rw [insert] at run
    obtain ⟨rfl, rfl⟩ := Prod.mk.inj (Option.some.inj run)
    refine ⟨?_, ok⟩
    intro kept
    have more := kept.2
    rw [tlb, insertTlb, liveCount_tlbWith inside (by simpa using null) real] at more
    omega
  · rw [insertEntry_no_page bounded.toInitialised _ free full] at run
    contradiction

/-- For every table that calls can reach, on any devices, an insertion that
    reports an error leaves the table as it was exactly when no slot was free
    or none of its three writes fails. The hypotheses on the row are the
    checks of `storage_flight_plan_set`. -/
theorem failed_set_keeps_table_iff {s₀ s₁ : FlashStore} {rc₀ : Int32}
    (init : Initialised s₀) (reset : storageFlightPlanReset dev s₀ = some (rc₀, s₁))
    (calls : List FlashCall) (reached : runCalls dev s₁ calls = some s)
    (sign : 0 ≤ row.unixtime) (texts : row.cmd.isSome ∧ row.args.isSome)
    (run : storageFlightPlanSetSt dev s (some row) = some (rc, s')) :
    (rc ≠ schStOk → TableKept dev s s') ↔
      storageFlightplanFindIndexTlb s stFpNull = none ∨
        ∀ k < 3, dev.fails (s.log.length + k) = false := by
  have bounded := runCalls_bounded calls (bounded_of_reset init reset) reached
  cases free : storageFlightplanFindIndexTlb s stFpNull with
  | none =>
    rw [storageFlightPlanSetSt_eq bounded.toInitialised bounded.few,
      insertEntry_no_slot row free] at run
    obtain ⟨-, rfl⟩ := Prod.mk.inj (Option.some.inj run)
    exact ⟨fun _ => Or.inl rfl, fun _ _ => ⟨fun _ => rfl, rfl⟩⟩
  | some index =>
    obtain ⟨cmd, hc⟩ := Option.isSome_iff_exists.mp texts.1
    obtain ⟨args, ha⟩ := Option.isSome_iff_exists.mp texts.2
    obtain ⟨lost, ok⟩ := inserted_not_kept bounded (ne_stFpNull sign) free hc ha run
    rw [← ok]
    simp only [reduceCtorEq, false_or]
    constructor
    · intro kept
      by_contra failed
      exact lost (kept failed)
    · intro success failed
      exact absurd success failed

def Filled (k : Nat) (tlb : Nat → FpAddr) : Prop :=
  ∀ i < schFpMaxEntries, (tlb i).unixtime = stFpNull ↔ k ≤ i

theorem fill_step (dev : Device) {k : Nat} (bounded : Bounded s)
    (filled : Filled k s.stFlightplanTlb)
    (inside : k < schFpMaxEntries) (room : usedPages s.stFlightplanTlb < commandsPerSection) :
    ∃ rc s', stepCall dev s setPing = some (rc, s') ∧ Bounded s' ∧
      Filled (k + 1) s'.stFlightplanTlb ∧
      usedPages s'.stFlightplanTlb = usedPages s.stFlightplanTlb + 1 := by
  have free : storageFlightplanFindIndexTlb s stFpNull = some k := by
    refine first_eq_some_iff.mpr ⟨inside, by simp [filled k inside], ?_⟩
    intro j before
    have taken := filled j (by omega)
    simp only [decide_eq_false_iff_not, taken]
    omega
  obtain ⟨rc, s', insert, -, tlb, -⟩ := insertEntry_ram dev bounded.toInitialised
    ⟨10, 1, 0, 1, some pingText, some noText⟩ rfl rfl free room
  have set : stepCall dev s setPing = some (rc, s') :=
    (storageFlightPlanSet_eq bounded.toInitialised bounded.few (by decide) pingText noText 1 0
      1).trans insert
  refine ⟨rc, s', set, stepCall_bounded bounded set, ?_, ?_⟩
  · intro i bound
    rw [tlb, insertTlb]
    by_cases eq : i = k
    · subst eq
      rw [tlbWith_same inside]
      have real : (10 : Int32) ≠ stFpNull := by decide
      simp [real]
    · rw [tlbWith_other eq (by omega), filled i bound]
      omega
  · rw [tlb, insertTlb, usedPages_tlbWith inside room]

theorem fill_run (dev : Device) (n : Nat) {k : Nat} (bounded : Bounded s)
    (filled : Filled k s.stFlightplanTlb)
    (inside : k + n ≤ schFpMaxEntries)
    (room : usedPages s.stFlightplanTlb + n ≤ commandsPerSection) :
    ∃ s', runCalls dev s (List.replicate n setPing) = some s' ∧
      Filled (k + n) s'.stFlightplanTlb := by
  induction n generalizing s k with
  | zero => exact ⟨s, rfl, filled⟩
  | succ n ih =>
    obtain ⟨rc, s₁, step, bounded₁, filled₁, used⟩ :=
      fill_step dev bounded filled (by omega) (by omega)
    obtain ⟨s', run, filled'⟩ := ih bounded₁ filled₁ (by omega) (by omega)
    refine ⟨s', by simp [List.replicate_succ, runCalls, step, run], ?_⟩
    rwa [Nat.add_assoc, Nat.add_comm 1 n] at filled'

theorem failed_set_keeps_full_table :
    ∃ s₀ rc₀ s₁ s, datRepoInit idealDevice (powerOn blankMedia []) 1 = some s₀ ∧
      storageFlightPlanReset idealDevice s₀ = some (rc₀, s₁) ∧
      runCalls idealDevice s₁ (List.replicate 255 setPing) = some s ∧
      ∃ rc s', storageFlightPlanSetSt idealDevice s
          (some ⟨20, 1, 0, 1, some pingText, some noText⟩) = some (rc, s') ∧ rc ≠ schStOk ∧
        TableKept idealDevice s s' := by
  obtain ⟨s₀, boot, init⟩ := datRepoInit_initialised idealDevice blankMedia [] 1
  obtain ⟨rc₀, s₁, reset, -, cleared⟩ := storageFlightPlanReset_ram idealDevice init
  have bounded := bounded_of_reset init reset
  have empty : Filled 0 s₁.stFlightplanTlb := by
    intro i inside
    simp [cleared, clearedTlb_free inside]
  obtain ⟨s, run, filled⟩ := fill_run idealDevice 255 bounded empty (by decide)
    (by rw [cleared, usedPages_cleared]; decide)
  have bounded' := runCalls_bounded _ bounded run
  have full : storageFlightplanFindIndexTlb s stFpNull = none := by
    refine first_eq_none_iff.mpr ?_
    intro i inside
    have taken := filled i inside
    simp only [schFpMaxEntries] at inside
    simp only [decide_eq_false_iff_not, taken]
    omega
  have set : storageFlightPlanSetSt idealDevice s
      (some ⟨20, 1, 0, 1, some pingText, some noText⟩) = some (schStError, s) := by
    rw [storageFlightPlanSetSt_eq bounded'.toInitialised bounded'.few, insertEntry_no_slot _ full]
  exact ⟨s₀, rc₀, s₁, s, boot, reset, run, schStError, s, set, by decide,
    (failed_set_keeps_table_iff init reset _ run (by decide) ⟨rfl, rfl⟩ set).mpr (Or.inl full)
      (by decide)⟩

def brokenPage : Device := { idealDevice with fails := fun n => n = 4 }

theorem failed_page_write_leaves_entry :
    ∃ s₀ rc₀ s, datRepoInit brokenPage (powerOn blankMedia []) 1 = some s₀ ∧
      storageFlightPlanReset brokenPage s₀ = some (rc₀, s) ∧
      ∃ rc s', storageFlightPlanSetSt brokenPage s
          (some ⟨10, 1, 0, 1, some pingText, some noText⟩) = some (rc, s') ∧ rc ≠ schStOk ∧
        ¬ TableKept brokenPage s s' := by
  obtain ⟨s₀, boot, init⟩ := datRepoInit_initialised brokenPage blankMedia [] 1
  obtain ⟨rc₀, s, reset, -, cleared⟩ := storageFlightPlanReset_ram brokenPage init
  have bounded := bounded_of_reset init reset
  have result : ((datRepoInit brokenPage (powerOn blankMedia []) 1).bind fun s₀ =>
      (storageFlightPlanReset brokenPage s₀).bind fun r =>
        (storageFlightPlanSetSt brokenPage r.2
          (some ⟨10, 1, 0, 1, some pingText, some noText⟩)).map Prod.fst) = some schStError := by
    decide
  simp only [boot, reset, Option.bind_some, Option.map_eq_some_iff] at result
  obtain ⟨⟨rc, s'⟩, set, error⟩ := result
  simp only at error
  subst error
  have free : storageFlightplanFindIndexTlb s stFpNull = some 0 :=
    findIndex_allFree fun i inside => by rw [cleared]; exact clearedTlb_free inside
  exact ⟨s₀, rc₀, s, boot, reset, schStError, s', set, by decide,
    (inserted_not_kept bounded (by decide) free rfl rfl set).1⟩

end FlashFaults
