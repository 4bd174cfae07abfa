import SuchaiFlight.RamStorage

/-!
Flight plan calls on the RAM back end, seen as operations on a bounded
multimap of live entries. The slot of an entry is not observable through the
calls by time; the counter `dat_fpl_queue` is kept by the repository layer.
-/
namespace RamFlightPlan
open CStrings StorageApi RepoData SlotTable RamStorage

structure Ready (c : Config) (s : RamStore) (status : Nat → UInt32) : Prop where
  isOpen : s.storageIsOpen = true
  statusEq : s.statusDb = some status
  entriesEq : s.statusEntries = statusCopies c * c.datStatusLastVar

def vote (c : Config) (status : Nat → UInt32) (index : Nat) : UInt32 :=
  if c.schStorageTripleWr then
    let value₁ := status index
    let value₂ := status (index + c.datStatusLastAddress)
    let value₃ := status (index + c.datStatusLastAddress * 2)
    if value₁ = value₂ ∨ value₁ = value₃ then value₁
    else if value₂ = value₃ then value₂
    else value₁
  else status index

def storeCopies (c : Config) (status : Nat → UInt32) (index : Nat) (value : UInt32) :
    Nat → UInt32 :=
  if c.schStorageTripleWr then
    Function.update (Function.update (Function.update status index value)
      (index + c.datStatusLastAddress) value) (index + c.datStatusLastAddress * 2) value
  else Function.update status index value

theorem vote_storeCopies_same (c : Config) (status : Nat → UInt32) (index : Nat)
    (value : UInt32) : vote c (storeCopies c status index value) index = value := by
  unfold vote storeCopies
  split
  · by_cases zero : c.datStatusLastAddress = 0
    · simp [zero]
    · simp [Function.update]
  · simp

theorem vote_storeCopies_other (c : Config) (status : Nat → UInt32) {index other : Nat}
    (value : UInt32) (hi : index < c.datStatusLastAddress) (ho : other < c.datStatusLastAddress)
    (ne : other ≠ index) :
    vote c (storeCopies c status index value) other = vote c status other := by
  unfold vote storeCopies
  split
  · have keep : ∀ k, k = other ∨ k = other + c.datStatusLastAddress ∨
        k = other + c.datStatusLastAddress * 2 →
        Function.update (Function.update (Function.update status index value)
          (index + c.datStatusLastAddress) value) (index + c.datStatusLastAddress * 2) value k =
          status k := by
      intro k hk
      rw [Function.update_of_ne (by omega), Function.update_of_ne (by omega),
        Function.update_of_ne (by omega)]
    simp only [keep other (by omega), keep (other + c.datStatusLastAddress) (by omega),
      keep (other + c.datStatusLastAddress * 2) (by omega)]
  · simp [ne]

variable {c : Config} {s : RamStore} {db : Nat → FpEntry} {status : Nat → UInt32}

theorem statusCopies_triple (triple : c.schStorageTripleWr = true) :
    statusCopies c * c.datStatusLastVar = 3 * c.datStatusLastAddress := by
  simp [statusCopies, triple, c.lastVar_eq]

theorem readStatusCopy_ready (ready : Ready c s status) {index : Nat}
    (bound : index < statusCopies c * c.datStatusLastVar) :
    readStatusCopy (ramStorage c) s index = some (status index) := by
  have inside : index < s.statusEntries := by rw [ready.entriesEq]; exact bound
  have notPast : ¬ s.statusEntries < index := by omega
  simp [readStatusCopy, ramStorage, storageStatusGetValueIdx, ready.isOpen, ready.statusEq,
    inside, notPast, Except.toOption]

theorem datGetStatusVar_ready (ready : Ready c s status) {index : Nat}
    (bound : index < c.datStatusLastAddress) :
    datGetStatusVar (ramStorage c) c s index = some (vote c status index) := by
  have same := c.lastVar_eq
  unfold datGetStatusVar vote
  cases triple : c.schStorageTripleWr with
  | false =>
    rw [readStatusCopy_ready ready (by simp [statusCopies, triple]; omega)]
    simp
  | true =>
    have size := statusCopies_triple triple
    rw [readStatusCopy_ready ready (by omega), readStatusCopy_ready ready (by omega),
      readStatusCopy_ready ready (by omega)]
    simp only [same, Option.bind_eq_bind, Option.bind_some, ↓reduceIte]
    split
    · rfl
    · split <;> rfl

theorem datGetSystemVar_ready (ready : Ready c s status) {index : Nat}
    (bound : index < c.datStatusLastAddress) :
    datGetSystemVar (ramStorage c) c s index = some (vote c status index).toInt32 := by
  simp [datGetSystemVar, datGetStatusVar_ready ready bound]

theorem statusSet_ready (ready : Ready c s status) {index : Nat} (value : UInt32)
    (bound : index < statusCopies c * c.datStatusLastVar) :
    storageStatusSetValueIdx s index value =
      some (schStOk, { s with statusDb := some (Function.update status index value) }) := by
  have inside : index < s.statusEntries := by rw [ready.entriesEq]; exact bound
  simp [storageStatusSetValueIdx, ready.isOpen, ready.statusEq, inside]

theorem Ready.withStatus (ready : Ready c s status) (status' : Nat → UInt32) :
    Ready c { s with statusDb := some status' } status' :=
  ⟨ready.isOpen, rfl, ready.entriesEq⟩

theorem datSetStatusVar_ready (ready : Ready c s status) {index : Nat} (value : UInt32)
    (bound : index < c.datStatusLastAddress) :
    datSetStatusVar (ramStorage c) c s index value =
      some (schStOk, { s with statusDb := some (storeCopies c status index value) }) := by
  have same := c.lastVar_eq
  unfold datSetStatusVar storeCopies
  simp only [ramStorage]
  cases triple : c.schStorageTripleWr with
  | false =>
    rw [statusSet_ready ready value (by simp [statusCopies, triple]; omega)]
    simp
  | true =>
    have size := statusCopies_triple triple
    have ready₁ := ready.withStatus (Function.update status index value)
    have ready₂ := ready₁.withStatus (Function.update (Function.update status index value)
      (index + c.datStatusLastAddress) value)
    rw [statusSet_ready ready value (by omega)]
    simp only [Option.bind_eq_bind, Option.bind_some, ↓reduceIte]
    rw [statusSet_ready ready₁ value (by omega)]
    simp only [Option.bind_some]
    rw [statusSet_ready ready₂ value (by omega)]
    simp [schStOk]

theorem datSetSystemVar_ready (ready : Ready c s status) {index : Nat} (value : Int32)
    (bound : index < c.datStatusLastAddress) :
    datSetSystemVar (ramStorage c) c s index value =
      some (schStOk, { s with statusDb := some (storeCopies c status index value.toUInt32) }) :=
  datSetStatusVar_ready ready value.toUInt32 bound

/-- The record of a slot; a slot whose time is `ST_FP_NULL` is free. -/
def slotOf (e : FpEntry) : Option FpEntry := if e.unixtime = stFpNull then none else some e

def slots (db : Nat → FpEntry) : Nat → Option FpEntry := fun i => slotOf (db i)

def liveEntries (s : RamStore) : Multiset FpEntry :=
  match s.flightplanDb with
  | none => 0
  | some db => contents s.flightplanEntries (slots db)

theorem slots_update (db : Nat → FpEntry) (i : Nat) (e : FpEntry) :
    slots (Function.update db i e) = Function.update (slots db) i (slotOf e) := by
  funext j
  by_cases eq : j = i
  · subst eq; simp [slots]
  · simp [slots, eq]

@[simp] theorem slotOf_clear (node : Int32) : slotOf (fpEntryClear node) = none := by
  simp [slotOf, fpEntryClear]

theorem first_free_eq (n : Nat) (db : Nat → FpEntry) :
    (first n fun i => decide ((db i).unixtime = stFpNull)) =
      first n fun i => (slots db i).isNone := by
  apply first_congr
  intro i _
  by_cases null : (db i).unixtime = stFpNull <;> simp [slots, slotOf, null]

theorem first_match_eq (n : Nat) (db : Nat → FpEntry) {t : Int32} (real : t ≠ stFpNull) :
    (first n fun i => decide (t = (db i).unixtime)) =
      first n fun i => (slots db i).any fun e => e.unixtime = t := by
  apply first_congr
  intro i _
  by_cases null : (db i).unixtime = stFpNull
  · simp [slots, slotOf, null, real]
  · simp [slots, slotOf, null, eq_comm]

/-- A ready store with the table of `dat_repo_init`. Free slots are cleared
    entries, and taken slots hold both texts: `storage_flight_plan_set`
    rejects null texts. -/
structure Stocked (c : Config) (s : RamStore) (db : Nat → FpEntry) (status : Nat → UInt32) : Prop
    extends Ready c s status where
  dbEq : s.flightplanDb = some db
  sizeEq : s.flightplanEntries = schFpMaxEntries
  blank : ∀ i < schFpMaxEntries, (db i).unixtime = stFpNull → db i = fpEntryClear c.schCommNode
  texts : ∀ e ∈ contents schFpMaxEntries (slots db), e.cmd.isSome ∧ e.args.isSome

theorem Stocked.live_eq (stocked : Stocked c s db status) :
    liveEntries s = contents schFpMaxEntries (slots db) := by
  simp [liveEntries, stocked.dbEq, stocked.sizeEq]

theorem Stocked.withStatus (stocked : Stocked c s db status) (status' : Nat → UInt32) :
    Stocked c { s with statusDb := some status' } db status' :=
  ⟨stocked.toReady.withStatus status', stocked.dbEq, stocked.sizeEq, stocked.blank,
    stocked.texts⟩

theorem Stocked.withSlot (stocked : Stocked c s db status) (i : Nat) {e : FpEntry}
    (sound : e = fpEntryClear c.schCommNode ∨
      e.unixtime ≠ stFpNull ∧ e.cmd.isSome ∧ e.args.isSome) :
    Stocked c { s with flightplanDb := some (Function.update db i e) } (Function.update db i e)
      status := by
  refine ⟨⟨stocked.isOpen, stocked.statusEq, stocked.entriesEq⟩, rfl, stocked.sizeEq, ?_, ?_⟩
  · intro j bound null
    by_cases eq : j = i
    · subst eq
      rw [Function.update_self] at null ⊢
      rcases sound with clear | taken
      · exact clear
      · exact absurd null taken.1
    · rw [Function.update_of_ne eq] at null ⊢
      exact stocked.blank j bound null
  · intro e' mem
    obtain ⟨j, bound, slot⟩ := mem_contents.mp mem
    rw [slots_update] at slot
    by_cases eq : j = i
    · subst eq
      rw [Function.update_self] at slot
      rcases sound with clear | taken
      · rw [clear, slotOf_clear] at slot; contradiction
      · simp only [slotOf, taken.1, ↓reduceIte, Option.some.injEq] at slot
        exact slot ▸ taken.2
    · rw [Function.update_of_ne eq] at slot
      exact stocked.texts e' (mem_contents.mpr ⟨j, bound, slot⟩)

theorem scan_null_eq_none_iff (stocked : Stocked c s db status) :
    (first schFpMaxEntries fun i => decide (stFpNull = (db i).unixtime)) = none ↔
      ¬ (liveEntries s).card < schFpMaxEntries := by
  rw [stocked.live_eq, contents_card_lt_iff, first_eq_none_iff]
  simp only [decide_eq_false_iff_not, not_exists, not_and]
  refine forall₂_congr fun i _ => ?_
  by_cases null : (db i).unixtime = stFpNull
  · simp [slots, slotOf, null]
  · have apart : stFpNull ≠ (db i).unixtime := fun eq => null eq.symm
    simp [slots, slotOf, null, apart]

def TableStep (c : Config) (s s' : RamStore) (status : Nat → UInt32) : Prop :=
  ∃ db', s' = { s with flightplanDb := some db' } ∧ Stocked c s' db' status

theorem storageFlightPlanSet_spec (stocked : Stocked c s db status) {t : Int32} (time : 0 ≤ t)
    (command args : CString) (executions period node : Int32) :
    ∃ rc s', storageFlightPlanSet s t (some command) (some args) executions period node =
        some (rc, s') ∧ TableStep c s s' status ∧
      Puts schFpMaxEntries ⟨t, executions, period, node, some command, some args⟩ (rc = schStOk)
        (liveEntries s) (liveEntries s') ∧ (rc ≠ schStOk → rc = schStError ∧ s' = s) := by
  have real : t ≠ stFpNull := ne_stFpNull time
  have nonneg : ¬ t < 0 := Int32.not_lt.mpr time
  simp only [storageFlightPlanSet, storageFlightPlanSetSt, nonneg, stocked.isOpen, stocked.dbEq,
    stocked.sizeEq, first_free_eq]
  cases scan : first schFpMaxEntries fun i => (slots db i).isNone with
  | none =>
    refine ⟨schStError, s, by simp, ⟨db, ?_, stocked⟩, ?_, fun _ => ⟨rfl, rfl⟩⟩
    · rw [← stocked.dbEq]
    · have puts := puts_no_free scan
        (⟨t, executions, period, node, some command, some args⟩ : FpEntry)
      rw [stocked.live_eq]
      simpa [schStError, schStOk] using puts
  | some i =>
    let row : FpEntry := ⟨t, executions, period, node, some command, some args⟩
    have taken : slotOf row = some row := by simp [slotOf, row, real]
    have puts := puts_first_free scan row
    rw [← taken, ← slots_update] at puts
    have stocked' := stocked.withSlot i (Or.inr (a := row = fpEntryClear c.schCommNode)
      ⟨real, by simp [row], by simp [row]⟩)
    refine ⟨schStOk, { s with flightplanDb := some (Function.update db i row) }, ?_,
      ⟨_, rfl, stocked'⟩, ?_, fun no => absurd rfl no⟩
    · simp [row, fpEntryCopy, stocked.isOpen, stocked.sizeEq]
    · rw [stocked.live_eq, stocked'.live_eq]
      simpa [row] using puts

theorem storageFlightPlanDeleteRow_spec (stocked : Stocked c s db status) {t : Int32}
    (real : t ≠ stFpNull) :
    ∃ found rc s', storageFlightPlanDeleteRow c s t = some (rc, s') ∧ TableStep c s s' status ∧
      Takes FpEntry.unixtime t (liveEntries s) found (liveEntries s') ∧
      (found.isSome → rc = schStOk) ∧ (found = none → rc = schStError ∧ s' = s) ∧
      (∀ e, found = some e → storageFlightPlanGet s t = .ok e) ∧
      (found = none → storageFlightPlanGet s t = .error schStError) := by
  simp only [storageFlightPlanDeleteRow, storageFlightPlanGet, stocked.isOpen, stocked.dbEq,
    stocked.sizeEq, first_match_eq _ _ real]
  cases scan : first schFpMaxEntries fun i => (slots db i).any fun e => e.unixtime = t with
  | none =>
    refine ⟨none, schStError, s, by simp, ⟨db, ?_, stocked⟩, ?_, by simp, fun _ => ⟨rfl, rfl⟩,
      by simp, by simp⟩
    · rw [← stocked.dbEq]
    · rw [stocked.live_eq]
      exact takes_no_match scan
  | some i =>
    obtain ⟨e, slot, hit, takes⟩ := takes_first_match scan
    have value : db i = e := by
      simp only [slots, slotOf] at slot
      split at slot
      · contradiction
      · exact Option.some.inj slot
    rw [← slotOf_clear c.schCommNode, ← slots_update] at takes
    have stocked' := stocked.withSlot i (Or.inl rfl)
    refine ⟨some e, schStOk,
      { s with flightplanDb := some (Function.update db i (fpEntryClear c.schCommNode)) }, ?_,
      ⟨_, rfl, stocked'⟩, ?_, by simp, by simp, ?_, by simp⟩
    · simp [stocked.isOpen, stocked.sizeEq]
    · rw [stocked.live_eq, stocked'.live_eq]
      exact takes
    · intro e' eq
      cases eq
      simp [fpEntryCopy, value]

def Delivers : Option FpEntry → Except Int32 FpArgs → Prop
  | some e, .ok out => e.cmd = some out.command ∧ e.args = some out.args ∧
      e.executions = out.executions ∧ e.periodical = out.period ∧ e.node = out.node
  | none, .error rc => rc = schStError
  | _, _ => False

theorem fetchAndDelete_spec (stocked : Stocked c s db status) {t : Int32} (real : t ≠ stFpNull) :
    ∃ found res s', fetchAndDelete (ramStorage c) s t = some (res, s') ∧
      TableStep c s s' status ∧ Takes FpEntry.unixtime t (liveEntries s) found (liveEntries s') ∧
      Delivers found res ∧ (found = none → s' = s) := by
  obtain ⟨found, rc, s', run, step, takes, ok, miss, got, lost⟩ :=
    storageFlightPlanDeleteRow_spec stocked real
  cases found with
  | none =>
    refine ⟨none, .error schStError, s, ?_, ?_, ?_, rfl, fun _ => rfl⟩
    · simp [fetchAndDelete, ramStorage, storageFlightPlanGetArgs, lost rfl]
    · rw [(miss rfl).2] at step; exact step
    · rw [(miss rfl).2] at takes; exact takes
  | some e =>
    have mem : e ∈ contents schFpMaxEntries (slots db) := by
      rw [← stocked.live_eq, takes.2]
      exact Multiset.mem_cons_self e _
    obtain ⟨command, hc⟩ := Option.isSome_iff_exists.mp (stocked.texts e mem).1
    obtain ⟨args, ha⟩ := Option.isSome_iff_exists.mp (stocked.texts e mem).2
    refine ⟨some e, .ok ⟨command, args, e.executions, e.periodical, e.node⟩, s', ?_, step, takes,
      ⟨hc, ha, rfl, rfl, rfl⟩, by simp⟩
    simp [fetchAndDelete, ramStorage, storageFlightPlanGetArgs, got e rfl, hc, ha, run, ok rfl]

end RamFlightPlan
