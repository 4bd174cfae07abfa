import SuchaiFlight.FlashOperations

/-!
Runs of flight plan calls on the FLASH back end, from a reset table on and
with any behaviour of the devices, and the section index that an insertion
computes from the used-page counter.
-/
namespace FlashSections
open NonVolatile CStrings StorageApi SlotTable FlashStorage FlashOperations

inductive FlashCall where
  | set (timetodo : Int32) (command args : Option CString) (executions period node : Int32)
  | getArgs (timetodo : Int32)
  | deleteRow (timetodo : Int32)
  | deleteRowIdx (index : Int32)
  | reset
  deriving DecidableEq

section
variable (dev : Device)

def stepCall (s : FlashStore) : FlashCall → Option (Int32 × FlashStore)
  | .set timetodo command args executions period node =>
    storageFlightPlanSet dev s timetodo command args executions period node
  | .getArgs timetodo => do
    match ← storageFlightPlanGetArgs dev s timetodo with
    | .ok _ => return (schStOk, s)
    | .error rc => return (rc, s)
  | .deleteRow timetodo => storageFlightPlanDeleteRow dev s timetodo
  | .deleteRowIdx index => storageFlightPlanDeleteRowIdx dev s index
  | .reset => storageFlightPlanReset dev s

def accepted (s : FlashStore) : FlashCall → Bool
  | .set timetodo command args _ _ _ =>
    !(timetodo < 0 || command.isNone || args.isNone || !s.storageIsOpen)
  | _ => false

def computedSection (s : FlashStore) (call : FlashCall) : Option Int32 :=
  if accepted s call then do
    let s ← if UInt32.ofNat commandsPerSection < (s.stFlightplanTlb schFpMaxEntries).addr then
        (flightPlanRebuildTlb dev s).map Prod.snd
      else some s
    let indexTlb ← storageFlightplanFindIndexTlb s stFpNull
    if s.stFlightplanEntries ≤ indexTlb then none
    else return sectionIndex (s.stFlightplanTlb schFpMaxEntries).addr
  else none

def IndexInRange (s : FlashStore) (call : FlashCall) : Prop :=
  ∀ i ∈ computedSection dev s call, 0 ≤ i ∧ i < Int32.ofNat stFlightplanSections

end

def AddressesInRange (s : FlashStore) : Prop :=
  ∀ i < schFpMaxEntries, (s.stFlightplanTlb i).unixtime ≠ stFpNull →
    s.stFlightplanBaseAddr ≤ (s.stFlightplanTlb i).addr.toNat ∧
      (s.stFlightplanTlb i).addr.toNat <
        s.stFlightplanBaseAddr + stFlightplanSections * schSizePerSection

def SectionsInRange (dev : Device) : FlashStore → List FlashCall → Prop
  | s, [] => AddressesInRange s
  | s, call :: rest => AddressesInRange s ∧ IndexInRange dev s call ∧
      ∀ r ∈ stepCall dev s call, SectionsInRange dev r.2 rest

def PageLeft (s : FlashStore) (call : FlashCall) : Prop :=
  accepted s call → (storageFlightplanFindIndexTlb s stFpNull).isSome →
    usedPages s.stFlightplanTlb ≠ commandsPerSection

def PagesLeft (dev : Device) : FlashStore → List FlashCall → Prop
  | _, [] => True
  | s, call :: rest => PageLeft s call ∧ ∀ r ∈ stepCall dev s call, PagesLeft dev r.2 rest

/-- The invariant of all runs, also when devices fail: live slots refer to
    pages that were counted. -/
structure Bounded (s : FlashStore) : Prop extends Initialised s where
  few : usedPages s.stFlightplanTlb ≤ commandsPerSection
  counted : ∀ i < schFpMaxEntries, (s.stFlightplanTlb i).unixtime ≠ stFpNull →
    ∃ n < usedPages s.stFlightplanTlb, (s.stFlightplanTlb i).addr = pageOf n

variable {dev : Device} {s s' : FlashStore} {rc : Int32} {call : FlashCall}

inductive CallStep (dev : Device) (s : FlashStore) : FlashCall → Int32 → FlashStore → Prop where
  | refused {t : Int32} {command args : Option CString} {executions period node : Int32} :
      CallStep dev s (.set t command args executions period node) schStError s
  | set {t : Int32} {cmd args : CString} {executions period node rc : Int32} {s' : FlashStore}
      (sign : 0 ≤ t)
      (run : storageFlightPlanSetSt dev s
        (some ⟨t, executions, period, node, some cmd, some args⟩) = some (rc, s')) :
      CallStep dev s (.set t (some cmd) (some args) executions period node) rc s'
  | read {t rc : Int32} : CallStep dev s (.getArgs t) rc s
  | missing {t : Int32} (none : storageFlightplanFindIndexTlb s t = none) :
      CallStep dev s (.deleteRow t) schStError s
  | deleted {t rc : Int32} {index : Nat} {s' : FlashStore}
      (found : storageFlightplanFindIndexTlb s t = some index)
      (run : eraseSlot dev s index = (rc, s')) : CallStep dev s (.deleteRow t) rc s'
  | outside {index : Int32} : CallStep dev s (.deleteRowIdx index) schStError s
  | deletedIdx {index rc : Int32} {s' : FlashStore}
      (inside : index.toNatClampNeg < schFpMaxEntries)
      (run : eraseSlot dev s index.toNatClampNeg = (rc, s')) :
      CallStep dev s (.deleteRowIdx index) rc s'
  | reset {rc : Int32} {s' : FlashStore} (run : storageFlightPlanReset dev s = some (rc, s')) :
      CallStep dev s .reset rc s'

theorem stepCall_cases (init : Initialised s) (run : stepCall dev s call = some (rc, s')) :
    CallStep dev s call rc s' := by
  cases call with
  | set t command args executions period node =>
    simp only [stepCall, storageFlightPlanSet] at run
    split at run
    · obtain ⟨rfl, rfl⟩ := Prod.mk.inj (Option.some.inj run)
      exact .refused
    · rename_i valid
      simp only [Bool.or_eq_true, decide_eq_true_eq, not_or, Option.isNone_iff_eq_none] at valid
      obtain ⟨⟨⟨sign, hc⟩, ha⟩, -⟩ := valid
      obtain ⟨cmd, rfl⟩ := Option.ne_none_iff_exists'.mp hc
      obtain ⟨text, rfl⟩ := Option.ne_none_iff_exists'.mp ha
      exact .set (Int32.not_lt.mp sign) run
  | getArgs t =>
    simp only [stepCall, Option.bind_eq_bind, Option.bind_eq_some_iff] at run
    obtain ⟨res, -, eq⟩ := run
    cases res with
    | ok out =>
      obtain ⟨rfl, rfl⟩ := Prod.mk.inj (Option.some.inj eq)
      exact .read
    | error rc' =>
      obtain ⟨rfl, rfl⟩ := Prod.mk.inj (Option.some.inj eq)
      exact .read
  | deleteRow t =>
    cases scan : storageFlightplanFindIndexTlb s t with
    | none =>
      rw [stepCall, deleteRow_missing scan] at run
      obtain ⟨rfl, rfl⟩ := Prod.mk.inj (Option.some.inj run)
      exact .missing scan
    | some index =>
      rw [stepCall, deleteRow_found init scan] at run
      exact .deleted scan (Option.some.inj run)
  | deleteRowIdx index =>
    by_cases out : index < 0 ∨ schFpMaxEntries ≤ index.toNatClampNeg
    · rw [stepCall, deleteRowIdx_outside init out] at run
      obtain ⟨rfl, rfl⟩ := Prod.mk.inj (Option.some.inj run)
      exact .outside
    · simp only [not_or, not_le] at out
      rw [stepCall, deleteRowIdx_inside init (Int32.not_lt.mp out.1) out.2] at run
      exact .deletedIdx out.2 (Option.some.inj run)
  | reset => exact .reset run

inductive TlbStep (call : FlashCall) (tlb : Nat → FpAddr) : (Nat → FpAddr) → Prop where
  | same : TlbStep call tlb tlb
  | insert {i : Nat} {t : Int32} {command args : Option CString} {executions period node : Int32}
      (made : call = .set t command args executions period node) (sign : 0 ≤ t)
      (inside : i < schFpMaxEntries) (free : (tlb i).unixtime = stFpNull)
      (room : usedPages tlb < commandsPerSection) : TlbStep call tlb (insertTlb tlb i t)
  | erase {i : Nat} (inside : i < schFpMaxEntries) :
      TlbStep call tlb (Function.update tlb i freeSlot)
  | clear : TlbStep call tlb clearedTlb

theorem eraseSlot_tlbStep (init : Initialised s) {i : Nat} (inside : i < schFpMaxEntries)
    (run : eraseSlot dev s i = (rc, s')) :
    Initialised s' ∧ TlbStep call s.stFlightplanTlb s'.stFlightplanTlb := by
  obtain ⟨rc', s₁, erase, init₁, tlb⟩ := eraseSlot_ram dev init i
  rw [erase] at run
  obtain ⟨-, rfl⟩ := Prod.mk.inj run
  exact ⟨init₁, tlb ▸ .erase inside⟩

theorem stepCall_tlb (init : Initialised s) (few : usedPages s.stFlightplanTlb ≤ commandsPerSection)
    (run : stepCall dev s call = some (rc, s')) :
    Initialised s' ∧ TlbStep call s.stFlightplanTlb s'.stFlightplanTlb := by
  cases stepCall_cases init run with
  | refused => exact ⟨init, .same⟩
  | read => exact ⟨init, .same⟩
  | missing none => exact ⟨init, .same⟩
  | outside => exact ⟨init, .same⟩
  | deleted found run => exact eraseSlot_tlbStep init (first_eq_some_iff.mp found).1 run
  | deletedIdx inside run => exact eraseSlot_tlbStep init inside run
  | @set t cmd text executions period node rc' s₂ sign run =>
    rw [storageFlightPlanSetSt_eq init few] at run
    cases scan : storageFlightplanFindIndexTlb s stFpNull with
    | none =>
      rw [insertEntry_no_slot _ scan] at run
      obtain ⟨-, rfl⟩ := Prod.mk.inj (Option.some.inj run)
      exact ⟨init, .same⟩
    | some i =>
      obtain ⟨inside, free, -⟩ := first_eq_some_iff.mp scan
      rcases Nat.lt_or_eq_of_le few with room | full
      · obtain ⟨rc', s₁, insert, init₁, tlb, -⟩ := insertEntry_ram dev init
          ⟨t, executions, period, node, some cmd, some text⟩ rfl rfl scan room
        rw [insert] at run
        obtain ⟨-, rfl⟩ := Prod.mk.inj (Option.some.inj run)
        exact ⟨init₁, tlb ▸ .insert rfl sign inside (by simpa using free) room⟩
      · rw [insertEntry_no_page init _ scan full] at run
        contradiction
  | reset run =>
    obtain ⟨rc', s₁, reset, init₁, tlb⟩ := storageFlightPlanReset_ram dev init
    rw [reset] at run
    obtain ⟨-, rfl⟩ := Prod.mk.inj (Option.some.inj run)
    exact ⟨init₁, tlb ▸ .clear⟩

theorem bounded_of_cleared (init : Initialised s) (cleared : s.stFlightplanTlb = clearedTlb) :
    Bounded s := by
  refine ⟨init, ?_, ?_⟩
  · rw [cleared, usedPages_cleared]
    omega
  · intro i inside live
    rw [cleared] at live
    exact absurd (clearedTlb_free inside) live

theorem Bounded.erase (bounded : Bounded s) (init : Initialised s') {i : Nat}
    (inside : i < schFpMaxEntries)
    (erased : s'.stFlightplanTlb = Function.update s.stFlightplanTlb i freeSlot) : Bounded s' := by
  refine ⟨init, ?_, ?_⟩
  · rw [erased, usedPages_update inside]
    exact bounded.few
  · intro j bound live
    rw [erased] at live ⊢
    rw [usedPages_update inside]
    by_cases eq : j = i
    · subst eq
      simp [freeSlot] at live
    · rw [Function.update_of_ne eq] at live ⊢
      exact bounded.counted j bound live

theorem Bounded.insert (bounded : Bounded s) (init : Initialised s') {i : Nat} {t : Int32}
    (inside : i < schFpMaxEntries) (room : usedPages s.stFlightplanTlb < commandsPerSection)
    (inserted : s'.stFlightplanTlb = insertTlb s.stFlightplanTlb i t) : Bounded s' := by
  refine ⟨init, ?_, ?_⟩
  · rw [inserted, insertTlb, usedPages_tlbWith inside room]
    exact room
  · intro j bound live
    rw [inserted, insertTlb] at live ⊢
    rw [usedPages_tlbWith inside room]
    by_cases eq : j = i
    · subst eq
      exact ⟨usedPages s.stFlightplanTlb, by omega, by rw [tlbWith_same inside]⟩
    · rw [tlbWith_other eq (by omega)] at live ⊢
      obtain ⟨n, below, address⟩ := bounded.counted j bound live
      exact ⟨n, by omega, address⟩

theorem stepCall_bounded (bounded : Bounded s) (run : stepCall dev s call = some (rc, s')) :
    Bounded s' := by
  obtain ⟨init, step⟩ := stepCall_tlb bounded.toInitialised bounded.few run
  generalize after : s'.stFlightplanTlb = tlb' at step
  cases step with
  | same => exact ⟨init, after ▸ bounded.few, after ▸ bounded.counted⟩
  | clear => exact bounded_of_cleared init after
  | erase inside => exact bounded.erase init inside after
  | insert made sign inside free room => exact bounded.insert init inside room after

theorem Bounded.addressesInRange (bounded : Bounded s) : AddressesInRange s := by
  intro i inside live
  obtain ⟨n, below, address⟩ := bounded.counted i inside live
  have few := bounded.few
  have small : n < commandsPerSection := by omega
  rw [address, pageOf_toNat small, bounded.baseEq]
  have one : stFlightplanSections = 1 := by decide
  have page := page_in_section small
  have positive : 0 < fpContainerSize := by decide
  rw [one]
  omega

theorem computedSection_eq (init : Initialised s)
    (few : usedPages s.stFlightplanTlb ≤ commandsPerSection) :
    computedSection dev s call =
      if accepted s call ∧ (storageFlightplanFindIndexTlb s stFpNull).isSome then
        some (sectionIndex (s.stFlightplanTlb schFpMaxEntries).addr)
      else none := by
  have enough : ¬ UInt32.ofNat commandsPerSection < (s.stFlightplanTlb schFpMaxEntries).addr := by
    rw [UInt32.lt_iff_toNat_lt]
    exact Nat.not_lt.mpr few
  unfold computedSection
  by_cases valid : accepted s call
  · cases scan : storageFlightplanFindIndexTlb s stFpNull with
    | none => simp [valid, enough, scan]
    | some i =>
      have inside := init.found_inside scan
      simp [valid, enough, scan, inside]
  · simp [valid]

theorem indexInRange_iff (init : Initialised s)
    (few : usedPages s.stFlightplanTlb ≤ commandsPerSection) :
    IndexInRange dev s call ↔ PageLeft s call := by
  unfold IndexInRange PageLeft
  rw [computedSection_eq init few]
  by_cases computes : accepted s call ∧ (storageFlightplanFindIndexTlb s stFpNull).isSome
  · rw [if_pos computes]
    rcases Nat.lt_or_eq_of_le few with room | full
    · have zero := sectionIndex_small room
      have fine : (0 : Int32) ≤ 0 ∧ (0 : Int32) < Int32.ofNat stFlightplanSections := by decide
      have pages : usedPages s.stFlightplanTlb ≠ commandsPerSection := by omega
      simp [zero, computes, pages, fine]
    · have one := sectionIndex_full full
      have out : ¬ (1 : Int32) < Int32.ofNat stFlightplanSections := by decide
      simp [one, computes, full, out]
  · rw [if_neg computes]
    have never : ∀ a : accepted s call = true,
        (storageFlightplanFindIndexTlb s stFpNull).isSome = true → False :=
      fun a b => computes ⟨a, b⟩
    simp only [Option.mem_def, reduceCtorEq, false_implies, implies_true, true_iff]
    intro a b
    exact (never a b).elim

theorem stepCall_defined (dev : Device) (init : Initialised s)
    (few : usedPages s.stFlightplanTlb ≤ commandsPerSection) (kind : ∀ t, call ≠ .getArgs t)
    (left : PageLeft s call) : (stepCall dev s call).isSome := by
  cases call with
  | set t command args executions period node =>
    by_cases valid : accepted s (.set t command args executions period node)
    · have page := left valid
      simp only [accepted, Bool.not_eq_true', Bool.or_eq_false_iff, decide_eq_false_iff_not,
        Option.isNone_eq_false_iff, Option.isSome_iff_exists] at valid
      obtain ⟨⟨⟨sign, cmd, rfl⟩, text, rfl⟩, -⟩ := valid
      rw [stepCall, storageFlightPlanSet_eq init few (Int32.not_lt.mp sign)]
      cases free : storageFlightplanFindIndexTlb s stFpNull with
      | none => simp [insertEntry_no_slot _ free]
      | some index =>
        have room := Nat.lt_of_le_of_ne few (page (by simp [free]))
        obtain ⟨rc, s', insert, -⟩ := insertEntry_ram dev init
          ⟨t, executions, period, node, some cmd, some text⟩ rfl rfl free room
        simp [insert]
    · simp only [accepted, Bool.not_eq_true', Bool.not_eq_false] at valid
      simp [stepCall, storageFlightPlanSet, valid]
  | getArgs t => exact absurd rfl (kind t)
  | deleteRow t =>
    cases scan : storageFlightplanFindIndexTlb s t with
    | none => simp [stepCall, deleteRow_missing scan]
    | some index => simp [stepCall, deleteRow_found init scan]
  | deleteRowIdx index =>
    simp only [stepCall, storageFlightPlanDeleteRowIdx]
    split <;> rfl
  | reset =>
    obtain ⟨rc, s', eq, -⟩ := storageFlightPlanReset_ram dev init
    simp [stepCall, eq]

theorem sectionsInRange_iff_pagesLeft (calls : List FlashCall) (bounded : Bounded s) :
    SectionsInRange dev s calls ↔ PagesLeft dev s calls := by
  induction calls generalizing s with
  | nil => exact ⟨fun _ => trivial, fun _ => bounded.addressesInRange⟩
  | cons call rest ih =>
    have tails : (∀ r ∈ stepCall dev s call, SectionsInRange dev r.2 rest) ↔
        ∀ r ∈ stepCall dev s call, PagesLeft dev r.2 rest :=
      forall₂_congr fun ⟨_, _⟩ run => ih (stepCall_bounded bounded run)
    rw [SectionsInRange, PagesLeft, tails, indexInRange_iff bounded.toInitialised bounded.few]
    exact and_iff_right bounded.addressesInRange

theorem bounded_of_reset (init : Initialised s)
    (reset : storageFlightPlanReset dev s = some (rc, s')) : Bounded s' := by
  obtain ⟨rc', s₁, eq, init₁, cleared⟩ := storageFlightPlanReset_ram dev init
  rw [eq] at reset
  obtain ⟨-, rfl⟩ := Prod.mk.inj (Option.some.inj reset)
  exact bounded_of_cleared init₁ cleared

/-- From a reset table on, a run stays inside the reserved sections exactly as
    long as no insertion meets a free slot with all 512 pages used. -/
theorem sections_in_range_iff_pages_left (init : Initialised s)
    (reset : storageFlightPlanReset dev s = some (rc, s')) (calls : List FlashCall) :
    SectionsInRange dev s' calls ↔ PagesLeft dev s' calls :=
  sectionsInRange_iff_pagesLeft calls (bounded_of_reset init reset)

theorem usedPages_step (bounded : Bounded s) (run : stepCall dev s call = some (rc, s')) :
    usedPages s'.stFlightplanTlb ≤ usedPages s.stFlightplanTlb + 1 := by
  obtain ⟨-, step⟩ := stepCall_tlb bounded.toInitialised bounded.few run
  generalize s'.stFlightplanTlb = tlb' at step
  cases step with
  | same => omega
  | clear => rw [usedPages_cleared]; omega
  | erase inside => rw [usedPages_update inside]; omega
  | insert made sign inside free room => rw [insertTlb, usedPages_tlbWith inside room]

theorem pagesLeft_of_short (calls : List FlashCall) (bounded : Bounded s)
    (short : usedPages s.stFlightplanTlb + calls.length ≤ commandsPerSection) :
    PagesLeft dev s calls := by
  induction calls generalizing s with
  | nil => trivial
  | cons call rest ih =>
    rw [List.length_cons] at short
    refine ⟨fun _ _ => by omega, ?_⟩
    rintro ⟨rc, s'⟩ run
    have step := usedPages_step bounded run
    refine ih (stepCall_bounded bounded run) ?_
    show usedPages s'.stFlightplanTlb + rest.length ≤ commandsPerSection
    omega

/-! A device without faults, and the two ends of the condition on it. -/

def idealDevice : Device where
  endian := .little
  fails := fun _ => false
  junk := fun _ _ => 0
  readFails := fun _ _ => false
  readJunk := fun _ _ => 0
  heap := fun _ => some fun _ => 0

def blankMedia : Media := ⟨fun _ => 0, fun _ => 0⟩

def setPing : FlashCall := .set 10 (some pingText) (some noText) 1 0 1

theorem sections_in_range_of_ping :
    ∃ s rc s', datRepoInit idealDevice (powerOn blankMedia []) 1 = some s ∧
      storageFlightPlanReset idealDevice s = some (rc, s') ∧
      SectionsInRange idealDevice s' [setPing, .getArgs 10, .deleteRow 10, setPing] := by
  obtain ⟨s, boot, init⟩ := datRepoInit_initialised idealDevice blankMedia [] 1
  obtain ⟨rc, s', reset, -, cleared⟩ := storageFlightPlanReset_ram idealDevice init
  refine ⟨s, rc, s', boot, reset, ?_⟩
  refine (sections_in_range_iff_pages_left init reset _).mpr ?_
  refine pagesLeft_of_short _ (bounded_of_reset init reset) ?_
  rw [cleared, usedPages_cleared]
  decide

def AllFree (tlb : Nat → FpAddr) : Prop := ∀ i < schFpMaxEntries, (tlb i).unixtime = stFpNull

theorem findIndex_allFree (free : AllFree s.stFlightplanTlb) :
    storageFlightplanFindIndexTlb s stFpNull = some 0 :=
  first_eq_some_iff.mpr ⟨by decide, by simp [free 0 (by decide)], by simp⟩

theorem set_delete_uses_page (dev : Device) (bounded : Bounded s) (free : AllFree s.stFlightplanTlb)
    (room : usedPages s.stFlightplanTlb < commandsPerSection) :
    ∃ rc₁ s₁ rc₂ s₂, stepCall dev s setPing = some (rc₁, s₁) ∧
      stepCall dev s₁ (.deleteRow 10) = some (rc₂, s₂) ∧ Bounded s₂ ∧
      AllFree s₂.stFlightplanTlb ∧
      usedPages s₂.stFlightplanTlb = usedPages s.stFlightplanTlb + 1 := by
  have inside : 0 < schFpMaxEntries := by decide
  obtain ⟨rc₁, s₁, insert, init₁, tlb₁, -⟩ := insertEntry_ram dev bounded.toInitialised
    ⟨10, 1, 0, 1, some pingText, some noText⟩ rfl rfl (findIndex_allFree free) room
  have set : stepCall dev s setPing = some (rc₁, s₁) :=
    (storageFlightPlanSet_eq bounded.toInitialised bounded.few (by decide) pingText noText 1 0
      1).trans insert
  have found : storageFlightplanFindIndexTlb s₁ 10 = some 0 :=
    first_eq_some_iff.mpr ⟨inside, by simp [tlb₁, insertTlb, tlbWith_same inside], by simp⟩
  obtain ⟨rc₂, s₂, erase, init₂, tlb₂⟩ := eraseSlot_ram dev init₁ 0
  have delete : stepCall dev s₁ (.deleteRow 10) = some (rc₂, s₂) :=
    (deleteRow_found init₁ found).trans (congrArg some erase)
  refine ⟨rc₁, s₁, rc₂, s₂, set, delete, stepCall_bounded (stepCall_bounded bounded set) delete,
    ?_, ?_⟩
  · intro i bound
    rw [tlb₂, tlb₁]
    by_cases eq : i = 0
    · subst eq
      simp [freeSlot]
    · rw [Function.update_of_ne eq, insertTlb, tlbWith_other eq (by omega)]
      exact free i bound
  · rw [tlb₂, tlb₁, usedPages_update inside, insertTlb, usedPages_tlbWith inside room]

def setAndDelete : Nat → List FlashCall
  | 0 => []
  | n + 1 => setPing :: .deleteRow 10 :: setAndDelete n

theorem setAndDelete_uses_pages (n : Nat) (rest : List FlashCall) (bounded : Bounded s)
    (free : AllFree s.stFlightplanTlb)
    (room : usedPages s.stFlightplanTlb + n ≤ commandsPerSection)
    (fine : SectionsInRange dev s (setAndDelete n ++ rest)) :
    ∃ s', Bounded s' ∧ AllFree s'.stFlightplanTlb ∧
      usedPages s'.stFlightplanTlb = usedPages s.stFlightplanTlb + n ∧
      SectionsInRange dev s' rest := by
  induction n generalizing s with
  | zero => exact ⟨s, bounded, free, rfl, fine⟩
  | succ n ih =>
    obtain ⟨rc₁, s₁, rc₂, s₂, set, delete, bounded₂, free₂, used⟩ :=
      set_delete_uses_page dev bounded free (by omega)
    have fine₂ := (fine.2.2 (rc₁, s₁) set).2.2 (rc₂, s₂) delete
    obtain ⟨s', bounded', free', used', fine'⟩ := ih bounded₂ free₂ (by omega) fine₂
    exact ⟨s', bounded', free', by omega, fine'⟩

theorem sections_out_of_range_after_512 :
    ∃ s rc s', datRepoInit idealDevice (powerOn blankMedia []) 1 = some s ∧
      storageFlightPlanReset idealDevice s = some (rc, s') ∧
      ¬ SectionsInRange idealDevice s' (setAndDelete 512 ++ [setPing]) := by
  obtain ⟨s, boot, init⟩ := datRepoInit_initialised idealDevice blankMedia [] 1
  obtain ⟨rc, s', reset, -, cleared⟩ := storageFlightPlanReset_ram idealDevice init
  refine ⟨s, rc, s', boot, reset, ?_⟩
  intro fine
  have zero : usedPages s'.stFlightplanTlb = 0 := by rw [cleared, usedPages_cleared]
  obtain ⟨last, bounded, free, used, fine'⟩ :=
    setAndDelete_uses_pages 512 [setPing] (bounded_of_reset init reset)
      (fun i inside => by rw [cleared]; exact clearedTlb_free inside) (by rw [zero]; decide) fine
  have left := (indexInRange_iff bounded.toInitialised bounded.few).mp fine'.2.1
  refine left ?_ (by rw [findIndex_allFree free]; rfl) ?_
  · simp [accepted, setPing, bounded.isOpen]
  · rw [used, zero]
    decide

end FlashSections
