import SuchaiFlight.PurgeScan
import SuchaiFlight.FlashPayloadCapacity
import SuchaiFlight.FlightPlanCalls

/-!
`dat_purge_fp` on the RAM and FLASH back ends. A free slot is read as a cleared
entry on RAM and refused on FLASH; on both the entries that are not due stay as
they are and `dat_fpl_queue` becomes their number.
-/
namespace FlightPlanPurge
open ByteMemory NonVolatile StorageApi RepoData SlotTable PurgeScan FlashOperations

structure Repaired {σ : Type} (S : Storage σ) (c : Config) (slot : σ → Nat → Option FpEntry)
    (now : Int) (s s' : σ) : Prop where
  slots : ∀ i < schFpMaxEntries, slot s' i = (slot s i).filter fun e => now + 1 < e.unixtime.toInt
  queue : datGetSystemVar S c s' c.datFplQueue =
    some (Int32.ofNat (contents schFpMaxEntries (slot s')).card)

variable {now : Int} {c : Config}

theorem clock_succ (low : 0 ≤ now) (high : now < 2147483647) :
    Int32.ofInt now ≠ 2147483647 ∧ (Int32.ofInt now + 1).toInt = now + 1 := by
  have value : (Int32.ofInt now).toInt = now := Int32.toInt_ofInt_of_le (by omega) (by omega)
  constructor
  · intro last
    rw [last] at value
    exact absurd value (by simpa using Int.ne_of_gt high)
  · rw [Int32.toInt_add, value]
    exact Int.bmod_eq_of_le (by simp; omega) (by simp; omega)

theorem later_iff (low : 0 ≤ now) (high : now < 2147483647) (t : Int32) :
    Int32.ofInt now + 1 < t ↔ now + 1 < t.toInt := by
  rw [Int32.lt_iff_toInt_lt, (clock_succ low high).2]

theorem datPurgeFp_eq {σ : Type} {S : Storage σ} (clock : Int32.ofInt now ≠ 2147483647)
    {read : Nat → Option Int32} {after : List Nat → σ} (scan : Scannable S read after)
    (unixtime : Int32) :
    ∃ cleared, (∀ j < schFpMaxEntries,
        (j ∈ cleared ↔ ¬ Kept (Int32.ofInt now + 1) read unixtime j)) ∧
      ∀ rc s', datSetSystemVar S c (after cleared) c.datFplQueue (Int32.ofNat
          ((List.range schFpMaxEntries).countP (counted (Int32.ofInt now + 1) read))) =
          some (rc, s') →
        datPurgeFp S c (after []) now unixtime = some (schStOk, s') := by
  obtain ⟨cleared, run, decided⟩ := purgeEntries_eq scan (Int32.ofInt now + 1) unixtime
  refine ⟨cleared, decided, fun rc s' write => ?_⟩
  simp only [datPurgeFp, clock, if_false, run, Option.bind_eq_bind, Option.bind_some, write]
  rfl

/-- What is deleted and what is counted, where every taken slot can be read. A
    free slot is refused, or gives the time `ST_FP_NULL`. -/
theorem slots_repaired (slot slot' : Nat → Option FpEntry) (low : 0 ≤ now)
    (high : now < 2147483647) {read : Nat → Option Int32} {unixtime : Int32} {cleared : List Nat}
    (decided : ∀ j < schFpMaxEntries,
      (j ∈ cleared ↔ ¬ Kept (Int32.ofInt now + 1) read unixtime j))
    (taken : ∀ i < schFpMaxEntries, ∀ e, slot i = some e →
      read i = some e.unixtime ∧ e.unixtime ≠ stFpNull)
    (free : ∀ i < schFpMaxEntries, slot i = none → read i = none ∨ read i = some stFpNull)
    (after : ∀ i < schFpMaxEntries, slot' i = if i ∈ cleared then none else slot i) :
    (∀ i < schFpMaxEntries, slot' i = (slot i).filter fun e => now + 1 < e.unixtime.toInt) ∧
      (List.range schFpMaxEntries).countP (counted (Int32.ofInt now + 1) read) =
        (contents schFpMaxEntries slot').card := by
  have slots : ∀ i < schFpMaxEntries,
      slot' i = (slot i).filter fun e => now + 1 < e.unixtime.toInt := by
    intro i inside
    rw [after i inside]
    cases stood : slot i with
    | none => simp
    | some e =>
      obtain ⟨given, real⟩ := taken i inside e stood
      have deleted := decided i inside
      simp only [Kept, given, real, or_false, later_iff low high] at deleted
      by_cases later : now + 1 < e.unixtime.toInt <;>
        simp [deleted, later, Option.filter_some]
  refine ⟨slots, ?_⟩
  rw [contents_card]
  apply List.countP_congr
  intro i mem
  have inside : i < schFpMaxEntries := List.mem_range.mp mem
  rw [slots i inside, counted]
  cases stood : slot i with
  | some e =>
    obtain ⟨given, -⟩ := taken i inside e stood
    simp [given, later_iff low high]
  | none =>
    have old : ¬ Int32.ofInt now + 1 < stFpNull := by
      have null : stFpNull.toInt = -1 := by decide
      rw [later_iff low high, null]
      omega
    rcases free i inside stood with refused | null
    · simp [refused]
    · simp [null, old]

/-! The RAM back end. -/

section Ram
open RamStorage RamFlightPlan

variable {s : RamStore} {status : Nat → UInt32} {db : Nat → FpEntry}

def ramSlot (s : RamStore) (i : Nat) : Option FpEntry :=
  s.flightplanDb.bind fun db => slots db i

def ramCleared (c : Config) (s : RamStore) (db : Nat → FpEntry) (cleared : List Nat) : RamStore :=
  let db := fun i => if i ∈ cleared then fpEntryClear c.schCommNode else db i
  { s with flightplanDb := some db }

theorem ramCleared_nil (dbEq : s.flightplanDb = some db) : ramCleared c s db [] = s := by
  simp [ramCleared, ← dbEq]

theorem ramGetIdx_inside (isOpen : s.storageIsOpen = true) (dbEq : s.flightplanDb = some db)
    {index : Int32} (sign : 0 ≤ index) (below : index.toInt.toNat < s.flightplanEntries) :
    storageFlightPlanGetIdx s index = some (.ok (fpEntryCopy (db index.toInt.toNat))) := by
  have nonneg : ¬ index < 0 := Int32.not_lt.mpr sign
  have inside : ¬ s.flightplanEntries ≤ index.toInt.toNat := Nat.not_le_of_lt below
  simp only [storageFlightPlanGetIdx, isOpen, dbEq, nonneg, inside, decide_false, Bool.or_false,
    Bool.not_true, Bool.false_eq_true, ↓reduceIte]

theorem ramDeleteIdx_inside (isOpen : s.storageIsOpen = true) (dbEq : s.flightplanDb = some db)
    {index : Int32} (sign : 0 ≤ index) (below : index.toInt.toNat < s.flightplanEntries) :
    storageFlightPlanDeleteRowIdx c s index = some (schStOk,
      { s with flightplanDb := some (Function.update db index.toInt.toNat
          (fpEntryClear c.schCommNode)) }) := by
  have nonneg : ¬ index < 0 := Int32.not_lt.mpr sign
  have inside : ¬ s.flightplanEntries ≤ index.toInt.toNat := Nat.not_le_of_lt below
  simp only [storageFlightPlanDeleteRowIdx, isOpen, dbEq, nonneg, inside, decide_false,
    Bool.or_false, Bool.not_true, Bool.false_eq_true, ↓reduceIte]

theorem ram_scannable (c : Config) (db : Nat → FpEntry) (isOpen : s.storageIsOpen = true)
    (sizeEq : s.flightplanEntries = schFpMaxEntries) :
    Scannable (ramStorage c) (fun i => some (db i).unixtime) (ramCleared c s db) where
  gives i inside t given cleared before := by
    obtain ⟨sign, value⟩ := index_cast inside
    have place : (Int32.ofNat i).toInt.toNat = i := by rw [Int32.toNat_toInt, value]
    have here : i ∉ cleared := fun mem => absurd (before i mem) (Nat.lt_irrefl i)
    have get := ramGetIdx_inside (s := ramCleared c s db cleared) isOpen rfl sign
      (by rw [place]; exact sizeEq ▸ inside)
    rw [place, if_neg here] at get
    exact ⟨fpEntryCopy (db i), get, Option.some.inj given⟩
  refuses i _ given := nomatch given
  deletes i inside cleared := by
    obtain ⟨sign, value⟩ := index_cast inside
    have place : (Int32.ofNat i).toInt.toNat = i := by rw [Int32.toNat_toInt, value]
    have delete := ramDeleteIdx_inside (c := c) (s := ramCleared c s db cleared) isOpen rfl sign
      (by rw [place]; exact sizeEq ▸ inside)
    have same : Function.update (fun j => if j ∈ cleared then fpEntryClear c.schCommNode else db j) i
        (fpEntryClear c.schCommNode) =
        fun j => if j ∈ i :: cleared then fpEntryClear c.schCommNode else db j := by
      funext j
      by_cases here : j = i <;> simp [here]
    rw [place, same] at delete
    exact ⟨schStOk, delete⟩

theorem ram_repaired (ready : Ready c s status) (dbEq : s.flightplanDb = some db)
    (sizeEq : s.flightplanEntries = schFpMaxEntries) (low : 0 ≤ now) (high : now < 2147483647)
    (unixtime : Int32) :
    ∃ s', datPurgeFp (ramStorage c) c s now unixtime = some (schStOk, s') ∧
      Repaired (ramStorage c) c ramSlot now s s' := by
  have scan := ram_scannable c db ready.isOpen sizeEq
  obtain ⟨cleared, decided, purge⟩ := datPurgeFp_eq (c := c) (clock_succ low high).1 scan unixtime
  have readyAfter : Ready c (ramCleared c s db cleared) status :=
    ⟨ready.isOpen, ready.statusEq, ready.entriesEq⟩
  rw [ramCleared_nil dbEq] at purge
  have slotEq : ∀ i, ramSlot s i = slotOf (db i) := fun i => by rw [ramSlot, dbEq]; rfl
  obtain ⟨slots, number⟩ := slots_repaired (ramSlot s) (ramSlot (ramCleared c s db cleared)) low
    high decided
    (fun i _ e stood => by
      rw [slotEq, slotOf] at stood
      split at stood
      · contradiction
      · rename_i real
        cases stood
        exact ⟨rfl, real⟩)
    (fun i _ stood => by
      rw [slotEq, slotOf] at stood
      split at stood
      · rename_i null
        exact .inr (congrArg some null)
      · contradiction)
    (fun i _ => by
      rw [slotEq]
      by_cases here : i ∈ cleared <;> simp [ramSlot, ramCleared, RamFlightPlan.slots, here])
  refine ⟨_, purge _ _ (datSetSystemVar_ready readyAfter _ c.fplQueue_lt), slots, ?_⟩
  rw [datGetSystemVar_ready (readyAfter.withStatus _) c.fplQueue_lt, vote_storeCopies_same,
    number]
  rfl

end Ram

/-! The FLASH back end. -/

section Flash
open FlashStorage FlashTable FreeSlotSentinel FlashPayloadCapacity

variable {dev : Device} {s s' : FlashStore} {bad : Nat → Bool} {i : Nat}

def ReadsFail (dev : Device) (s : FlashStore) (bad : Nat → Bool) : Prop :=
  ∀ i < schFpMaxEntries, (s.stFlightplanTlb i).unixtime ≠ stFpNull →
    ∀ n, dev.readFails n (s.stFlightplanTlb i).addr.toNat = bad i

def Filed (endian : Endian) (s : FlashStore) : Prop :=
  ∀ i < schFpMaxEntries, (s.stFlightplanTlb i).unixtime ≠ stFpNull →
    ∃ e, entrySlot endian s i = some e ∧ e.unixtime = (s.stFlightplanTlb i).unixtime

def readTime (endian : Endian) (s : FlashStore) (bad : Nat → Bool) (i : Nat) : Option Int32 :=
  if bad i then none else (entrySlot endian s i).map FpEntry.unixtime

def Legible (endian : Endian) (s : FlashStore) (bad : Nat → Bool) : Prop :=
  ∀ i < schFpMaxEntries, (s.stFlightplanTlb i).unixtime ≠ stFpNull → bad i = false →
    (entrySlot endian s i).isSome

def flashCleared (dev : Device) (s : FlashStore) (cleared : List Nat) : FlashStore :=
  cleared.foldr (fun i s => (eraseSlot dev s i).2) s

theorem eraseSlot_flash (dev : Device) (s : FlashStore) (i : Nat) :
    (eraseSlot dev s i).2.media.flash = s.media.flash := by
  rw [eraseSlot, performOps_single, slotOp, nvOperation]
  split <;> rfl

theorem flashCleared_tlb (dev : Device) (init : Initialised s) (cleared : List Nat) :
    Initialised (flashCleared dev s cleared) ∧
      (flashCleared dev s cleared).media.flash = s.media.flash ∧
      ∀ i, (flashCleared dev s cleared).stFlightplanTlb i =
        if i ∈ cleared then freeSlot else s.stFlightplanTlb i := by
  induction cleared with
  | nil => exact ⟨init, rfl, fun i => by simp [flashCleared]⟩
  | cons k cleared ih =>
    obtain ⟨init', flash, tlb⟩ := ih
    obtain ⟨rc, t, erase, init'', tlb'⟩ := eraseSlot_ram dev init' k
    have next : flashCleared dev s (k :: cleared) = t := congrArg Prod.snd erase
    refine ⟨next ▸ init'', ?_, fun i => ?_⟩
    · rw [← flash]
      exact eraseSlot_flash dev (flashCleared dev s cleared) k
    · rw [next, tlb', Function.update_apply, tlb i]
      by_cases here : i = k <;> simp [here]

theorem flash_read (init : Initialised s) (fails : ReadsFail dev s bad)
    (inside : i < schFpMaxEntries) {cleared : List Nat} (before : ∀ j ∈ cleared, j < i) :
    storageFlightPlanGetIdx dev (flashCleared dev s cleared) (Int32.ofNat i) =
      if (s.stFlightplanTlb i).unixtime = stFpNull ∨ bad i = true then some (.error schStError)
      else (entrySlot dev.endian s i).map .ok := by
  obtain ⟨init', flash, tlb⟩ := flashCleared_tlb dev init cleared
  have here : i ∉ cleared := fun mem => absurd (before i mem) (Nat.lt_irrefl i)
  have slot := tlb i
  rw [if_neg here] at slot
  by_cases null : (s.stFlightplanTlb i).unixtime = stFpNull
  · rw [if_pos (.inl null)]
    exact getIdx_free dev init' inside (by rw [slot]; exact null)
  · obtain ⟨sign, value⟩ := index_cast inside
    have below : ¬ schFpMaxEntries ≤ i := Nat.not_le_of_lt inside
    have size : fpContainerSize % UInt16.size = fpContainerSize := by decide
    have error : schStError ≠ schStOk := by decide
    have page := fails i inside null (flashCleared dev s cleared).log.length
    cases failing : bad i <;> rw [failing] at page <;>
      simp [storageFlightPlanGetIdx, sign, value, init'.entriesEq, below, slot, null,
        storageReadFlash, page, flash, size, error, entrySlot]

theorem flash_deletes (init : Initialised s) (inside : i < schFpMaxEntries) (cleared : List Nat) :
    ∃ rc, storageFlightPlanDeleteRowIdx dev (flashCleared dev s cleared) (Int32.ofNat i) =
      some (rc, flashCleared dev s (i :: cleared)) := by
  obtain ⟨init', -, -⟩ := flashCleared_tlb dev init cleared
  obtain ⟨sign, value⟩ := index_cast inside
  have delete : storageFlightPlanDeleteRowIdx dev (flashCleared dev s cleared) (Int32.ofNat i) = _ :=
    deleteRowIdx_inside init' sign (by rw [value]; exact inside)
  rw [value] at delete
  exact ⟨_, delete⟩

theorem flash_scannable (init : Initialised s) (fails : ReadsFail dev s bad)
    (legible : Legible dev.endian s bad) :
    Scannable (flashStorage dev) (readTime dev.endian s bad) (flashCleared dev s) where
  gives i inside t given cleared before := by
    have get := flash_read init fails inside before
    cases failing : bad i with
    | true => simp [readTime, failing] at given
    | false =>
      rw [readTime, failing] at given
      obtain ⟨e, entry, time⟩ := Option.map_eq_some_iff.mp given
      have live : (s.stFlightplanTlb i).unixtime ≠ stFpNull := by
        intro null
        simp [entrySlot, null] at entry
      rw [if_neg (by simp [live, failing]), entry] at get
      exact ⟨e, get, time⟩
  refuses i inside given cleared before := by
    have get := flash_read init fails inside before
    by_cases refused : (s.stFlightplanTlb i).unixtime = stFpNull ∨ bad i = true
    · rw [if_pos refused] at get
      exact ⟨schStError, get⟩
    · simp only [not_or, Bool.not_eq_true] at refused
      have some := legible i inside refused.1 refused.2
      simp [readTime, refused.2] at given
      simp [given] at some
  deletes _ inside cleared := flash_deletes init inside cleared

theorem framOnly_entrySlot (same : FramOnly s s') (endian : Endian) (i : Nat) :
    entrySlot endian s' i = entrySlot endian s i := by
  obtain ⟨media, log, rfl⟩ := same.ram
  rw [entrySlot, entrySlot, same.flash]

theorem flash_repaired (works : Reliable dev) (init : Initialised s) (filed : Filed dev.endian s)
    (low : 0 ≤ now) (high : now < 2147483647) (unixtime : Int32) :
    ∃ s', datPurgeFp (flashStorage dev) c s now unixtime = some (schStOk, s') ∧
      Repaired (flashStorage dev) c (entrySlot dev.endian) now s s' := by
  have fails : ReadsFail dev s fun _ => false := fun i _ _ n => works.reads n _
  have scan := flash_scannable init fails fun i inside live _ => by
    obtain ⟨e, entry, -⟩ := filed i inside live
    exact Option.isSome_of_eq_some entry
  obtain ⟨cleared, decided, purge⟩ := datPurgeFp_eq (c := c) (clock_succ low high).1 scan unixtime
  obtain ⟨-, flash, tlb⟩ := flashCleared_tlb dev init cleared
  obtain ⟨slots, number⟩ := slots_repaired (entrySlot dev.endian s)
    (entrySlot dev.endian (flashCleared dev s cleared)) low high decided
    (fun i inside e stood => by
      refine ⟨by simp [readTime, stood], ?_⟩
      by_cases null : (s.stFlightplanTlb i).unixtime = stFpNull
      · simp [entrySlot, null] at stood
      · obtain ⟨e', entry, time⟩ := filed i inside null
        obtain rfl := Option.some.inj (stood.symm.trans entry)
        rw [time]
        exact null)
    (fun i _ stood => .inl (by simp [readTime, stood]))
    (fun i _ => by
      rw [entrySlot, entrySlot, flash, tlb]
      by_cases here : i ∈ cleared <;> simp [here, freeSlot])
  generalize (List.range schFpMaxEntries).countP _ = number' at purge number
  obtain ⟨s', write, -, read⟩ := systemVar_written (c := c) works (flashCleared dev s cleared)
    c.datFplQueue (Int32.ofNat number')
  obtain ⟨rc, u, write', same⟩ := datSetStatusVar_framOnly dev c (flashCleared dev s cleared)
    c.datFplQueue (Int32.ofNat number').toUInt32
  obtain ⟨-, rfl⟩ : schStOk = rc ∧ s' = u := by
    simpa using write.symm.trans write'
  have kept := funext (framOnly_entrySlot same dev.endian)
  refine ⟨s', purge _ _ write, ?_, ?_⟩
  · intro i inside
    rw [kept]
    exact slots i inside
  · rw [read, number, kept]

end Flash

section Repairs
open RamStorage RamFlightPlan FlashStorage FlashTable FlashSections

/-- `dat_purge_fp` repairs the flight plan on both back ends, whatever stands in
    the table and in the counter. -/
theorem purge_repairs (c : Config) (low : 0 ≤ now) (high : now < 2147483647) (unixtime : Int32) :
    (∀ s status db, Ready c s status → s.flightplanDb = some db →
      s.flightplanEntries = schFpMaxEntries →
        ∃ s', datPurgeFp (ramStorage c) c s now unixtime = some (schStOk, s') ∧
          Repaired (ramStorage c) c ramSlot now s s') ∧
    ∀ dev s, Reliable dev → Initialised s → Filed dev.endian s →
      ∃ s', datPurgeFp (flashStorage dev) c s now unixtime = some (schStOk, s') ∧
        Repaired (flashStorage dev) c (entrySlot dev.endian) now s s' :=
  ⟨fun _ _ _ ready dbEq sizeEq => ram_repaired ready dbEq sizeEq low high unixtime,
    fun _ _ works init filed => flash_repaired works init filed low high unixtime⟩

theorem filed_of_sound {dev : Device} {s : FlashStore} (sound : Sound dev.endian Fits s) :
    Filed dev.endian s := by
  intro i inside live
  obtain ⟨e, -, -, entry, time, -⟩ := sound.entry inside live
  exact ⟨e, entry, time⟩

def laterRow : FpEntry := { pingRow with unixtime := 100 }

def staleStore : RamStore :=
  { unopened with
    storageIsOpen := true
    statusDb := some fun _ => 7
    statusEntries := statusCopies simpleConfig * simpleConfig.datStatusLastVar
    flightplanDb := some fun i =>
      if i = 0 then pingRow else if i = 2 then laterRow else fpEntryClear simpleConfig.schCommNode
    flightplanEntries := schFpMaxEntries }

theorem stale_flash : ∃ s : FlashStore, Sound idealDevice.endian Fits s ∧
    entrySlot idealDevice.endian s 0 = some pingRow ∧
    entrySlot idealDevice.endian s 2 = some laterRow := by
  obtain ⟨s₀, reset, -, -, -, sound, -, empty⟩ := boot_reset idealDevice_reliable blankMedia Fits
  have room : usedPages reset.stFlightplanTlb < commandsPerSection := by
    rw [empty]
    decide
  have first : 0 < schFpMaxEntries := by decide
  have third : 2 < schFpMaxEntries := by decide
  have sound₁ : Sound idealDevice.endian Fits
      (insertedStore idealDevice.endian reset 0 pingRow pingText noText) :=
    sound_inserted sound first room ping_fits.1 ping_fits.2
  have room₁ : usedPages
      (insertedStore idealDevice.endian reset 0 pingRow pingText noText).stFlightplanTlb <
        commandsPerSection := by
    rw [insertedStore_used idealDevice.endian first room, empty]
    decide
  have slot {i : Nat} (bound : i < schFpMaxEntries) :=
    entrySlot_inserted sound₁ third room₁ (show laterRow.unixtime ≠ stFpNull by decide) rfl rfl
      ping_fits bound
  have sound₂ : Sound idealDevice.endian Fits (insertedStore idealDevice.endian _ 2 laterRow pingText
      noText) := sound_inserted sound₁ third room₁ ping_fits.1 ping_fits.2
  refine ⟨_, sound₂, ?_, ?_⟩
  · rw [slot first, Function.update_of_ne (by decide),
      entrySlot_inserted sound first room (show pingRow.unixtime ≠ stFpNull by decide) rfl rfl
        ping_fits first, Function.update_self]
  · rw [slot third, Function.update_self]

theorem purge_repairs_stale :
    (∃ s', datPurgeFp (ramStorage simpleConfig) simpleConfig staleStore 50 0 =
        some (schStOk, s') ∧
      Repaired (ramStorage simpleConfig) simpleConfig ramSlot 50 staleStore s' ∧
      ramSlot s' 0 = none ∧ ramSlot s' 2 = some laterRow) ∧
    ∃ s s', entrySlot idealDevice.endian s 0 = some pingRow ∧
      datPurgeFp (flashStorage idealDevice) simpleConfig s 50 0 = some (schStOk, s') ∧
      Repaired (flashStorage idealDevice) simpleConfig (entrySlot idealDevice.endian) 50 s s' ∧
      entrySlot idealDevice.endian s' 0 = none ∧
      entrySlot idealDevice.endian s' 2 = some laterRow := by
  obtain ⟨ram, flash⟩ := purge_repairs simpleConfig (show 0 ≤ (50 : Int) by decide) (by decide) 0
  refine ⟨?_, ?_⟩
  · obtain ⟨s', run, repaired⟩ := ram staleStore (fun _ => 7) _ ⟨rfl, rfl, rfl⟩ rfl rfl
    exact ⟨s', run, repaired, repaired.slots 0 (by decide), repaired.slots 2 (by decide)⟩
  · obtain ⟨s, sound, first, second⟩ := stale_flash
    obtain ⟨s', run, repaired⟩ :=
      flash idealDevice s idealDevice_reliable sound.toInitialised (filed_of_sound sound)
    refine ⟨s, s', first, run, repaired, ?_, ?_⟩
    · rw [repaired.slots 0 (by decide), first]
      rfl
    · rw [repaired.slots 2 (by decide), second]
      rfl

end Repairs

end FlightPlanPurge
