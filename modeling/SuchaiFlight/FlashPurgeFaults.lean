import SuchaiFlight.FlightPlanPurge

/-!
`dat_purge_fp` on the FLASH back end when reads of pages fail. The branch that
deletes an old entry is also taken after a failed read, when `fp_i` still holds
the time of an earlier slot.
-/
namespace FlashPurgeFaults
open ByteMemory NonVolatile StorageApi RepoData SlotTable PurgeScan FlashStorage FlashOperations
open FlashSections FlashTable FreeSlotSentinel FlightPlanPurge

variable {dev : Device} {c : Config} {s s' : FlashStore} {bad : Nat → Bool} {now : Int}
  {unixtime : Int32} {endian : Endian}

def Future (s : FlashStore) (now : Int) (i : Nat) : Prop :=
  (s.stFlightplanTlb i).unixtime ≠ stFpNull ∧ now + 1 < (s.stFlightplanTlb i).unixtime.toInt

def KeepsFuture (dev : Device) (c : Config) (s : FlashStore) (now : Int) (unixtime : Int32) :
    Prop :=
  ∃ rc s', datPurgeFp (flashStorage dev) c s now unixtime = some (rc, s') ∧
    ∀ i < schFpMaxEntries, Future s now i → s'.stFlightplanTlb i = s.stFlightplanTlb i

/-- What the clock, the pages and the reads that fail have to be. -/
structure Guarded (endian : Endian) (s : FlashStore) (bad : Nat → Bool) (now : Int)
    (unixtime : Int32) : Prop where
  clock : Int32.ofInt now ≠ 2147483647
  legible : Legible endian s bad
  given : ∀ i < schFpMaxEntries, Future s now i → ∀ t, readTime endian s bad i = some t →
    Int32.ofInt now + 1 < t ∨ t = stFpNull
  failed : ∀ i < schFpMaxEntries, Future s now i → bad i = true →
    LeftNull (readTime endian s bad) unixtime i

theorem flash_purged (init : Initialised s) (fails : ReadsFail dev s bad)
    (clock : Int32.ofInt now ≠ 2147483647) (legible : Legible dev.endian s bad) (c : Config)
    (unixtime : Int32) :
    ∃ s', datPurgeFp (flashStorage dev) c s now unixtime = some (schStOk, s') ∧
      ∀ i < schFpMaxEntries,
        (Kept (Int32.ofInt now + 1) (readTime dev.endian s bad) unixtime i →
          s'.stFlightplanTlb i = s.stFlightplanTlb i) ∧
        (¬ Kept (Int32.ofInt now + 1) (readTime dev.endian s bad) unixtime i →
          s'.stFlightplanTlb i = freeSlot) := by
  obtain ⟨cleared, decided, purge⟩ :=
    datPurgeFp_eq (c := c) clock (flash_scannable init fails legible) unixtime
  obtain ⟨-, -, tlb⟩ := flashCleared_tlb dev init cleared
  obtain ⟨rc, s', write, media, log, rfl⟩ := datSetSystemVar_sameRam dev c
    (flashCleared dev s cleared) c.datFplQueue (Int32.ofNat ((List.range schFpMaxEntries).countP
      (counted (Int32.ofInt now + 1) (readTime dev.endian s bad))))
  refine ⟨_, purge rc _ write, fun i inside => ⟨fun kept => ?_, fun gone => ?_⟩⟩
  · exact (tlb i).trans (if_neg fun mem => (decided i inside).mp mem kept)
  · exact (tlb i).trans (if_pos ((decided i inside).mpr gone))

theorem illegible_undefined (init : Initialised s) (fails : ReadsFail dev s bad)
    (lost : ¬ Legible dev.endian s bad) (c : Config) (now : Int) (unixtime : Int32) :
    datPurgeFp (flashStorage dev) c s now unixtime = none := by
  simp only [Legible, not_forall, Bool.not_eq_true, Option.isSome_eq_false_iff,
    Option.isNone_iff_eq_none] at lost
  obtain ⟨i, inside, live, fine, nothing⟩ := lost
  have stops : ∀ cleared, (∀ j ∈ cleared, j < i) → (flashStorage dev).storageFlightPlanGetIdx
      (flashCleared dev s cleared) (Int32.ofNat i) = none := by
    intro cleared before
    have get := flash_read init fails inside before
    rw [if_neg (by simp [live, fine]), nothing] at get
    exact get
  have loop : purgeEntries (flashStorage dev) (Int32.ofInt now + 1) (List.range schFpMaxEntries)
      unixtime 0 s = none := by
    rw [List.range_eq_range']
    exact purge_undefined (fun i inside cleared => flash_deletes init inside cleared) stops
      schFpMaxEntries (Nat.zero_le i) (by omega) (by omega)
      (show ∀ j ∈ ([] : List Nat), j < 0 by simp) unixtime 0
  unfold datPurgeFp
  split
  · rfl
  · simp [loop]

theorem unchanged_iff_kept {kept : Prop} {slot slot' : FpAddr} (live : slot.unixtime ≠ stFpNull)
    (stays : kept → slot' = slot) (goes : ¬ kept → slot' = freeSlot) : slot' = slot ↔ kept := by
  refine ⟨fun same => ?_, stays⟩
  by_contra gone
  rw [← same, goes gone] at live
  exact live rfl

theorem guarded_of_keepsFuture (init : Initialised s) (fails : ReadsFail dev s bad)
    (keeps : KeepsFuture dev c s now unixtime) : Guarded dev.endian s bad now unixtime := by
  obtain ⟨rc, s', run, keeps⟩ := keeps
  have clock : Int32.ofInt now ≠ 2147483647 := by
    intro last
    rw [datPurgeFp, if_pos last] at run
    contradiction
  have legible : Legible dev.endian s bad := by
    by_contra lost
    rw [illegible_undefined init fails lost] at run
    contradiction
  obtain ⟨u, purge, slots⟩ := flash_purged init fails clock legible c unixtime
  obtain ⟨-, rfl⟩ : schStOk = rc ∧ u = s' := by simpa using purge.symm.trans run
  have kept : ∀ i < schFpMaxEntries, Future s now i →
      Kept (Int32.ofInt now + 1) (readTime dev.endian s bad) unixtime i := fun i inside later =>
    (unchanged_iff_kept later.1 (slots i inside).1 (slots i inside).2).mp (keeps i inside later)
  refine ⟨clock, legible, fun i inside later t given => ?_, fun i inside later failing => ?_⟩
  · have stays := kept i inside later
    rw [Kept, given] at stays
    exact stays
  · have stays := kept i inside later
    have refused : readTime dev.endian s bad i = none := if_pos failing
    rw [Kept, refused] at stays
    exact stays

theorem keepsFuture_of_guarded (init : Initialised s) (fails : ReadsFail dev s bad)
    (guarded : Guarded dev.endian s bad now unixtime) : KeepsFuture dev c s now unixtime := by
  obtain ⟨s', purge, slots⟩ := flash_purged init fails guarded.clock guarded.legible c unixtime
  refine ⟨schStOk, s', purge, fun i inside later => (slots i inside).1 ?_⟩
  cases given : readTime dev.endian s bad i with
  | some t =>
    rw [Kept, given]
    exact guarded.given i inside later t given
  | none =>
    rw [Kept, given]
    refine guarded.failed i inside later ?_
    by_contra fine
    have fine' : bad i = false := by simpa using fine
    have entry := guarded.legible i inside later.1 fine'
    simp [readTime, fine'] at given
    simp [given] at entry

/-- For every table, every pattern of failing reads and every time that stood in
    `fp_i` before the loop. -/
theorem purge_keeps_future_iff (init : Initialised s) (fails : ReadsFail dev s bad) (c : Config)
    (now : Int) (unixtime : Int32) :
    KeepsFuture dev c s now unixtime ↔ Guarded dev.endian s bad now unixtime :=
  ⟨guarded_of_keepsFuture init fails, keepsFuture_of_guarded init fails⟩

/-- On a table whose pages hold the times of their slots, an entry is only lost
    when its own read fails, after an earlier entry was read or with a time left
    in `fp_i`. -/
theorem guarded_iff_of_filed (filed : Filed endian s) (low : 0 ≤ now) (high : now < 2147483647) :
    Guarded endian s bad now unixtime ↔
      ∀ i < schFpMaxEntries, Future s now i → bad i = true → unixtime = stFpNull ∧
        ∀ j < i, (s.stFlightplanTlb j).unixtime ≠ stFpNull → bad j = true := by
  have read : ∀ j < schFpMaxEntries, ∀ t, readTime endian s bad j = some t →
      bad j = false ∧ t = (s.stFlightplanTlb j).unixtime ∧ t ≠ stFpNull := by
    intro j inside t given
    unfold readTime at given
    split at given
    · contradiction
    · rename_i fine
      obtain ⟨e, entry, rfl⟩ := Option.map_eq_some_iff.mp given
      have live : (s.stFlightplanTlb j).unixtime ≠ stFpNull := by
        intro null
        simp [entrySlot, null] at entry
      obtain ⟨e', entry', time⟩ := filed j inside live
      obtain rfl := Option.some.inj (entry.symm.trans entry')
      exact ⟨by simpa using fine, time, time ▸ live⟩
  have refused : ∀ j < schFpMaxEntries, readTime endian s bad j = none ↔
      ((s.stFlightplanTlb j).unixtime ≠ stFpNull → bad j = true) := by
    intro j inside
    cases failing : bad j with
    | true => simp [readTime, failing]
    | false =>
      by_cases null : (s.stFlightplanTlb j).unixtime = stFpNull
      · simp [readTime, failing, entrySlot, null]
      · obtain ⟨e, entry, -⟩ := filed j inside null
        simp [readTime, failing, entry, null]
  constructor
  · intro guarded i inside later failing
    rcases guarded.failed i inside later failing with ⟨null, nothing⟩ | ⟨j, before, null, -⟩
    · exact ⟨null, fun j before => (refused j (by omega)).mp (nothing j before)⟩
    · exact absurd rfl (read j (by omega) _ null).2.2
  · intro alone
    refine ⟨(clock_succ low high).1, fun i inside live _ => ?_, fun i inside later t given => ?_,
      fun i inside later failing => ?_⟩
    · obtain ⟨e, entry, -⟩ := filed i inside live
      exact Option.isSome_of_eq_some entry
    · rw [later_iff low high, (read i inside t given).2.1]
      exact .inl later.2
    · obtain ⟨null, nothing⟩ := alone i inside later failing
      exact .inl ⟨null, fun j before => (refused j (by omega)).mpr (nothing j before)⟩

def failingReads (dev : Device) (s : FlashStore) (bad : Nat → Bool) : Device :=
  let pageFails (addr : Nat) : Bool := (List.range schFpMaxEntries).any fun i =>
    bad i && (s.stFlightplanTlb i).unixtime != stFpNull && (s.stFlightplanTlb i).addr.toNat == addr
  { dev with readFails := fun _ addr => pageFails addr }

theorem failingReads_fails (dev : Device) (sound : Sound endian Fits s) (bad : Nat → Bool) :
    ReadsFail (failingReads dev s bad) s bad := by
  intro i inside live n
  rw [failingReads, Bool.eq_iff_iff, List.any_eq_true]
  constructor
  · intro ⟨j, mem, hit⟩
    simp only [Bool.and_eq_true, bne_iff_ne, beq_iff_eq] at hit
    obtain ⟨⟨failing, taken⟩, same⟩ := hit
    by_cases eq : i = j
    · exact eq ▸ failing
    · have apart := sound.distinct i inside j (List.mem_range.mp mem) live taken eq
      exact absurd (UInt32.toNat_inj.mp same.symm) apart
  · intro failing
    exact ⟨i, List.mem_range.mpr inside, by simp [failing, live]⟩

theorem single_entry_kept :
    ∃ s, entrySlot idealDevice.endian s 0 = some pingRow ∧
      KeepsFuture (failingReads idealDevice s fun i => i = 0) simpleConfig s 3 stFpNull := by
  obtain ⟨-, -, s, -, -, -, -, sound, entry⟩ := boot_ping idealDevice_reliable blankMedia
  have fails := failingReads_fails idealDevice sound fun i => decide (i = 0)
  refine ⟨s, entry, (purge_keeps_future_iff sound.toInitialised fails simpleConfig 3 _).mpr ?_⟩
  refine (guarded_iff_of_filed (filed_of_sound sound) (by decide) (by decide)).mpr ?_
  intro i inside later failing
  obtain rfl : i = 0 := of_decide_eq_true failing
  exact ⟨rfl, fun j before => absurd before (Nat.not_lt_zero j)⟩

structure Pinged (k : Nat) (s : FlashStore) : Prop extends
    Sound idealDevice.endian Fits s where
  used : usedPages s.stFlightplanTlb = k
  times : ∀ i < schFpMaxEntries,
    (s.stFlightplanTlb i).unixtime = if i < k then pingRow.unixtime else stFpNull

theorem ping_step {k : Nat} (pinged : Pinged k s) (inside : k < schFpMaxEntries)
    (room : k < commandsPerSection) :
    ∃ s', stepCall idealDevice s setPing = some (schStOk, s') ∧ Pinged (k + 1) s' := by
  have room' : usedPages s.stFlightplanTlb < commandsPerSection := pinged.used ▸ room
  have free : storageFlightplanFindIndexTlb s stFpNull = some k := by
    refine first_eq_some_iff.mpr ⟨inside, by simp [pinged.times k inside], ?_⟩
    intro j before
    rw [pinged.times j (by omega), if_pos before]
    decide
  refine ⟨insertedStore idealDevice.endian s k pingRow pingText noText, ?_,
    sound_inserted pinged.toSound inside room' ping_fits.1 ping_fits.2, ?_, ?_⟩
  · exact (storageFlightPlanSet_eq pinged.toInitialised pinged.few (by decide) pingText noText 1 0
      1).trans (insertEntry_reliable idealDevice_reliable pinged.toInitialised pingRow rfl rfl free
        room')
  · rw [insertedStore_used _ inside room', pinged.used]
  · intro i bound
    rw [insertedStore_slot _ inside bound]
    by_cases eq : i = k
    · rw [if_pos eq, if_pos (by omega)]
    · rw [if_neg eq, pinged.times i bound]
      exact if_congr (by omega) rfl rfl

theorem second_entry_discarded :
    ∃ s s₀ s₁ s₂, datRepoInit idealDevice (powerOn blankMedia []) 1 = some s ∧
      storageFlightPlanReset idealDevice s = some (schStOk, s₀) ∧
      stepCall idealDevice s₀ setPing = some (schStOk, s₁) ∧
      stepCall idealDevice s₁ setPing = some (schStOk, s₂) ∧
      ∀ unixtime, ¬ KeepsFuture (failingReads idealDevice s₂ fun i => i = 1) simpleConfig s₂ 3
        unixtime := by
  obtain ⟨s, s₀, boot, -, reset, sound, free, empty⟩ :=
    boot_reset idealDevice_reliable blankMedia Fits
  have start : Pinged 0 s₀ := ⟨sound, empty, fun i inside => free i inside⟩
  obtain ⟨s₁, set₁, one⟩ := ping_step start (by decide) (by decide)
  obtain ⟨s₂, set₂, two⟩ := ping_step one (by decide) (by decide)
  have fails := failingReads_fails idealDevice two.toSound fun i => decide (i = 1)
  have filed : Filed idealDevice.endian s₂ := filed_of_sound two.toSound
  have time₀ : (s₂.stFlightplanTlb 0).unixtime = 10 := two.times 0 (by decide)
  have time₁ : (s₂.stFlightplanTlb 1).unixtime = 10 := two.times 1 (by decide)
  refine ⟨s, s₀, s₁, s₂, boot, reset, set₁, set₂, fun unixtime keeps => ?_⟩
  have later : Future s₂ 3 1 := by
    rw [Future, time₁]
    decide
  have guarded := guarded_of_keepsFuture two.toInitialised fails keeps
  have first := ((guarded_iff_of_filed filed (by decide) (by decide)).mp guarded 1 (by decide) later
    rfl).2 0 Nat.one_pos (by rw [time₀]; decide)
  exact absurd first (by decide)

end FlashPurgeFaults
