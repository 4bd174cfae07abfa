import SuchaiFlight.FlashSections

/-!
The flight plan table of the FLASH back end on devices that do not fail: TLB,
used-page counter and flash pages together. An entry is written to a fresh
page and deleted in the TLB only.
-/
namespace FlashTable
open ByteMemory NonVolatile CStrings StorageApi SlotTable FlashStorage FlashOperations FlashSections

/-! Pages. -/

theorem wordAt_word (endian : Endian) (before after : List UInt8) (w : Int32) {n : Nat}
    (size : before.length = n) :
    wordAt endian (before ++ (wordBytes endian w.toUInt32 ++ after)) n = w := by
  subst size
  simp [wordAt]

theorem fpEntryAt_fpContainerBytes (endian : Endian) (row : FpEntry) {cmd args : CString}
    (hc : strlen cmd < stCmdMaxStrParams) (ha : strlen args < stCmdMaxStrName) :
    fpEntryAt endian (fpContainerBytes endian (newEntry row cmd args)) =
      some { row with cmd := some cmd, args := some args } := by
  generalize eq : fpContainerBytes endian (newEntry row cmd args) = page
  simp only [fpContainerBytes, newEntry] at eq
  have time : wordAt endian page 0 = row.unixtime := by
    rw [← eq]
    simpa using wordAt_word endian [] _ row.unixtime rfl
  have executions : wordAt endian page 4 = row.executions := by
    rw [← eq]
    simpa using wordAt_word endian (wordBytes endian row.unixtime.toUInt32) _ row.executions
      (wordBytes_length _ _)
  have periodical : wordAt endian page 8 = row.periodical := by
    rw [← eq]
    simpa using wordAt_word endian (wordBytes endian row.unixtime.toUInt32 ++
      wordBytes endian row.executions.toUInt32) _ row.periodical (by simp)
  have node : wordAt endian page 12 = row.node := by
    rw [← eq]
    simpa using wordAt_word endian (wordBytes endian row.unixtime.toUInt32 ++
      wordBytes endian row.executions.toUInt32 ++ wordBytes endian row.periodical.toUInt32) _
      row.node (by simp)
  have text : stringAt (page.drop 16) = some cmd := by
    rw [← eq, List.append_assoc, List.drop_left' (by simp)]
    exact stringAt_charArray _ cmd _ hc
  have params : stringAt (page.drop (16 + stCmdMaxStrParams)) = some args := by
    rw [← eq, List.drop_left' (by simp; omega)]
    simpa using stringAt_charArray stCmdMaxStrName args [] ha
  simp [fpEntryAt, text, params, time, executions, periodical, node]

def PageHolds (endian : Endian) (short : CString → Prop) (s : FlashStore) (n : Nat) (t : Int32) :
    Prop :=
  (∃ e cmd args, e.unixtime = t ∧ short cmd ∧ short args ∧
    pageBytes s.media.flash n = fpContainerBytes endian (newEntry e cmd args)) ∧
  ∀ k < fpContainerSize, Programmed s.log (flightplanBase + n * fpContainerSize + k)

structure Sound (endian : Endian) (short : CString → Prop) (s : FlashStore) : Prop
    extends Bounded s where
  distinct : ∀ i < schFpMaxEntries, ∀ j < schFpMaxEntries,
    (s.stFlightplanTlb i).unixtime ≠ stFpNull → (s.stFlightplanTlb j).unixtime ≠ stFpNull →
      i ≠ j → (s.stFlightplanTlb i).addr ≠ (s.stFlightplanTlb j).addr
  written : ∀ i < schFpMaxEntries, (s.stFlightplanTlb i).unixtime ≠ stFpNull →
    ∀ n < usedPages s.stFlightplanTlb, (s.stFlightplanTlb i).addr = pageOf n →
      PageHolds endian short s n (s.stFlightplanTlb i).unixtime
  blank : ∀ x, flightplanBase + usedPages s.stFlightplanTlb * fpContainerSize ≤ x →
    x < flightplanBase + schSizePerSection → ¬ Programmed s.log x

variable {dev : Device} {short : CString → Prop} {s s' : FlashStore} {rc : Int32}

/-! The three ways in which a store changes. -/

def insertedStore (endian : Endian) (s : FlashStore) (index : Nat) (row : FpEntry)
    (cmd args : CString) : FlashStore :=
  let tlb := insertTlb s.stFlightplanTlb index row.unixtime
  let ops := insertOps endian tlb index
    (flightplanBase + usedPages s.stFlightplanTlb * fpContainerSize) (newEntry row cmd args)
  { s with media := replay s.media ops, log := ops.reverse ++ s.log, stFlightplanTlb := tlb }

def clearedStore (endian : Endian) (s : FlashStore) (index : Nat) : FlashStore :=
  let tlb := Function.update s.stFlightplanTlb index freeSlot
  { s with media := (slotOp endian tlb index).apply s.media
           log := slotOp endian tlb index :: s.log, stFlightplanTlb := tlb }

def resetStore (endian : Endian) (s : FlashStore) : FlashStore :=
  { s with media := replay s.media (resetOps endian)
           log := (resetOps endian).reverse ++ s.log, stFlightplanTlb := clearedTlb }

theorem insertEntry_reliable (works : Reliable dev) (init : Initialised s) (row : FpEntry)
    {cmd args : CString} (hc : row.cmd = some cmd) (ha : row.args = some args) {index : Nat}
    (free : storageFlightplanFindIndexTlb s stFpNull = some index)
    (room : usedPages s.stFlightplanTlb < commandsPerSection) :
    insertEntry dev s row = some (schStOk, insertedStore dev.endian s index row cmd args) := by
  rw [insertEntry_eq init hc ha free room, performOps_reliable works.writes]
  rfl

theorem eraseSlot_reliable (works : Reliable dev) (index : Nat) :
    eraseSlot dev s index = (schStOk, clearedStore dev.endian s index) := by
  rw [eraseSlot, performOps_reliable works.writes]
  rfl

theorem sound_cleared (sound : Sound dev.endian short s) {index : Nat}
    (inside : index < schFpMaxEntries) :
    Sound dev.endian short (clearedStore dev.endian s index) := by
  have live : ∀ i, ((clearedStore dev.endian s index).stFlightplanTlb i).unixtime ≠ stFpNull →
      i ≠ index := by
    intro i taken eq
    subst eq
    simp [clearedStore, freeSlot] at taken
  have same : ∀ i, i ≠ index →
      (clearedStore dev.endian s index).stFlightplanTlb i = s.stFlightplanTlb i := by
    intro i ne
    simp [clearedStore, ne]
  have used : usedPages (clearedStore dev.endian s index).stFlightplanTlb =
      usedPages s.stFlightplanTlb := usedPages_update inside freeSlot
  refine ⟨sound.erase (sound.of_ram _ _ _) inside rfl, ?_, ?_, ?_⟩
  · intro i hi j hj takeni takenj
    have si := same i (live i takeni)
    have sj := same j (live j takenj)
    rw [si] at takeni ⊢
    rw [sj] at takenj ⊢
    exact sound.distinct i hi j hj takeni takenj
  · intro i bound taken n below place
    have si := same i (live i taken)
    rw [si] at taken place ⊢
    rw [used] at below
    exact sound.written i bound taken n below place
  · intro x low high
    rw [used] at low
    exact sound.blank x low high

theorem sound_reset (init : Initialised s) : Sound dev.endian short (resetStore dev.endian s) := by
  have free : ∀ i < schFpMaxEntries,
      ((resetStore dev.endian s).stFlightplanTlb i).unixtime = stFpNull :=
    fun i inside => clearedTlb_free inside
  refine ⟨bounded_of_cleared (init.of_ram _ _ _) rfl, ?_, ?_, ?_⟩
  · intro i hi j hj taken
    exact absurd (free i hi) taken
  · intro i bound taken
    exact absurd (free i bound) taken
  · intro x low high
    have used : usedPages (resetStore dev.endian s).stFlightplanTlb = 0 := usedPages_cleared
    rw [used] at low
    simp only [resetStore, resetOps, List.reverse_cons, List.reverse_nil, List.nil_append,
      List.cons_append, Programmed]
    intro still
    exact still.1 ⟨by omega, high⟩

section Insert
variable {index : Nat} {row : FpEntry} {cmd args : CString}

theorem insertedStore_flash (endian : Endian) :
    (insertedStore endian s index row cmd args).media.flash =
      write s.media.flash (flightplanBase + usedPages s.stFlightplanTlb * fpContainerSize)
        (fpContainerBytes endian (newEntry row cmd args)) := rfl

theorem insertedStore_programmed (endian : Endian) (x : Nat) :
    Programmed (insertedStore endian s index row cmd args).log x ↔
      (flightplanBase + usedPages s.stFlightplanTlb * fpContainerSize ≤ x ∧
        x < flightplanBase + usedPages s.stFlightplanTlb * fpContainerSize + fpContainerSize) ∨
      Programmed s.log x := by
  simp [insertedStore, insertOps, slotOp, Programmed, fpContainerBytes_length]

theorem insertedStore_used (endian : Endian) (inside : index < schFpMaxEntries)
    (room : usedPages s.stFlightplanTlb < commandsPerSection) :
    usedPages (insertedStore endian s index row cmd args).stFlightplanTlb =
      usedPages s.stFlightplanTlb + 1 := usedPages_tlbWith inside room

theorem insertedStore_slot (endian : Endian) (inside : index < schFpMaxEntries) {i : Nat}
    (bound : i < schFpMaxEntries) :
    (insertedStore endian s index row cmd args).stFlightplanTlb i =
      if i = index then ⟨pageOf (usedPages s.stFlightplanTlb), row.unixtime⟩
      else s.stFlightplanTlb i := by
  by_cases eq : i = index
  · subst eq
    rw [if_pos rfl]
    exact tlbWith_same inside
  · rw [if_neg eq]
    exact tlbWith_other eq (Nat.ne_of_lt bound)

theorem pageHolds_new (endian : Endian) (hc : short cmd) (ha : short args) :
    PageHolds endian short (insertedStore endian s index row cmd args)
      (usedPages s.stFlightplanTlb) row.unixtime := by
  refine ⟨⟨row, cmd, args, rfl, hc, ha, ?_⟩, ?_⟩
  · rw [insertedStore_flash]
    exact pageBytes_write_same _ _ (fpContainerBytes_length _ _ _ _)
  · intro k bound
    rw [insertedStore_programmed]
    exact Or.inl ⟨by omega, by omega⟩

theorem pageHolds_old {endian : Endian} {n : Nat} {t : Int32}
    (holds : PageHolds endian short s n t) (ne : n ≠ usedPages s.stFlightplanTlb) :
    PageHolds endian short (insertedStore endian s index row cmd args) n t := by
  obtain ⟨⟨e, c, a, time, hc, ha, bytes⟩, programmed⟩ := holds
  refine ⟨⟨e, c, a, time, hc, ha, ?_⟩, ?_⟩
  · rw [insertedStore_flash, pageBytes_write_other _ ne (fpContainerBytes_length _ _ _ _), bytes]
  · intro k bound
    rw [insertedStore_programmed]
    exact Or.inr (programmed k bound)

theorem sound_inserted (sound : Sound dev.endian short s) (inside : index < schFpMaxEntries)
    (room : usedPages s.stFlightplanTlb < commandsPerSection) (hc : short cmd) (ha : short args) :
    Sound dev.endian short (insertedStore dev.endian s index row cmd args) := by
  have used : usedPages (insertedStore dev.endian s index row cmd args).stFlightplanTlb =
      usedPages s.stFlightplanTlb + 1 := insertedStore_used dev.endian inside room
  have slot : ∀ i < schFpMaxEntries,
      (insertedStore dev.endian s index row cmd args).stFlightplanTlb i =
        if i = index then ⟨pageOf (usedPages s.stFlightplanTlb), row.unixtime⟩
        else s.stFlightplanTlb i := fun i bound => insertedStore_slot dev.endian inside bound
  -- an old slot refers to a page below the counter, the new one to the page at the counter
  have old : ∀ i < schFpMaxEntries, (s.stFlightplanTlb i).unixtime ≠ stFpNull →
      (s.stFlightplanTlb i).addr ≠ pageOf (usedPages s.stFlightplanTlb) := by
    intro i bound taken same
    obtain ⟨n, below, place⟩ := sound.counted i bound taken
    have eq := pageOf_inj (by omega) room (place ▸ same)
    omega
  refine ⟨sound.insert (sound.of_ram _ _ _) inside room rfl, ?_, ?_, ?_⟩
  · intro i hi j hj takeni takenj ne
    rw [slot i hi] at takeni ⊢
    rw [slot j hj] at takenj ⊢
    by_cases ei : i = index
    · have ej : j ≠ index := fun eq => ne (ei.trans eq.symm)
      rw [if_neg ej] at takenj ⊢
      rw [if_pos ei]
      exact (old j hj takenj).symm
    · rw [if_neg ei] at takeni ⊢
      by_cases ej : j = index
      · rw [if_pos ej]
        exact old i hi takeni
      · rw [if_neg ej] at takenj ⊢
        exact sound.distinct i hi j hj takeni takenj ne
  · intro i bound taken n below place
    rw [used] at below
    rw [slot i bound] at taken place ⊢
    by_cases eq : i = index
    · rw [if_pos eq] at place ⊢
      have same := pageOf_inj room (by omega) place
      exact same ▸ pageHolds_new dev.endian hc ha
    · rw [if_neg eq] at taken place ⊢
      have ne : n ≠ usedPages s.stFlightplanTlb := fun same => old i bound taken (same ▸ place)
      exact pageHolds_old (sound.written i bound taken n (by omega) place) ne
  · intro x low high
    rw [used] at low
    rw [Nat.add_mul, Nat.one_mul] at low
    rw [insertedStore_programmed]
    rintro (⟨-, top⟩ | before)
    · omega
    · exact sound.blank x (by omega) high before

end Insert

/-! One call. -/

inductive Change (endian : Endian) (s : FlashStore) : FlashCall → Int32 → FlashStore → Prop where
  | refused {t : Int32} {command args : Option CString} {executions period node : Int32} :
      Change endian s (.set t command args executions period node) schStError s
  | inserted {index : Nat} {t : Int32} {cmd args : CString} {executions period node : Int32}
      (sign : 0 ≤ t) (free : storageFlightplanFindIndexTlb s stFpNull = some index)
      (room : usedPages s.stFlightplanTlb < commandsPerSection) :
      Change endian s (.set t (some cmd) (some args) executions period node) schStOk
        (insertedStore endian s index ⟨t, executions, period, node, some cmd, some args⟩ cmd args)
  | read {t rc : Int32} : Change endian s (.getArgs t) rc s
  | missing {t : Int32} (none : storageFlightplanFindIndexTlb s t = none) :
      Change endian s (.deleteRow t) schStError s
  | deleted {t : Int32} {index : Nat} (found : storageFlightplanFindIndexTlb s t = some index) :
      Change endian s (.deleteRow t) schStOk (clearedStore endian s index)
  | outside {index : Int32} : Change endian s (.deleteRowIdx index) schStError s
  | deletedIdx {index : Int32} (inside : index.toNatClampNeg < schFpMaxEntries) :
      Change endian s (.deleteRowIdx index) schStOk (clearedStore endian s index.toNatClampNeg)
  | reset : Change endian s .reset schStOk (resetStore endian s)

theorem stepCall_change (works : Reliable dev) (init : Initialised s)
    (few : usedPages s.stFlightplanTlb ≤ commandsPerSection) {call : FlashCall}
    (run : stepCall dev s call = some (rc, s')) : Change dev.endian s call rc s' := by
  cases stepCall_cases init run with
  | refused => exact .refused
  | read => exact .read
  | missing none => exact .missing none
  | outside => exact .outside
  | deleted found run =>
    rw [eraseSlot_reliable works] at run
    obtain ⟨rfl, rfl⟩ := Prod.mk.inj run
    exact .deleted found
  | deletedIdx inside run =>
    rw [eraseSlot_reliable works] at run
    obtain ⟨rfl, rfl⟩ := Prod.mk.inj run
    exact .deletedIdx inside
  | @set t cmd text executions period node rc' s₂ sign run =>
    rw [storageFlightPlanSetSt_eq init few] at run
    cases free : storageFlightplanFindIndexTlb s stFpNull with
    | none =>
      rw [insertEntry_no_slot _ free] at run
      obtain ⟨rfl, rfl⟩ := Prod.mk.inj (Option.some.inj run)
      exact .refused
    | some index =>
      rcases Nat.lt_or_eq_of_le few with room | full
      · rw [insertEntry_reliable works init ⟨t, executions, period, node, some cmd, some text⟩ rfl
          rfl free room] at run
        obtain ⟨rfl, rfl⟩ := Prod.mk.inj (Option.some.inj run)
        exact .inserted sign free room
      · rw [insertEntry_no_page init _ free full] at run
        contradiction
  | reset run =>
    rw [storageFlightPlanReset_reliable works.writes init] at run
    obtain ⟨rfl, rfl⟩ := Prod.mk.inj (Option.some.inj run)
    exact .reset

def Texts (short : CString → Prop) : FlashCall → Prop
  | .set _ command args _ _ _ => (∀ c ∈ command, short c) ∧ ∀ a ∈ args, short a
  | _ => True

theorem change_sound {call : FlashCall} (sound : Sound dev.endian short s)
    (texts : Texts short call) (change : Change dev.endian s call rc s') :
    Sound dev.endian short s' := by
  cases change with
  | refused => exact sound
  | read => exact sound
  | missing none => exact sound
  | outside => exact sound
  | inserted sign free room =>
    exact sound_inserted sound (first_eq_some_iff.mp free).1 room (texts.1 _ rfl) (texts.2 _ rfl)
  | deleted found => exact sound_cleared sound (first_eq_some_iff.mp found).1
  | deletedIdx inside => exact sound_cleared sound inside
  | reset => exact sound_reset sound.toInitialised

/-! The entries of a table. -/

def Fits (text : CString) : Prop := strlen text < stCmdMaxStrName

def entrySlot (endian : Endian) (s : FlashStore) (i : Nat) : Option FpEntry :=
  if (s.stFlightplanTlb i).unixtime = stFpNull then none
  else fpEntryAt endian (read s.media.flash (s.stFlightplanTlb i).addr.toNat fpContainerSize)

theorem Sound.entry (sound : Sound dev.endian Fits s) {i : Nat} (inside : i < schFpMaxEntries)
    (live : (s.stFlightplanTlb i).unixtime ≠ stFpNull) :
    ∃ e cmd args, entrySlot dev.endian s i = some e ∧
      e.unixtime = (s.stFlightplanTlb i).unixtime ∧ e.cmd = some cmd ∧ e.args = some args ∧
      Fits cmd ∧ Fits args := by
  obtain ⟨n, below, place⟩ := sound.counted i inside live
  obtain ⟨⟨e, cmd, args, time, hc, ha, bytes⟩, -⟩ := sound.written i inside live n below place
  have few := sound.few
  refine ⟨{ e with cmd := some cmd, args := some args }, cmd, args, ?_, time, rfl, rfl, hc, ha⟩
  rw [entrySlot, if_neg live, place, pageOf_toNat (by omega)]
  show fpEntryAt _ (pageBytes _ _) = _
  rw [bytes]
  exact fpEntryAt_fpContainerBytes dev.endian e hc ha

theorem Sound.entry_time_ne (sound : Sound dev.endian Fits s) {i : Nat}
    (inside : i < schFpMaxEntries) {e : FpEntry} (slot : entrySlot dev.endian s i = some e) :
    e.unixtime ≠ stFpNull := by
  have live : (s.stFlightplanTlb i).unixtime ≠ stFpNull := by
    intro eq
    simp [entrySlot, eq] at slot
  obtain ⟨e', -, -, entry, time, -⟩ := sound.entry inside live
  rw [slot] at entry
  cases entry
  rwa [time]

theorem Sound.find_time (sound : Sound dev.endian Fits s) {t : Int32} (real : t ≠ stFpNull) :
    storageFlightplanFindIndexTlb s t =
      first schFpMaxEntries fun i => (entrySlot dev.endian s i).any fun e => e.unixtime = t := by
  apply first_congr
  intro i inside
  by_cases null : (s.stFlightplanTlb i).unixtime = stFpNull
  · simp [entrySlot, null, real.symm]
  · obtain ⟨e, cmd, args, entry, time, -⟩ := sound.entry inside null
    simp [entry, time]

theorem entrySlot_cleared (endian : Endian) (index i : Nat) :
    entrySlot endian (clearedStore endian s index) i =
      Function.update (entrySlot endian s) index none i := by
  by_cases eq : i = index
  · subst eq
    simp [entrySlot, clearedStore, freeSlot]
  · simp [entrySlot, clearedStore, eq, slotOp, NvOp.apply]

theorem entrySlot_inserted (sound : Sound dev.endian Fits s) {index : Nat}
    (inside : index < schFpMaxEntries) (room : usedPages s.stFlightplanTlb < commandsPerSection)
    {row : FpEntry} {cmd args : CString} (real : row.unixtime ≠ stFpNull)
    (hc : row.cmd = some cmd) (ha : row.args = some args) (fits : Fits cmd ∧ Fits args)
    {i : Nat} (bound : i < schFpMaxEntries) :
    entrySlot dev.endian (insertedStore dev.endian s index row cmd args) i =
      Function.update (entrySlot dev.endian s) index (some row) i := by
  rw [entrySlot, insertedStore_slot dev.endian inside bound, insertedStore_flash]
  by_cases eq : i = index
  · subst eq
    rw [if_pos rfl, if_neg real, Function.update_self, pageOf_toNat room]
    have page := pageBytes_write_same s.media.flash (usedPages s.stFlightplanTlb)
      (fpContainerBytes_length dev.endian row cmd args)
    show fpEntryAt _ (pageBytes _ _) = _
    rw [page, fpEntryAt_fpContainerBytes dev.endian row fits.1 fits.2, ← hc, ← ha]
  · rw [if_neg eq, Function.update_of_ne eq, entrySlot]
    by_cases null : (s.stFlightplanTlb i).unixtime = stFpNull
    · rw [if_pos null, if_pos null]
    · obtain ⟨n, below, place⟩ := sound.counted i bound null
      have page := pageBytes_write_other s.media.flash (Nat.ne_of_lt below)
        (fpContainerBytes_length dev.endian row cmd args)
      rw [if_neg null, if_neg null, place, pageOf_toNat (by omega)]
      exact congrArg (fpEntryAt dev.endian) page

/-! Lookup. -/

/-- The answers of `storage_flight_plan_get_idx` and of
    `storage_flight_plan_get_args` for the entries of `table`: both are always
    defined, and the second one succeeds for the times of the entries. -/
structure LookupExact (dev : Device) (s : FlashStore) (table : Nat → Option FpEntry) : Prop where
  byIndex : ∀ i < schFpMaxEntries, storageFlightPlanGetIdx dev s (Int32.ofNat i) =
    some (match table i with
      | some e => .ok e
      | none => .error schStError)
  byTime : ∀ t, ∃ res, storageFlightPlanGetArgs dev s t = some res ∧
    (res.toOption.isSome ↔ ∃ i < schFpMaxEntries, ∃ e ∈ table i, e.unixtime = t) ∧
    ∀ out, res = .ok out → ∃ i < schFpMaxEntries, ∃ e ∈ table i, e.unixtime = t ∧
      e.cmd = some out.command ∧ e.args = some out.args ∧ e.executions = out.executions ∧
      e.periodical = out.period ∧ e.node = out.node

theorem LookupExact.congr {table table' : Nat → Option FpEntry} (lookup : LookupExact dev s table)
    (same : ∀ i < schFpMaxEntries, table i = table' i) : LookupExact dev s table' := by
  have entries : ∀ p : FpEntry → Prop, (∃ i < schFpMaxEntries, ∃ e ∈ table i, p e) ↔
      ∃ i < schFpMaxEntries, ∃ e ∈ table' i, p e := by
    intro p
    refine exists_congr fun i => and_congr_right fun inside => ?_
    rw [same i inside]
  refine ⟨fun i inside => same i inside ▸ lookup.byIndex i inside, fun t => ?_⟩
  simpa only [entries] using lookup.byTime t

theorem copyText_fits {text : CString} (fits : Fits text) :
    copyText stCmdMaxStrName (some text) = some text := by
  simpa [copyText] using stringAt_charArray stCmdMaxStrName text [] fits

theorem getIdx_free (dev : Device) (init : Initialised s) {i : Nat} (inside : i < schFpMaxEntries)
    (free : (s.stFlightplanTlb i).unixtime = stFpNull) :
    storageFlightPlanGetIdx dev s (Int32.ofNat i) = some (.error schStError) := by
  obtain ⟨sign, value⟩ := index_cast inside
  have below : ¬ s.stFlightplanEntries ≤ i := by rw [init.entriesEq]; omega
  simp [storageFlightPlanGetIdx, sign, value, below, free]

theorem getIdx_exact (works : Reliable dev) (sound : Sound dev.endian Fits s) {i : Nat}
    (inside : i < schFpMaxEntries) : storageFlightPlanGetIdx dev s (Int32.ofNat i) =
      some (match entrySlot dev.endian s i with
        | some e => .ok e
        | none => .error schStError) := by
  by_cases null : (s.stFlightplanTlb i).unixtime = stFpNull
  · rw [getIdx_free dev sound.toInitialised inside null, entrySlot, if_pos null]
  · obtain ⟨e, cmd, args, entry, -⟩ := sound.entry inside null
    rw [entry]
    rw [entrySlot, if_neg null] at entry
    rw [getIdx_live works sound.toInitialised inside null, entry]
    rfl

theorem getArgs_of_found {t : Int32} {i : Nat} {e : FpEntry} {cmd args : CString}
    (scan : storageFlightplanFindIndexTlb s t = some i)
    (back : storageFlightPlanGetIdx dev s (Int32.ofNat i) = some (.ok e)) (hc : e.cmd = some cmd)
    (ha : e.args = some args) (fits : Fits cmd ∧ Fits args) :
    storageFlightPlanGetArgs dev s t =
      some (.ok ⟨cmd, args, e.executions, e.periodical, e.node⟩) := by
  have params := copyText_fits fits.2
  simp [storageFlightPlanGetArgs, storageFlightPlanGetSt, scan, back, hc, ha,
    copyText_fits fits.1, show stCmdMaxStrParams = stCmdMaxStrName from rfl, params]

theorem lookup_exact (works : Reliable dev) (sound : Sound dev.endian Fits s) :
    LookupExact dev s (entrySlot dev.endian s) := by
  refine ⟨fun i inside => getIdx_exact works sound inside, ?_⟩
  intro t
  by_cases real : t = stFpNull
  · -- a free slot is found and refused
    subst real
    have never : ¬ ∃ i < schFpMaxEntries, ∃ e ∈ entrySlot dev.endian s i,
        e.unixtime = stFpNull := by
      rintro ⟨i, inside, e, slot, null⟩
      exact sound.entry_time_ne inside slot null
    refine ⟨.error schStError, ?_, by simpa [Except.toOption] using never, by simp⟩
    cases scan : storageFlightplanFindIndexTlb s stFpNull with
    | none => simp [storageFlightPlanGetArgs, storageFlightPlanGetSt, scan]
    | some i =>
      obtain ⟨inside, null, -⟩ := first_eq_some_iff.mp scan
      have refused := getIdx_free dev sound.toInitialised inside (by simpa using null)
      simp [storageFlightPlanGetArgs, storageFlightPlanGetSt, scan, refused]
  · have find := sound.find_time real
    cases scan : storageFlightplanFindIndexTlb s t with
    | none =>
      rw [scan] at find
      refine ⟨.error schStError, ?_, ?_, by simp⟩
      · simp [storageFlightPlanGetArgs, storageFlightPlanGetSt, scan]
      · have miss := first_eq_none_iff.mp find.symm
        simpa [Except.toOption, Option.any_eq_false] using miss
    | some i =>
      obtain ⟨inside, hit, -⟩ := first_eq_some_iff.mp scan
      have time : (s.stFlightplanTlb i).unixtime = t := by simpa using hit
      have live : (s.stFlightplanTlb i).unixtime ≠ stFpNull := by rwa [time]
      obtain ⟨e, cmd, args, entry, same, hc, ha, fits⟩ := sound.entry inside live
      have back := getIdx_exact works sound inside
      rw [entry] at back
      refine ⟨_, getArgs_of_found scan back hc ha fits, ?_, ?_⟩
      · simpa [Except.toOption] using ⟨i, inside, e, entry, same.trans time⟩
      · intro out eq
        cases eq
        exact ⟨i, inside, e, entry, same.trans time, hc, ha, rfl, rfl, rfl⟩

/-! Histories of calls, newest first, with the codes they returned. -/

inductive Run (dev : Device) (s₀ : FlashStore) : List (FlashCall × Int32) → FlashStore → Prop where
  | start : Run dev s₀ [] s₀
  | call {history : List (FlashCall × Int32)} {s s' : FlashStore} {call : FlashCall} {rc : Int32}
      (before : Run dev s₀ history s) (kind : call ≠ .reset) (texts : Texts Fits call)
      (run : stepCall dev s call = some (rc, s')) : Run dev s₀ ((call, rc) :: history) s'

def successfulSets : List (FlashCall × Int32) → Nat
  | [] => 0
  | (.set .., rc) :: history => successfulSets history + if rc = schStOk then 1 else 0
  | _ :: history => successfulSets history

/-- The entries that were set and not deleted, each in a slot of its own. A
    deletion by time removes one entry of that time, if there is one, and a
    deletion by index removes what the slot holds. -/
inductive Pending : List (FlashCall × Int32) → (Nat → Option FpEntry) → Prop where
  | nothing : Pending [] fun _ => none
  | stored {history : List (FlashCall × Int32)} {table : Nat → Option FpEntry} {i : Nat}
      {t : Int32} {cmd args : CString} {executions period node : Int32}
      (before : Pending history table) (inside : i < schFpMaxEntries) (free : table i = none) :
      Pending ((.set t (some cmd) (some args) executions period node, schStOk) :: history)
        (Function.update table i (some ⟨t, executions, period, node, some cmd, some args⟩))
  | refused {history : List (FlashCall × Int32)} {table : Nat → Option FpEntry} {t rc : Int32}
      {command args : Option CString} {executions period node : Int32}
      (before : Pending history table) (failed : rc ≠ schStOk) :
      Pending ((.set t command args executions period node, rc) :: history) table
  | read {history : List (FlashCall × Int32)} {table : Nat → Option FpEntry} {t rc : Int32}
      (before : Pending history table) : Pending ((.getArgs t, rc) :: history) table
  | missing {history : List (FlashCall × Int32)} {table : Nat → Option FpEntry} {t rc : Int32}
      (before : Pending history table)
      (absent : ∀ i < schFpMaxEntries, ∀ e ∈ table i, e.unixtime ≠ t) :
      Pending ((.deleteRow t, rc) :: history) table
  | deleted {history : List (FlashCall × Int32)} {table : Nat → Option FpEntry} {t : Int32}
      {i : Nat} {e : FpEntry} (before : Pending history table) (inside : i < schFpMaxEntries)
      (found : table i = some e) (time : e.unixtime = t) :
      Pending ((.deleteRow t, schStOk) :: history) (Function.update table i none)
  | outside {history : List (FlashCall × Int32)} {table : Nat → Option FpEntry}
      {index rc : Int32} (before : Pending history table) (failed : rc ≠ schStOk) :
      Pending ((.deleteRowIdx index, rc) :: history) table
  | deletedIdx {history : List (FlashCall × Int32)} {table : Nat → Option FpEntry}
      {index : Int32} (before : Pending history table) :
      Pending ((.deleteRowIdx index, schStOk) :: history)
        (Function.update table index.toNatClampNeg none)

structure Explains (dev : Device) (s₀ : FlashStore) (history : List (FlashCall × Int32))
    (s : FlashStore) : Prop where
  sound : Sound dev.endian Fits s
  used : usedPages s.stFlightplanTlb = successfulSets history
  once : ∃ ops, s.log = ops ++ s₀.log ∧ ProgramsOnce s₀.log ops
  pending : ∃ table, Pending history table ∧
    ∀ i < schFpMaxEntries, entrySlot dev.endian s i = table i

theorem explains_reset (works : Reliable dev) (init : Initialised s)
    (reset : storageFlightPlanReset dev s = some (rc, s')) : Explains dev s' [] s' := by
  rw [storageFlightPlanReset_reliable works.writes init] at reset
  obtain ⟨-, rfl⟩ := Prod.mk.inj (Option.some.inj reset)
  refine ⟨sound_reset init, usedPages_cleared, ⟨[], rfl, trivial⟩, _, .nothing, ?_⟩
  intro i inside
  simp [entrySlot, clearedTlb_free inside]

section Step
variable {s₀ : FlashStore} {history : List (FlashCall × Int32)} {call : FlashCall}

theorem Explains.unchanged (known : Explains dev s₀ history s)
    (sets : successfulSets ((call, rc) :: history) = successfulSets history)
    (grows : ∀ table, Pending history table →
      (∀ i < schFpMaxEntries, entrySlot dev.endian s i = table i) →
      Pending ((call, rc) :: history) table) :
    Explains dev s₀ ((call, rc) :: history) s := by
  obtain ⟨table, before, same⟩ := known.pending
  exact ⟨known.sound, known.used.trans sets.symm, known.once, table,
    grows table before same, same⟩

theorem Explains.cleared (known : Explains dev s₀ history s) {index : Nat}
    (inside : index < schFpMaxEntries)
    (sets : successfulSets ((call, rc) :: history) = successfulSets history)
    (grows : ∀ table, Pending history table →
      (∀ i < schFpMaxEntries, entrySlot dev.endian s i = table i) →
      ∃ table', Pending ((call, rc) :: history) table' ∧
        ∀ i < schFpMaxEntries, Function.update table index none i = table' i) :
    Explains dev s₀ ((call, rc) :: history) (clearedStore dev.endian s index) := by
  obtain ⟨table, before, same⟩ := known.pending
  obtain ⟨ops, log, once⟩ := known.once
  obtain ⟨table', after, same'⟩ := grows table before same
  refine ⟨sound_cleared known.sound inside, ?_, ?_, table', after, ?_⟩
  · rw [sets, ← known.used]
    exact usedPages_update inside freeSlot
  · exact ⟨slotOp dev.endian _ index :: ops, congrArg _ log, once⟩
  · intro i bound
    rw [entrySlot_cleared, ← same' i bound]
    by_cases eq : i = index
    · subst eq
      simp
    · simp [eq, same i bound]

theorem Explains.inserted (known : Explains dev s₀ history s) {index : Nat} {t : Int32}
    {cmd args : CString} {executions period node : Int32} (sign : 0 ≤ t)
    (fits : Fits cmd ∧ Fits args)
    (free : storageFlightplanFindIndexTlb s stFpNull = some index)
    (room : usedPages s.stFlightplanTlb < commandsPerSection) :
    Explains dev s₀ ((.set t (some cmd) (some args) executions period node, schStOk) :: history)
      (insertedStore dev.endian s index ⟨t, executions, period, node, some cmd, some args⟩
        cmd args) := by
  obtain ⟨inside, null, -⟩ := first_eq_some_iff.mp free
  obtain ⟨table, before, same⟩ := known.pending
  obtain ⟨ops, log, once⟩ := known.once
  have real : t ≠ stFpNull := ne_stFpNull sign
  have empty : table index = none := by
    rw [← same index inside, entrySlot, if_pos (by simpa using null)]
  refine ⟨sound_inserted known.sound inside room fits.1 fits.2, ?_, ?_, _,
    before.stored inside empty, ?_⟩
  · rw [insertedStore_used dev.endian inside room, known.used]
    simp [successfulSets]
  · refine ⟨_ :: _ :: _ :: ops, congrArg (_ :: _ :: _ :: ·) log, ⟨once, ?_⟩⟩
    intro x low high
    show ¬ Programmed (ops ++ s₀.log) x
    rw [← log]
    have size := fpContainerBytes_length dev.endian
      ⟨t, executions, period, node, some cmd, some args⟩ cmd args
    rw [size] at high
    have page := page_in_section room
    exact known.sound.blank x low (by omega)
  · intro i bound
    rw [entrySlot_inserted known.sound inside room real rfl rfl fits bound]
    by_cases eq : i = index
    · subst eq
      simp
    · simp [eq, same i bound]

theorem explains_step (works : Reliable dev) (known : Explains dev s₀ history s)
    (kind : call ≠ .reset) (texts : Texts Fits call)
    (run : stepCall dev s call = some (rc, s')) : Explains dev s₀ ((call, rc) :: history) s' := by
  have sound := known.sound
  cases stepCall_change works sound.toInitialised sound.few run with
  | refused =>
    have error : schStError ≠ schStOk := by decide
    exact known.unchanged (by simp [successfulSets, error]) fun table before _ =>
      before.refused error
  | read => exact known.unchanged rfl fun table before _ => before.read
  | outside =>
    have error : schStError ≠ schStOk := by decide
    exact known.unchanged rfl fun table before _ => before.outside error
  | reset => exact absurd rfl kind
  | inserted sign free room => exact known.inserted sign ⟨texts.1 _ rfl, texts.2 _ rfl⟩ free room
  | deletedIdx inside =>
    exact known.cleared inside rfl fun table before _ => ⟨_, before.deletedIdx, fun _ _ => rfl⟩
  | @missing t none =>
    refine known.unchanged rfl fun table before same => before.missing ?_
    intro i inside e slot time
    have real := sound.entry_time_ne inside ((same i inside).trans slot)
    rw [time] at real
    have miss := first_eq_none_iff.mp ((sound.find_time real).symm.trans none) i inside
    rw [same i inside, Option.mem_def.mp slot] at miss
    simp [time] at miss
  | @deleted t index found =>
    obtain ⟨inside, hit, -⟩ := first_eq_some_iff.mp found
    refine known.cleared inside rfl fun table before same => ?_
    by_cases real : t = stFpNull
    · -- a slot that was free is freed once more
      subst real
      have empty : table index = none := by
        rw [← same index inside, entrySlot, if_pos (by simpa using hit)]
      refine ⟨table, before.missing ?_, ?_⟩
      · intro i bound e slot
        exact sound.entry_time_ne bound ((same i bound).trans slot)
      · intro i bound
        rw [← empty, Function.update_eq_self]
    · have live : (s.stFlightplanTlb index).unixtime ≠ stFpNull := by
        rwa [show (s.stFlightplanTlb index).unixtime = t by simpa using hit]
      obtain ⟨e, -, -, entry, time, -⟩ := sound.entry inside live
      refine ⟨_, before.deleted inside ((same index inside).symm.trans entry) ?_, fun _ _ => rfl⟩
      rw [time]
      simpa using hit

theorem explains_run (works : Reliable dev) (start : Explains dev s₀ [] s₀)
    (run : Run dev s₀ history s) : Explains dev s₀ history s := by
  induction run with
  | start => exact start
  | call before kind texts run ih => exact explains_step works ih kind texts run

end Step

/-- The address of a live slot is page aligned, in section 0, on a counted
    page and different from the others. -/
def LiveAddressesSound (s : FlashStore) : Prop :=
  ∀ i < schFpMaxEntries, (s.stFlightplanTlb i).unixtime ≠ stFpNull →
    (s.stFlightplanTlb i).addr.toNat % fpContainerSize = 0 ∧
    s.stFlightplanBaseAddr ≤ (s.stFlightplanTlb i).addr.toNat ∧
    (s.stFlightplanTlb i).addr.toNat + fpContainerSize ≤
      s.stFlightplanBaseAddr + schSizePerSection ∧
    ((s.stFlightplanTlb i).addr.toNat - s.stFlightplanBaseAddr) / fpContainerSize <
      usedPages s.stFlightplanTlb ∧
    ∀ j < schFpMaxEntries, (s.stFlightplanTlb j).unixtime ≠ stFpNull → i ≠ j →
      (s.stFlightplanTlb i).addr ≠ (s.stFlightplanTlb j).addr

theorem Sound.live_addresses (sound : Sound dev.endian short s) : LiveAddressesSound s := by
  intro i inside live
  obtain ⟨n, below, place⟩ := sound.counted i inside live
  have small : n < commandsPerSection := Nat.lt_of_lt_of_le below sound.few
  have positive : 0 < fpContainerSize := by decide
  have base : flightplanBase % fpContainerSize = 0 := by decide
  have page := page_in_section small
  rw [place, pageOf_toNat small, sound.baseEq]
  refine ⟨?_, by omega, by omega, ?_, ?_⟩
  · rw [Nat.add_mul_mod_self_right, base]
  · rw [Nat.add_sub_cancel_left, Nat.mul_div_cancel _ positive]
    exact below
  · intro j bound taken ne
    rw [← place]
    exact sound.distinct i inside j bound live taken ne

theorem Sound.call_defined (works : Reliable dev) (sound : Sound dev.endian Fits s)
    {call : FlashCall}
    (room : accepted s call → usedPages s.stFlightplanTlb < commandsPerSection) :
    (stepCall dev s call).isSome := by
  by_cases lookup : ∃ t, call = .getArgs t
  · obtain ⟨t, rfl⟩ := lookup
    obtain ⟨res, eq, -⟩ := (lookup_exact works sound).byTime t
    cases res <;> simp [stepCall, eq]
  · refine stepCall_defined dev sound.toInitialised sound.few (fun t eq => lookup ⟨t, eq⟩) ?_
    intro valid _
    exact Nat.ne_of_lt (room valid)

/-- After any run of set, get and delete calls on a reset table, the live
    addresses are sound, no page was programmed twice, and a lookup finds the
    entries that were set and not deleted. The run can go on with any call
    until all pages are used. -/
theorem flash_table_correct {s₀ : FlashStore} {history : List (FlashCall × Int32)}
    (works : Reliable dev) (init : Initialised s)
    (reset : storageFlightPlanReset dev s = some (rc, s₀)) (run : Run dev s₀ history s') :
    LiveAddressesSound s' ∧ successfulSets history ≤ commandsPerSection ∧
      (∃ ops, s'.log = ops ++ s₀.log ∧ ProgramsOnce s₀.log ops) ∧
      (∃ table, Pending history table ∧ LookupExact dev s' table) ∧
      ∀ call, (accepted s' call → successfulSets history < commandsPerSection) →
        (stepCall dev s' call).isSome := by
  have known := explains_run works (explains_reset works init reset) run
  have sound := known.sound
  refine ⟨sound.live_addresses, known.used ▸ sound.few, known.once, ?_, ?_⟩
  · obtain ⟨table, pending, same⟩ := known.pending
    exact ⟨table, pending, (lookup_exact works sound).congr same⟩
  · intro call room
    exact sound.call_defined works fun valid => known.used ▸ room valid

theorem idealDevice_reliable : Reliable idealDevice := ⟨fun _ => rfl, fun _ _ => rfl⟩

def pingRow : FpEntry := ⟨10, 1, 0, 1, some pingText, some noText⟩

theorem ping_fits : Fits pingText ∧ Fits noText := by
  unfold Fits
  decide

theorem boot_reset (works : Reliable dev) (media : Media) (short : CString → Prop) :
    ∃ s s₀, datRepoInit dev (powerOn media []) 1 = some s ∧ Initialised s ∧
      storageFlightPlanReset dev s = some (schStOk, s₀) ∧ Sound dev.endian short s₀ ∧
      AllFree s₀.stFlightplanTlb ∧ usedPages s₀.stFlightplanTlb = 0 := by
  obtain ⟨s, boot, init⟩ := datRepoInit_initialised dev media [] 1
  exact ⟨s, resetStore dev.endian s, boot, init, storageFlightPlanReset_reliable works.writes init,
    sound_reset init, fun i inside => clearedTlb_free inside, usedPages_cleared⟩

theorem set_ping (works : Reliable dev) (sound : Sound dev.endian short s)
    (free : AllFree s.stFlightplanTlb) (room : usedPages s.stFlightplanTlb < commandsPerSection) :
    stepCall dev s setPing =
      some (schStOk, insertedStore dev.endian s 0 pingRow pingText noText) :=
  (storageFlightPlanSet_eq sound.toInitialised sound.few (by decide) pingText noText 1 0 1).trans
    (insertEntry_reliable works sound.toInitialised pingRow rfl rfl (findIndex_allFree free) room)

theorem boot_ping (works : Reliable dev) (media : Media) :
    ∃ s s₀ s₁, datRepoInit dev (powerOn media []) 1 = some s ∧ Initialised s ∧
      storageFlightPlanReset dev s = some (schStOk, s₀) ∧
      stepCall dev s₀ setPing = some (schStOk, s₁) ∧ Sound dev.endian Fits s₁ ∧
      entrySlot dev.endian s₁ 0 = some pingRow := by
  obtain ⟨s, s₀, boot, init, reset, sound, free, empty⟩ := boot_reset works media Fits
  have room : usedPages s₀.stFlightplanTlb < commandsPerSection := by
    rw [empty]
    decide
  have inside : 0 < schFpMaxEntries := by decide
  refine ⟨s, s₀, _, boot, init, reset, set_ping works sound free room,
    sound_inserted sound inside room ping_fits.1 ping_fits.2, ?_⟩
  rw [entrySlot_inserted sound inside room (show pingRow.unixtime ≠ stFpNull by decide) rfl rfl
    ping_fits inside,
    Function.update_self]

theorem flash_table_correct_of_ping :
    ∃ s rc s₀ s₁ s₂ s₃, datRepoInit idealDevice (powerOn blankMedia []) 1 = some s ∧
      storageFlightPlanReset idealDevice s = some (rc, s₀) ∧
      stepCall idealDevice s₀ setPing = some (schStOk, s₁) ∧
      stepCall idealDevice s₁ (.getArgs 10) = some (schStOk, s₂) ∧
      stepCall idealDevice s₂ (.deleteRow 10) = some (schStOk, s₃) ∧
      ∃ table, Pending [(.deleteRow 10, schStOk), (.getArgs 10, schStOk), (setPing, schStOk)]
        table ∧ LookupExact idealDevice s₃ table := by
  have works := idealDevice_reliable
  obtain ⟨s, s₀, s₁, boot, init, reset, set, sound₁, entry⟩ := boot_ping works blankMedia
  have inside : 0 < schFpMaxEntries := by decide
  obtain ⟨res, answer, found, -⟩ := (lookup_exact works sound₁).byTime 10
  have ok : res.toOption.isSome := found.mpr ⟨0, inside, pingRow, entry, rfl⟩
  have get : stepCall idealDevice s₁ (.getArgs 10) = some (schStOk, s₁) := by
    cases res with
    | error rc => simp [Except.toOption] at ok
    | ok out => simp [stepCall, answer]
  have scan : storageFlightplanFindIndexTlb s₁ 10 = some 0 := by
    rw [sound₁.find_time (by decide)]
    exact first_eq_some_iff.mpr ⟨inside, by rw [entry]; decide, by simp⟩
  have delete : stepCall idealDevice s₁ (.deleteRow 10) =
      some (schStOk, clearedStore idealDevice.endian s₁ 0) := by
    rw [stepCall, deleteRow_found sound₁.toInitialised scan, eraseSlot_reliable works]
  have texts : Texts Fits setPing := by
    simp [Texts, setPing, ping_fits]
  have run := ((Run.start.call (by decide) texts set).call (by decide)
    (show Texts Fits (.getArgs 10) from trivial) get).call (by decide)
    (show Texts Fits (.deleteRow 10) from trivial) delete
  exact ⟨s, _, s₀, s₁, s₁, _, boot, reset, set, get, delete,
    (flash_table_correct works init reset run).2.2.2.1⟩

end FlashTable
