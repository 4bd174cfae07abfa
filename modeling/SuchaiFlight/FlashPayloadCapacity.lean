import SuchaiFlight.FlashPayloadBounds
import SuchaiFlight.FreeSlotSentinel

/-!
How many samples a payload of the FLASH back end takes when no operation of the
devices fails. The index only moves on when a sample is written, so the first
place that is refused is the last one that is tried.
-/
namespace FlashPayloadCapacity
open ByteMemory NonVolatile StorageApi RepoData PayloadData PayloadCalls FlashStorage
open FlashOperations FlashPayload FlashPayloadBounds FlashSections FlashTable SignedWord

variable {dev : Device} {c : Config} {m : PayloadMap} {s : FlashStore} {n p size i : Nat}

def capacity (size : Nat) : Nat := samplesPerPage size * pagesInSection * schSectionsPerPayload

def Fills (dev : Device) (c : Config) (m : PayloadMap) (p : Nat) :
    FlashStore → Nat → List (List UInt8) → Prop
  | _, _, [] => True
  | s, i, data :: rest => ∃ s',
      datAddPayloadSample (flashPayloadTables dev).toPayloadStorage c m.toDataMap s data p =
        some (0, s') ∧
      datGetSystemVar (flashStorage dev) c s' (m.sysIndex p) = some (Int32.ofNat (i + 1)) ∧
      Fills dev c m p s' (i + 1) rest

/-! The index is written and read back, however the addresses of the copies
    wrap around. -/

def HoldsAt (dev : Device) (s : FlashStore) (k : Nat) (value : UInt32) : Prop :=
  read s.media.fram (k * 4 % UInt16.size) 4 = wordBytes dev.endian value

theorem readStatusCopy_holds (works : Reliable dev) {k : Nat} {value : UInt32}
    (holds : HoldsAt dev s k value) :
    readStatusCopy (flashStorage dev) s k = some value := by
  have bytes : bytesWord dev.endian (read s.media.fram (k * 4 % UInt16.size) 4) = value := by
    rw [holds, bytesWord_wordBytes]
  simp [readStatusCopy, flashStorage, storageStatusGetValueIdx, storageReadFram, works.reads,
    bytes, Except.toOption]

theorem copy_written (works : Reliable dev) (s : FlashStore) (k : Nat) (value : UInt32) :
    ∃ s', storageStatusSetValueIdx dev s k value = some (schStOk, s') ∧
      FreeSlotSentinel.SameRam s s' ∧ HoldsAt dev s' k value ∧
      ∀ j, HoldsAt dev s j value → HoldsAt dev s' j value := by
  refine ⟨_, by rw [storageStatusSetValueIdx, storageWriteFram, nvOperation_reliable works.writes],
    ⟨_, _, rfl⟩, ?_, ?_⟩
  · have same := read_write_same s.media.fram (k * 4 % UInt16.size) (wordBytes dev.endian value)
    rw [wordBytes_length] at same
    exact same
  · intro j holds
    have same := read_write_same s.media.fram (k * 4 % UInt16.size) (wordBytes dev.endian value)
    rw [wordBytes_length] at same
    by_cases eq : j * 4 % UInt16.size = k * 4 % UInt16.size
    · rw [HoldsAt, eq]
      exact same
    · rw [HoldsAt, NvOp.apply, read_write_disjoint]
      · exact holds
      · rw [wordBytes_length]
        simp only [UInt16.size] at eq ⊢
        omega

theorem systemVar_written (works : Reliable dev) (s : FlashStore) (index : Nat) (value : Int32) :
    ∃ s', datSetSystemVar (flashStorage dev) c s index value = some (schStOk, s') ∧
      FreeSlotSentinel.SameRam s s' ∧
      datGetSystemVar (flashStorage dev) c s' index = some value := by
  obtain ⟨s₁, set₁, same₁, holds₁, -⟩ := copy_written works s index value.toUInt32
  have read {t : FlashStore} {k : Nat} (holds : HoldsAt dev t k value.toUInt32) :=
    readStatusCopy_holds works holds
  cases triple : c.schStorageTripleWr with
  | false =>
    refine ⟨s₁, ?_, same₁, ?_⟩
    · simp [datSetSystemVar, datSetStatusVar, triple, flashStorage, set₁]
    · simp [datGetSystemVar, datGetStatusVar, triple, read holds₁]
  | true =>
    obtain ⟨s₂, set₂, same₂, holds₂, keep₂⟩ :=
      copy_written works s₁ (index + c.datStatusLastAddress) value.toUInt32
    obtain ⟨s₃, set₃, same₃, holds₃, keep₃⟩ :=
      copy_written works s₂ (index + c.datStatusLastAddress * 2) value.toUInt32
    have first := read (keep₃ _ (keep₂ _ holds₁))
    have second := read (keep₃ _ holds₂)
    have third := read holds₃
    rw [← c.lastVar_eq] at second third
    refine ⟨s₃, ?_, (same₁.trans same₂).trans same₃, ?_⟩
    · simp [datSetSystemVar, datSetStatusVar, triple, flashStorage, set₁, set₂, set₃, schStOk]
    · simp [datGetSystemVar, datGetStatusVar, triple, first, second, third]

/-! One sample. -/

def Accepts (n p size i : Nat) : Prop :=
  i % samplesPerPage size * size + size < stPageSize ∧
    p * schSectionsPerPayload + 2 * sectionOf size i < n * schSectionsPerPayload

instance (n p size i : Nat) : Decidable (Accepts n p size i) := inferInstanceAs (Decidable (_ ∧ _))

theorem refused_iff (filled : 0 < size) (fits : size ≤ stPageSize) :
    flightplanBase + n * schSectionsPerPayload * schSizePerSection < place size p i ↔
      n * schSectionsPerPayload ≤ p * schSectionsPerPayload + 2 * sectionOf size i := by
  obtain ⟨low, high⟩ := place_doubled filled fits p i
  have bases : payloadBase = 2 * schSizePerSection ∧ flightplanBase = 1 * schSizePerSection :=
    ⟨rfl, rfl⟩
  rw [bases.1, ← Nat.add_mul] at low high
  rw [bases.2, ← Nat.add_mul]
  constructor
  · intro refused
    -- both numbers of sections are even, so they cannot differ by one
    have fewer : 1 + n * schSectionsPerPayload <
        2 + (p * schSectionsPerPayload + 2 * sectionOf size i + 1) :=
      Nat.lt_of_mul_lt_mul_right (refused.trans_le ((Nat.le_add_right _ _).trans high))
    simp only [schSectionsPerPayload] at fewer ⊢
    omega
  · intro more
    refine Nat.lt_of_lt_of_le (Nat.mul_lt_mul_of_pos_right ?_ (by decide)) low
    omega

theorem place_in_page (size p i : Nat) :
    place size p i = (1024 + (p * schSectionsPerPayload + sectionOf size i) * pagesInSection +
      i / samplesPerPage size) * stPageSize + i % samplesPerPage size * size := by
  have base : payloadBase = 1024 * stPageSize := rfl
  have pages : schSizePerSection = pagesInSection * stPageSize := rfl
  rw [place, base, pages, ← Nat.mul_assoc, ← Nat.add_mul, ← Nat.add_mul]

theorem checkAddressAlignment_place (filled : 0 < size) (fits : size ≤ stPageSize)
    (small : place size p i + size < 4294967296) :
    checkAddressAlignment (UInt32.ofNat (place size p i)) size =
      if i % samplesPerPage size * size + size < stPageSize then schStOk else schStError := by
  have inside := inside_page filled fits i
  have value : (UInt32.ofNat (place size p i)).toNat = place size p i := by
    rw [UInt32.toNat_ofNat', Nat.mod_eq_of_lt (by omega)]
  have ending : (UInt32.ofNat (place size p i) + UInt32.ofNat size).toNat =
      place size p i + size := by
    rw [← UInt32.ofNat_add, UInt32.toNat_ofNat', Nat.mod_eq_of_lt small]
  rw [checkAddressAlignment, value, ending, place_in_page]
  generalize 1024 + (p * schSectionsPerPayload + sectionOf size i) * pagesInSection +
    i / samplesPerPage size = page
  generalize i % samplesPerPage size * size = offset at inside
  have crosses : (page * stPageSize + offset) / stPageSize <
      (page * stPageSize + offset + size) / stPageSize ↔ ¬ offset + size < stPageSize := by
    simp only [stPageSize] at inside ⊢
    omega
  by_cases early : offset + size < stPageSize
  · rw [if_pos early, if_neg (mt crosses.mp (not_not.mpr early))]
  · rw [if_neg early, if_pos (crosses.mpr early)]

theorem sectionOf_lt (below : i < capacity size) : sectionOf size i < schSectionsPerPayload := by
  rw [sectionOf, Nat.div_div_eq_div_mul]
  exact Nat.div_lt_of_lt_mul below

theorem storageWriteFlash_reliable (works : Reliable dev) (s : FlashStore) (addr : UInt32)
    (data : List UInt8) :
    ∃ s', storageWriteFlash dev s addr data = (schStOk, s') ∧ FreeSlotSentinel.SameRam s s' := by
  exact ⟨_, by rw [storageWriteFlash, nvOperation_reliable works.writes], _, _, rfl⟩

theorem storagePayloadSetData_spec (works : Reliable dev) (sectioned : Sectioned n s)
    (filled : 0 < size) (fits : size ≤ stPageSize) (known : p < n)
    (below : i < capacity size) {data : List UInt8} (whole : size ≤ data.length) :
    ∃ s', storagePayloadSetData dev s p (Int32.ofNat i) data size =
        some (if Accepts n p size i then schStOk else schStError, s') ∧
      FreeSlotSentinel.SameRam s s' := by
  have same : FreeSlotSentinel.SameRam s s := ⟨s.media, s.log, rfl⟩
  have near := sectionOf_lt below
  have int : i < 2147483648 := by
    have pages : samplesPerPage size ≤ stPageSize := Nat.div_le_self _ _
    simp only [capacity, pagesInSection, schSectionsPerPayload, schSizePerSection,
      stPageSize] at below pages
    omega
  have beyond : ¬ n * schSectionsPerPayload ≤ p * schSectionsPerPayload + sectionOf size i := by
    simp only [schSectionsPerPayload] at near ⊢
    omega
  have address := getSampleAddress_eq sectioned filled fits known int
  rw [if_neg (by omega), if_neg beyond] at address
  have ready : (!s.storageIsOpen || s.stPayloadAddr.isNone) = false := by
    simp [sectioned.isOpen, sectioned.addrEq]
  by_cases refused : n * schSectionsPerPayload ≤ p * schSectionsPerPayload + 2 * sectionOf size i
  · rw [if_pos ((refused_iff filled fits).mpr refused)] at address
    refine ⟨s, ?_, same⟩
    rw [if_neg fun accepts => (accepts.2.trans_le refused).false]
    simp [storagePayloadSetData, ready, address]
  have accepted := mt (refused_iff (p := p) filled fits).mp refused
  rw [if_neg accepted] at address
  have small : place size p i + size < 4294967296 := by
    have bound := sectioned.small
    have bases : flightplanBase ≤ payloadBase := by decide
    simp only [stPageSize] at fits
    omega
  have aligned := checkAddressAlignment_place (p := p) (i := i) filled fits small
  by_cases early : i % samplesPerPage size * size + size < stPageSize
  · rw [if_pos early] at aligned
    obtain ⟨s', write, same'⟩ := storageWriteFlash_reliable works s
      (UInt32.ofNat (place size p i)) (data.take size)
    have zero : schStOk = 0 := rfl
    have apart : (0 : Int32) ≠ schStError := by decide
    refine ⟨s', ?_, same'⟩
    rw [if_pos ⟨early, by omega⟩]
    simp [storagePayloadSetData, ready, address, whole, writeDataWithCheck, aligned, write, apart,
      zero]
  · rw [if_neg early] at aligned
    refine ⟨s, ?_, same⟩
    rw [if_neg fun accepts => early accepts.1]
    simp [storagePayloadSetData, ready, address, whole, writeDataWithCheck, aligned]

theorem sameRam_sectioned {s' : FlashStore} (same : FreeSlotSentinel.SameRam s s')
    (sectioned : Sectioned n s) : Sectioned n s' := by
  obtain ⟨media, log, rfl⟩ := same
  exact ⟨sectioned.isOpen, sectioned.baseEq, sectioned.addrEq, sectioned.entries, sectioned.small⟩

theorem datAddPayloadSample_accepts (works : Reliable dev) (sectioned : Sectioned m.lastSensor s)
    (filled : 0 < m.size p) (fits : m.size p ≤ stPageSize) (known : p < m.lastSensor)
    (index : datGetSystemVar (flashStorage dev) c s (m.sysIndex p) = some (Int32.ofNat i))
    (below : i < capacity (m.size p)) {data : List UInt8} (log : 4 ≤ data.length)
    (whole : m.size p ≤ data.length) :
    ∃ s', datAddPayloadSample (flashPayloadTables dev).toPayloadStorage c m.toDataMap s data p =
        some (if Accepts m.lastSensor p (m.size p) i then 0 else -1, s') ∧
      Sectioned m.lastSensor s' ∧ (Accepts m.lastSensor p (m.size p) i →
        datGetSystemVar (flashStorage dev) c s' (m.sysIndex p) = some (Int32.ofNat (i + 1))) := by
  have size : m.size p ≤ (data.take (m.size p)).length := (List.length_take_of_le whole).ge
  obtain ⟨s₁, set, same₁⟩ := storagePayloadSetData_spec (n := m.lastSensor) works sectioned filled
    fits known below size
  have set : (flashPayloadTables dev).storagePayloadSetData s p (Int32.ofNat i)
      (data.take (m.size p)) (m.size p) = _ := set
  have read : datGetSystemVar (flashPayloadTables dev).toStorage c s (m.sysIndex p) = _ := index
  unfold datAddPayloadSample
  rw [if_pos ⟨known, log, whole⟩]
  by_cases accepts : Accepts m.lastSensor p (m.size p) i
  · obtain ⟨s₂, next, same₂, index₂⟩ :=
      systemVar_written (c := c) works s₁ (m.sysIndex p) (Int32.ofNat (i + 1))
    have next : datSetSystemVar (flashPayloadTables dev).toStorage c s₁ _ _ = _ := next
    refine ⟨s₂, ?_, sameRam_sectioned (same₁.trans same₂) sectioned, fun _ => index₂⟩
    rw [if_pos accepts] at set
    have ok : schStOk ≤ schStOk := by decide
    simp only [read, Option.bind_eq_bind, Option.bind_some, set, if_pos ok, ofNat_add_one, next,
      if_pos accepts]
    rfl
  · refine ⟨s₁, ?_, sameRam_sectioned same₁ sectioned, fun yes => absurd yes accepts⟩
    have error : ¬ schStOk ≤ schStError := by decide
    rw [if_neg accepts] at set
    simp only [read, Option.bind_eq_bind, Option.bind_some, set, if_neg error, if_neg accepts]
    rfl

/-! The whole payload. -/

theorem fills_iff (works : Reliable dev) (sectioned : Sectioned m.lastSensor s)
    (filled : 0 < m.size p) (fits : m.size p ≤ stPageSize) (known : p < m.lastSensor)
    (index : datGetSystemVar (flashStorage dev) c s (m.sysIndex p) = some (Int32.ofNat i))
    {buffers : List (List UInt8)} (room : i + buffers.length ≤ capacity (m.size p))
    (whole : ∀ b ∈ buffers, m.size p ≤ b.length) :
    Fills dev c m p s i buffers ↔ (∀ b ∈ buffers, 4 ≤ b.length) ∧
      ∀ k < buffers.length, Accepts m.lastSensor p (m.size p) (i + k) := by
  induction buffers generalizing s i with
  | nil => simp [Fills]
  | cons data rest ih =>
    rw [List.length_cons] at room
    have here : m.size p ≤ data.length := whole data List.mem_cons_self
    have later : ∀ b ∈ rest, m.size p ≤ b.length := fun b mem =>
      whole b (List.mem_cons_of_mem data mem)
    by_cases log : 4 ≤ data.length
    · obtain ⟨s', call, sectioned', moved⟩ := datAddPayloadSample_accepts works sectioned filled
        fits known index (by omega) log here
      constructor
      · rintro ⟨s₁, taken, index₁, more⟩
        rw [call] at taken
        have accepts : Accepts m.lastSensor p (m.size p) i := by
          by_contra refused
          rw [if_neg refused] at taken
          cases taken
        rw [if_pos accepts] at taken
        cases taken
        obtain ⟨long, tail⟩ := (ih sectioned' index₁ (by omega) later).mp more
        refine ⟨by simpa [log] using long, fun k bound => ?_⟩
        cases k with
        | zero => exact accepts
        | succ k =>
          rw [Nat.add_comm k 1, ← Nat.add_assoc]
          exact tail k (Nat.lt_of_succ_lt_succ bound)
      · rintro ⟨long, tail⟩
        have accepts := tail 0 (Nat.succ_pos _)
        rw [Nat.add_zero] at accepts
        rw [if_pos accepts] at call
        refine ⟨s', call, moved accepts, (ih sectioned' (moved accepts) (by omega) later).mpr ⟨
          fun b mem => long b (List.mem_cons_of_mem data mem), fun k bound => ?_⟩⟩
        rw [Nat.add_assoc, Nat.add_comm 1 k]
        exact tail (k + 1) (Nat.succ_lt_succ bound)
    · constructor
      · rintro ⟨s₁, taken, -⟩
        rw [datAddPayloadSample, if_neg fun ready => log ready.2.1] at taken
        cases taken
      · rintro ⟨long, -⟩
        exact absurd (long data List.mem_cons_self) log

theorem all_accepted_iff (filled : 0 < size) (fits : size ≤ stPageSize) :
    (∀ k < capacity size, Accepts n p size k) ↔ stPageSize % size ≠ 0 ∧ p + 1 < n := by
  have pos := samplesPerPage_pos filled fits
  have split : samplesPerPage size * size + stPageSize % size = stPageSize := by
    rw [samplesPerPage, Nat.mul_comm]
    exact Nat.div_add_mod _ _
  have last : (samplesPerPage size - 1) * size + size = samplesPerPage size * size := by
    rw [← Nat.succ_mul, Nat.succ_eq_add_one, Nat.sub_add_cancel pos]
  constructor
  · intro all
    have pages : samplesPerPage size ≤ capacity size := by
      rw [capacity, Nat.mul_assoc]
      exact Nat.le_mul_of_pos_right _ (by decide)
    have ending := (all (samplesPerPage size - 1) (by omega)).1
    have far := (all (9 * (samplesPerPage size * pagesInSection)) ?_).2
    · rw [Nat.mod_eq_of_lt (by omega), last] at ending
      have nine : sectionOf size (9 * (samplesPerPage size * pagesInSection)) = 9 := by
        rw [sectionOf, Nat.div_div_eq_div_mul]
        exact Nat.mul_div_cancel _ (Nat.mul_pos pos (by decide))
      rw [nine] at far
      simp only [schSectionsPerPayload] at far
      omega
    · have section_pos : 0 < samplesPerPage size * pagesInSection := Nat.mul_pos pos (by decide)
      simp only [capacity, schSectionsPerPayload]
      omega
  · rintro ⟨rest, inner⟩ k below
    constructor
    · have within := Nat.mod_lt k pos
      have bound := Nat.mul_le_mul_right size (Nat.le_sub_one_of_lt within)
      omega
    · have near := sectionOf_lt below
      simp only [schSectionsPerPayload] at near ⊢
      omega

theorem flash_payload_fills_iff (works : Reliable dev) (sectioned : Sectioned m.lastSensor s)
    (filled : 0 < m.size p) (fits : m.size p ≤ stPageSize) (known : p < m.lastSensor)
    (start : datGetSystemVar (flashStorage dev) c s (m.sysIndex p) = some 0)
    {buffers : List (List UInt8)} (full : buffers.length = capacity (m.size p))
    (whole : ∀ b ∈ buffers, m.size p ≤ b.length) :
    Fills dev c m p s 0 buffers ↔
      (∀ b ∈ buffers, 4 ≤ b.length) ∧ stPageSize % m.size p ≠ 0 ∧ p + 1 < m.lastSensor := by
  rw [fills_iff (i := 0) works sectioned filled fits known start (by omega) whole, full,
    ← all_accepted_iff filled fits]
  simp only [Nat.zero_add]

def Emptied (dev : Device) (c : Config) (m : PayloadMap) (p : Nat) (s : FlashStore) : Prop :=
  ∃ s₀ s₁, FlashStorage.datRepoInit dev (powerOn blankMedia []) m.lastSensor = some s₀ ∧
    storagePayloadResetTable dev s₀ p = some (schStOk, s₁) ∧
    datSetSystemVar (flashStorage dev) c s₁ (m.sysIndex p) 0 = some (schStOk, s)

theorem exists_emptied (works : Reliable dev) (c : Config) (m : PayloadMap)
    (known : p < m.lastSensor)
    (small : payloadBase + m.lastSensor * schSectionsPerPayload * schSizePerSection ≤ 2147483648) :
    ∃ s, Emptied dev c m p s ∧ Sectioned m.lastSensor s ∧
      datGetSystemVar (flashStorage dev) c s (m.sysIndex p) = some 0 := by
  obtain ⟨s₀, boot, sectioned⟩ := datRepoInit_sectioned dev blankMedia [] small
  have inside : ¬ (s₀.stPayloadsEntries : Int) ≤ p := by
    rw [sectioned.entries]
    omega
  have sign : ¬ (p : Int) < 0 := by omega
  have reset : ∃ s₁, storagePayloadResetTable dev s₀ p = some (schStOk, s₁) ∧
      FreeSlotSentinel.SameRam s₀ s₁ := by
    have erased : FreeSlotSentinel.SameRam s₀ (eraseSections dev payloadSection s₀
        (List.range' (p * schSectionsPerPayload) schSectionsPerPayload)).2 :=
      FreeSlotSentinel.eraseSections_sameRam _ _
    refine ⟨_, ?_, erased⟩
    simp [storagePayloadResetTable, sectioned.isOpen, inside, sectioned.addrEq, sign]
  obtain ⟨s₁, reset, same₁⟩ := reset
  obtain ⟨s, set, same, index⟩ := systemVar_written (c := c) works s₁ (m.sysIndex p) 0
  exact ⟨s, ⟨s₀, s₁, boot, reset, set⟩, sameRam_sectioned (same₁.trans same) sectioned, index⟩

def pairedSamples : PayloadMap := { pageSamples with size := fun _ => 200 }

theorem flash_payload_fills_paired :
    ∃ s, Emptied idealDevice simpleConfig pairedSamples 1 s ∧
      Fills idealDevice simpleConfig pairedSamples 1 s 0
        (List.replicate 10240 (List.replicate 200 7)) := by
  obtain ⟨s, emptied, sectioned, index⟩ := exists_emptied (p := 1) idealDevice_reliable
    simpleConfig pairedSamples (by decide) (by decide)
  have each : ∀ b ∈ List.replicate 10240 (List.replicate 200 (7 : UInt8)), b.length = 200 := by
    intro b mem
    rw [List.eq_of_mem_replicate mem, List.length_replicate]
  refine ⟨s, emptied, (flash_payload_fills_iff idealDevice_reliable sectioned (by decide) (by decide)
    (by decide) index (List.length_replicate.trans (by decide)) fun b mem => (each b mem).ge).mpr
    ⟨fun b mem => ?_, by decide, by decide⟩⟩
  rw [each b mem]
  decide

theorem page_samples_refused :
    ∃ s, Emptied idealDevice simpleConfig pageSamples 0 s ∧
      (∀ data : List UInt8, data.length = 512 → ∃ s',
        datAddPayloadSample (flashPayloadTables idealDevice).toPayloadStorage simpleConfig
          pageSamples.toDataMap s data 0 = some (-1, s')) ∧
      ¬ Fills idealDevice simpleConfig pageSamples 0 s 0
        (List.replicate 5120 (List.replicate 512 7)) := by
  obtain ⟨s, emptied, sectioned, index⟩ := exists_emptied (p := 0) idealDevice_reliable
    simpleConfig pageSamples (by decide) (by decide)
  have refused {data : List UInt8} (size : data.length = 512) : ∃ s',
      datAddPayloadSample (flashPayloadTables idealDevice).toPayloadStorage simpleConfig
        pageSamples.toDataMap s data 0 = some (-1, s') := by
    have long : 4 ≤ data.length := by
      rw [size]
      decide
    obtain ⟨s', call, -⟩ := datAddPayloadSample_accepts (i := 0) idealDevice_reliable sectioned
      (p := 0) (by decide) (by decide) (by decide) index (by decide) long size.ge
    rw [if_neg (by decide)] at call
    exact ⟨s', call⟩
  refine ⟨s, emptied, fun data size => refused size, ?_⟩
  rintro ⟨s₁, taken, -⟩
  have full : (List.replicate 512 (7 : UInt8)).length = 512 := List.length_replicate
  obtain ⟨s', call⟩ := refused full
  have same := taken.symm.trans call
  simp at same

end FlashPayloadCapacity
