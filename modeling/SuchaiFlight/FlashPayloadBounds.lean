import SuchaiFlight.FlashPayload
import SuchaiFlight.FlashSections

/-!
Where the FLASH back end puts the samples of a payload. The base address of
section `k` of a payload is counted again by the number of pages before it, so
the samples of that section stand `k` sections further on.
-/
namespace FlashPayloadBounds
open ByteMemory NonVolatile StorageApi PayloadData PayloadCalls FlashStorage FlashOperations
open FlashPayload FlashSections

def samplesPerPage (size : Nat) : Nat := stPageSize / size

def pagesInSection : Nat := schSizePerSection / stPageSize

theorem flightplanBase_eq : flightplanBase = 262144 := rfl

theorem payloadBase_eq : payloadBase = 524288 := rfl

def sectionOf (size i : Nat) : Nat := i / samplesPerPage size / pagesInSection

def place (size p i : Nat) : Nat :=
  payloadBase + (p * schSectionsPerPayload + sectionOf size i) * schSizePerSection +
    i / samplesPerPage size * stPageSize + i % samplesPerPage size * size

variable {s : FlashStore} {n p q i j size : Nat}

theorem samplesPerPage_pos (filled : 0 < size) (fits : size ≤ stPageSize) :
    0 < samplesPerPage size := Nat.div_pos fits filled

theorem inside_page (filled : 0 < size) (fits : size ≤ stPageSize) (i : Nat) :
    i % samplesPerPage size * size + size ≤ stPageSize := by
  have within := Nat.mod_lt i (samplesPerPage_pos filled fits)
  have bound := Nat.mul_le_mul_right size (Nat.succ_le_of_lt within)
  have whole := Nat.div_mul_le_self stPageSize size
  unfold samplesPerPage at within bound ⊢
  rw [Nat.succ_mul] at bound
  omega

theorem page_of_section (size i : Nat) :
    sectionOf size i * pagesInSection ≤ i / samplesPerPage size ∧
      i / samplesPerPage size < (sectionOf size i + 1) * pagesInSection := by
  have split := Nat.div_add_mod (i / samplesPerPage size) pagesInSection
  have less := Nat.mod_lt (i / samplesPerPage size) (show 0 < pagesInSection by decide)
  unfold sectionOf
  rw [Nat.add_mul, Nat.one_mul, Nat.mul_comm]
  omega

theorem place_doubled (filled : 0 < size) (fits : size ≤ stPageSize) (p i : Nat) :
    payloadBase + (p * schSectionsPerPayload + 2 * sectionOf size i) * schSizePerSection ≤
        place size p i ∧
      place size p i + size ≤
        payloadBase + (p * schSectionsPerPayload + 2 * sectionOf size i + 1) *
          schSizePerSection := by
  obtain ⟨low, high⟩ := page_of_section size i
  have inside := inside_page filled fits i
  simp only [pagesInSection, schSizePerSection, stPageSize] at low high inside
  simp only [place, schSectionsPerPayload, schSizePerSection, stPageSize]
  omega

theorem place_apart (filled : 0 < size) (fits : size ≤ stPageSize) (p : Nat) (before : i < j) :
    place size p i + size ≤ place size p j := by
  have inside := inside_page filled fits i
  have pages : i / samplesPerPage size ≤ j / samplesPerPage size :=
    Nat.div_le_div_right before.le
  have sections : sectionOf size i ≤ sectionOf size j := Nat.div_le_div_right pages
  have spliti := Nat.div_add_mod i (samplesPerPage size)
  have splitj := Nat.div_add_mod j (samplesPerPage size)
  simp only [stPageSize] at inside
  simp only [place, schSectionsPerPayload, schSizePerSection, stPageSize]
  rcases Nat.lt_or_eq_of_le pages with earlier | same
  · omega
  · have same_section : sectionOf size i = sectionOf size j := by
      rw [sectionOf, sectionOf, same]
    rw [same] at spliti
    have offset := Nat.mul_le_mul_right size
      (show i % samplesPerPage size + 1 ≤ j % samplesPerPage size by omega)
    rw [Nat.succ_mul] at offset
    omega

theorem ofInt_natCast {x : Nat} (small : x < 4294967296) :
    UInt32.ofInt (x : Int) = UInt32.ofNat x := by
  unfold UInt32.ofInt
  congr 1
  omega

theorem payloadSection_toNat {k : Nat}
    (small : payloadBase + k * schSizePerSection < 4294967296) :
    (payloadSection k).toNat = payloadBase + k * schSizePerSection := by
  rw [payloadSection, UInt32.toNat_ofNat', Nat.mod_eq_of_lt small]

theorem getSampleAddress_eq (sectioned : Sectioned n s) (filled : 0 < size)
    (fits : size ≤ stPageSize) (known : p < n) (int : i < 2147483648) :
    getSampleAddress s p (Int32.ofNat i) size =
      if schSectionsPerPayload < sectionOf size i then some (.error schStError)
      else if n * schSectionsPerPayload ≤ p * schSectionsPerPayload + sectionOf size i then none
      else if flightplanBase + n * schSectionsPerPayload * schSizePerSection < place size p i then
        some (.error schStError)
      else some (.ok (UInt32.ofNat (place size p i))) := by
  have index : (Int32.ofNat i).toInt = i := Int32.toInt_ofNat_of_lt int
  have pos := samplesPerPage_pos filled fits
  have own : (i : Int).tdiv (stPageSize / size * (schSizePerSection / stPageSize) : Nat) =
      (sectionOf size i : Nat) := by
    rw [sectionOf, samplesPerPage, pagesInSection, Nat.div_div_eq_div_mul]
    rfl
  have page : (i : Int).tdiv (stPageSize / size : Nat) = (i / samplesPerPage size : Nat) := rfl
  have rest : (i : Int).tmod (stPageSize / size : Nat) = (i % samplesPerPage size : Nat) := rfl
  have no_zero : ¬ size = 0 := by omega
  have some_page : ¬ stPageSize / size = 0 := by
    unfold samplesPerPage at pos
    omega
  unfold getSampleAddress
  simp only [if_neg no_zero, if_neg some_page, index, own, page, rest, sectioned.addrEq,
    sectioned.entries, sectioned.baseEq, Option.bind_eq_bind, Option.bind_some]
  by_cases far : schSectionsPerPayload < sectionOf size i
  · rw [if_pos far, if_pos (Int.ofNat_lt.mpr far)]
  rw [if_neg far, if_neg (mt Int.ofNat_lt.mp far)]
  have number : (p : Int) * schSectionsPerPayload + (sectionOf size i : Nat) =
      (p * schSectionsPerPayload + sectionOf size i : Nat) := by
    rw [Int.natCast_add, Int.natCast_mul]
  have payload := Nat.mul_le_mul_right schSectionsPerPayload (Nat.succ_le_of_lt known)
  rw [Nat.succ_mul] at payload
  rw [number, if_neg (mt Int.ofNat_lt.mp (by omega))]
  by_cases beyond : n * schSectionsPerPayload ≤ p * schSectionsPerPayload + sectionOf size i
  · rw [Nat.mul_comm n] at beyond ⊢
    rw [if_pos beyond, if_pos (.inr (Int.ofNat_le.mpr beyond))]
  rw [if_neg beyond, Nat.mul_comm schSectionsPerPayload n, if_neg (by omega), Int.toNat_natCast]
  -- the section starts below 2^31, and at most ten sections are counted again
  have small := sectioned.small
  have twice := (place_doubled filled fits p i).2
  have bound : place size p i < 4294967296 := by
    simp only [schSectionsPerPayload, schSizePerSection] at small twice payload far
    omega
  have start : (payloadSection (p * schSectionsPerPayload + sectionOf size i)).toNat =
      payloadBase + (p * schSectionsPerPayload + sectionOf size i) * schSizePerSection := by
    apply payloadSection_toNat
    simp only [schSectionsPerPayload, schSizePerSection] at small beyond ⊢
    omega
  have sum : ((payloadBase + (p * schSectionsPerPayload + sectionOf size i) * schSizePerSection :
      Nat) : Int) + (i / samplesPerPage size : Nat) * (stPageSize : Nat) +
        (i % samplesPerPage size : Nat) * (size : Nat) = (place size p i : Nat) := by
    simp only [place, Int.natCast_add, Int.natCast_mul]
  rw [start, sum, ofInt_natCast bound, UInt32.toNat_ofNat', Nat.mod_eq_of_lt bound]
  have base : schFlashInitMemory + flightplanBase = flightplanBase := rfl
  rw [base]
  split <;> rfl

/-! What `storage_payload_reset_table` erases. -/

def base (p : Nat) : Nat := payloadBase + p * schSectionsPerPayload * schSizePerSection

def ErasedBy (dev : Device) (s : FlashStore) (p a : Nat) : Prop :=
  ∃ s' new, storagePayloadResetTable dev s p = some (schStOk, s') ∧ s'.log = new ++ s.log ∧
    ∃ addr size, NvOp.flashErase addr size ∈ new ∧ addr ≤ a ∧ a < addr + size

theorem eraseSections_log (dev : Device) (addrs : Nat → UInt32) (s : FlashStore)
    (sections : List Nat) :
    (eraseSections dev addrs s sections).2.log =
      (sections.map fun i => NvOp.flashErase ((addrs i).toNat / schSizePerSection *
        schSizePerSection) schSizePerSection).reverse ++ s.log := by
  induction sections generalizing s with
  | nil => rfl
  | cons i rest ih =>
    have one : (storageEraseFlash dev s (addrs i)).2.log =
        NvOp.flashErase ((addrs i).toNat / schSizePerSection * schSizePerSection)
          schSizePerSection :: s.log := by
      obtain ⟨media, eq⟩ := nvOperation_ram dev s (.flashErase ((addrs i).toNat /
        schSizePerSection * schSizePerSection) schSizePerSection)
      rw [storageEraseFlash, eq]
    simp only [eraseSections, ih, one, List.map_cons, List.reverse_cons, List.append_assoc,
      List.singleton_append]

theorem erasedBy_iff (dev : Device) (sectioned : Sectioned n s) (known : p < n) (a : Nat) :
    ErasedBy dev s p a ↔ base p ≤ a ∧ a < base (p + 1) := by
  have inside : ¬ (s.stPayloadsEntries : Int) ≤ p := by
    rw [sectioned.entries]
    omega
  have sign : ¬ (p : Int) < 0 := by omega
  have reset : storagePayloadResetTable dev s p = some (schStOk,
      (eraseSections dev payloadSection s
        (List.range' (p * schSectionsPerPayload) schSectionsPerPayload)).2) := by
    simp [storagePayloadResetTable, sectioned.isOpen, inside, sectioned.addrEq, sign]
  have log := eraseSections_log dev payloadSection s
    (List.range' (p * schSectionsPerPayload) schSectionsPerPayload)
  have small := sectioned.small
  -- the sections are aligned, so an erase covers the section that it is given
  have start : ∀ k < n * schSectionsPerPayload,
      (payloadSection k).toNat / schSizePerSection * schSizePerSection =
        payloadBase + k * schSizePerSection := by
    intro k bound
    have below : payloadBase + k * schSizePerSection < 4294967296 := by
      simp only [schSectionsPerPayload, schSizePerSection] at small bound ⊢
      omega
    rw [payloadSection_toNat below, show payloadBase = 2 * schSizePerSection from rfl,
      ← Nat.add_mul, Nat.mul_div_cancel _ (by decide)]
  constructor
  · rintro ⟨s', new, run, split, addr, size, mem, low, high⟩
    cases reset.symm.trans run
    rw [log, List.append_cancel_right_eq] at split
    rw [← split, List.mem_reverse, List.mem_map] at mem
    obtain ⟨k, within, eq⟩ := mem
    cases eq
    obtain ⟨first, last⟩ := List.mem_range'_1.mp within
    rw [start k (by simp only [schSectionsPerPayload] at last ⊢; omega)] at low high
    simp only [base, schSectionsPerPayload, schSizePerSection] at first last low high ⊢
    omega
  · rintro ⟨low, high⟩
    obtain ⟨k, within, begins, ends⟩ : ∃ k, (p * 10 ≤ k ∧ k < p * 10 + 10) ∧
        payloadBase + k * 262144 ≤ a ∧ a < payloadBase + k * 262144 + 262144 := by
      refine ⟨a / 262144 - 2, ?_⟩
      simp only [base, payloadBase_eq, schSectionsPerPayload, schSizePerSection] at low high ⊢
      omega
    refine ⟨_, _, reset, log, payloadBase + k * schSizePerSection, schSizePerSection, ?_, begins,
      ends⟩
    rw [List.mem_reverse, List.mem_map]
    refine ⟨k, List.mem_range'_1.mpr within, ?_⟩
    rw [start k (by simp only [schSectionsPerPayload]; omega)]

/-! Requests. -/

/-- The address has a result, and the bytes of an accepted sample are among
    those that a reset of the payload erases. -/
structure AddressSafe (dev : Device) (s : FlashStore) (p i size : Nat) : Prop where
  defined : getSampleAddress s p (Int32.ofNat i) size ≠ none
  inside : ∀ address, getSampleAddress s p (Int32.ofNat i) size = some (.ok address) →
    ∀ a, address.toNat ≤ a → a < address.toNat + size → ErasedBy dev s p a

def Kept (dev : Device) (s : FlashStore) (p i size q : Nat) : Prop :=
  ∀ address, getSampleAddress s p (Int32.ofNat i) size = some (.ok address) →
    ∀ a, address.toNat ≤ a → a < address.toNat + size → ¬ ErasedBy dev s q a

structure RequestsSafe (dev : Device) (m : PayloadMap) (s : FlashStore) (p q i j : Nat) : Prop where
  first : AddressSafe dev s p i (m.size p)
  second : AddressSafe dev s q j (m.size q)
  apart : (p, i) ≠ (q, j) → ∀ a b,
    getSampleAddress s p (Int32.ofNat i) (m.size p) = some (.ok a) →
    getSampleAddress s q (Int32.ofNat j) (m.size q) = some (.ok b) →
      a.toNat + m.size p ≤ b.toNat ∨ b.toNat + m.size q ≤ a.toNat
  keptFirst : p ≠ q → Kept dev s p i (m.size p) q
  keptSecond : p ≠ q → Kept dev s q j (m.size q) p

/-- The sections of payload `p` of `n` whose samples have a right address or
    none: from the sixth section on only those that are refused. -/
def Placed (n p k : Nat) : Prop :=
  k < 5 ∨ schSectionsPerPayload < k ∨ p + 1 = n ∧ k < schSectionsPerPayload ∨
    p + 2 = n ∧ k = schSectionsPerPayload

instance (n p k : Nat) : Decidable (Placed n p k) := inferInstanceAs (Decidable (_ ∨ _))

theorem accepted_place (sectioned : Sectioned n s) (filled : 0 < size) (fits : size ≤ stPageSize)
    (known : p < n) (int : i < 2147483648) {address : UInt32}
    (accepted : getSampleAddress s p (Int32.ofNat i) size = some (.ok address)) :
    address.toNat = place size p i ∧ sectionOf size i ≤ schSectionsPerPayload ∧
      place size p i ≤ flightplanBase + n * schSectionsPerPayload * schSizePerSection := by
  rw [getSampleAddress_eq sectioned filled fits known int] at accepted
  split at accepted
  · cases accepted
  · rename_i near
    split at accepted
    · cases accepted
    · split at accepted
      · cases accepted
      · rename_i below
        cases accepted
        have small := sectioned.small
        refine ⟨?_, by omega, by omega⟩
        rw [UInt32.toNat_ofNat', Nat.mod_eq_of_lt]
        have bases : flightplanBase ≤ payloadBase := by decide
        omega

theorem placed_low {k : Nat} (placed : Placed n p k) (near : k ≤ schSectionsPerPayload)
    (below : payloadBase + (p * schSectionsPerPayload + 2 * k) * schSizePerSection ≤
      flightplanBase + n * schSectionsPerPayload * schSizePerSection) : k < 5 := by
  have sections : (2 + (p * schSectionsPerPayload + 2 * k)) * schSizePerSection ≤
      (1 + n * schSectionsPerPayload) * schSizePerSection := by
    rw [Nat.add_mul 2, Nat.add_mul 1, Nat.one_mul]
    exact below
  have fewer := Nat.le_of_mul_le_mul_right sections (by decide)
  simp only [Placed, schSectionsPerPayload] at placed near fewer
  omega

theorem accepted_inside (sectioned : Sectioned n s) (filled : 0 < size) (fits : size ≤ stPageSize)
    (known : p < n) (int : i < 2147483648) (placed : Placed n p (sectionOf size i))
    {address : UInt32}
    (accepted : getSampleAddress s p (Int32.ofNat i) size = some (.ok address)) :
    address.toNat = place size p i ∧ base p ≤ place size p i ∧
      place size p i + size ≤ base (p + 1) := by
  obtain ⟨value, near, below⟩ := accepted_place sectioned filled fits known int accepted
  obtain ⟨low, high⟩ := place_doubled filled fits p i
  have first := placed_low placed near (low.trans below)
  have begins : p * schSectionsPerPayload ≤ p * schSectionsPerPayload + 2 * sectionOf size i := by
    omega
  have ends : p * schSectionsPerPayload + 2 * sectionOf size i + 1 ≤
      (p + 1) * schSectionsPerPayload := by
    simp only [schSectionsPerPayload]
    omega
  refine ⟨value, ?_, ?_⟩
  · exact (Nat.add_le_add_left (Nat.mul_le_mul_right _ begins) _).trans low
  · exact high.trans (Nat.add_le_add_left (Nat.mul_le_mul_right _ ends) _)

theorem addressSafe_iff (dev : Device) (sectioned : Sectioned n s) (filled : 0 < size)
    (fits : size ≤ stPageSize) (known : p < n) (int : i < 2147483648) :
    AddressSafe dev s p i size ↔ Placed n p (sectionOf size i) := by
  constructor
  · rintro ⟨defined, inside⟩
    by_contra wrong
    obtain ⟨low, high⟩ := place_doubled filled fits p i
    have value := getSampleAddress_eq sectioned filled fits known int
    have near : ¬ schSectionsPerPayload < sectionOf size i := fun far => wrong (.inr (.inl far))
    rw [if_neg near] at value
    by_cases beyond : n * schSectionsPerPayload ≤ p * schSectionsPerPayload + sectionOf size i
    · rw [if_pos beyond] at value
      exact defined value
    rw [if_neg beyond] at value
    by_cases refused : flightplanBase + n * schSectionsPerPayload * schSizePerSection <
        place size p i
    · simp only [Placed, payloadBase_eq, flightplanBase_eq, schSectionsPerPayload,
        schSizePerSection] at wrong high beyond refused near
      omega
    · rw [if_neg refused] at value
      obtain ⟨same, -, -⟩ := accepted_place sectioned filled fits known int value
      have first := (erasedBy_iff dev sectioned known _).mp
        (inside _ value _ (Nat.le_refl _) (by omega))
      rw [same] at first
      simp only [Placed, base, payloadBase_eq, flightplanBase_eq, schSectionsPerPayload,
        schSizePerSection] at wrong low first refused
      omega
  · intro placed
    constructor
    · rw [getSampleAddress_eq sectioned filled fits known int]
      split
      · exact Option.some_ne_none _
      · rw [if_neg]
        · split <;> exact Option.some_ne_none _
        · rename_i near
          simp only [Placed, schSectionsPerPayload] at placed near ⊢
          omega
    · intro address accepted a low high
      obtain ⟨value, first, last⟩ :=
        accepted_inside sectioned filled fits known int placed accepted
      exact (erasedBy_iff dev sectioned known a).mpr ⟨by omega, by omega⟩

theorem base_mono (before : p < q) : base (p + 1) ≤ base q := by
  simp only [base, schSectionsPerPayload, schSizePerSection]
  omega

theorem kept_of_placed (dev : Device) (sectioned : Sectioned n s) (filled : 0 < size)
    (fits : size ≤ stPageSize) (known : p < n) (known' : q < n) (int : i < 2147483648)
    (placed : Placed n p (sectionOf size i)) (ne : p ≠ q) : Kept dev s p i size q := by
  intro address accepted a low high erased
  obtain ⟨value, first, last⟩ := accepted_inside sectioned filled fits known int placed accepted
  have other := (erasedBy_iff dev sectioned known' a).mp erased
  rcases Nat.lt_or_gt_of_ne ne with before | after
  · have := base_mono before
    omega
  · have := base_mono after
    omega

theorem flash_requests_safe_iff (dev : Device) {m : PayloadMap}
    (sectioned : Sectioned m.lastSensor s)
    (sized : ∀ p < m.lastSensor, 0 < m.size p ∧ m.size p ≤ stPageSize) (known : p < m.lastSensor)
    (known' : q < m.lastSensor) (int : i < 2147483648) (int' : j < 2147483648) :
    RequestsSafe dev m s p q i j ↔ Placed m.lastSensor p (sectionOf (m.size p) i) ∧
      Placed m.lastSensor q (sectionOf (m.size q) j) := by
  obtain ⟨filled, fits⟩ := sized p known
  obtain ⟨filled', fits'⟩ := sized q known'
  constructor
  · intro safe
    exact ⟨(addressSafe_iff dev sectioned filled fits known int).mp safe.first,
      (addressSafe_iff dev sectioned filled' fits' known' int').mp safe.second⟩
  · rintro ⟨placed, placed'⟩
    refine ⟨(addressSafe_iff dev sectioned filled fits known int).mpr placed,
      (addressSafe_iff dev sectioned filled' fits' known' int').mpr placed', ?_,
      kept_of_placed dev sectioned filled fits known known' int placed,
      fun ne => kept_of_placed dev sectioned filled' fits' known' known int' placed' ne.symm⟩
    intro ne a b accepted accepted'
    obtain ⟨value, first, last⟩ := accepted_inside sectioned filled fits known int placed accepted
    obtain ⟨value', first', last'⟩ :=
      accepted_inside sectioned filled' fits' known' int' placed' accepted'
    rcases Nat.lt_trichotomy p q with before | rfl | after
    · have := base_mono before
      omega
    · rcases Nat.lt_trichotomy i j with less | rfl | more
      · have := place_apart filled fits p less
        omega
      · exact absurd rfl ne
      · have := place_apart filled fits p more
        omega
    · have := base_mono after
      omega

def pageSamples : PayloadMap :=
  { lastSensor := 3, size := fun _ => 512, sysIndex := fun p => 11 + p, sysAck := fun p => 14 + p }

theorem pageSamples_sized :
    ∀ p < pageSamples.lastSensor, 0 < pageSamples.size p ∧ pageSamples.size p ≤ stPageSize :=
  fun _ _ => ⟨by simp [pageSamples], by simp [pageSamples, stPageSize]⟩

theorem flash_requests_safe_pages :
    ∃ s, datRepoInit idealDevice (powerOn blankMedia []) 3 = some s ∧
      (RequestsSafe idealDevice pageSamples s 0 1 2559 2559 ↔
        Placed 3 0 (sectionOf 512 2559) ∧ Placed 3 1 (sectionOf 512 2559)) := by
  obtain ⟨s, boot, sectioned⟩ := datRepoInit_sectioned idealDevice blankMedia []
    (n := pageSamples.lastSensor) (by decide)
  exact ⟨s, boot, flash_requests_safe_iff idealDevice sectioned pageSamples_sized (by decide)
    (by decide) (by decide) (by decide)⟩

theorem flash_samples_collide :
    ∃ s, datRepoInit idealDevice (powerOn blankMedia []) 3 = some s ∧
      getSampleAddress s 0 2560 512 = some (.ok 3145728) ∧
      getSampleAddress s 1 0 512 = some (.ok 3145728) ∧
      ¬ RequestsSafe idealDevice pageSamples s 0 1 2560 0 := by
  obtain ⟨s, boot, sectioned⟩ := datRepoInit_sectioned idealDevice blankMedia []
    (n := pageSamples.lastSensor) (by decide)
  have first : getSampleAddress s 0 (Int32.ofNat 2560) 512 = _ :=
    getSampleAddress_eq sectioned (by decide) (by decide) (by decide) (show 2560 < 2147483648 by decide)
  have second : getSampleAddress s 1 (Int32.ofNat 0) 512 = _ :=
    getSampleAddress_eq sectioned (by decide) (by decide) (by decide) (show 0 < 2147483648 by decide)
  have same : place 512 0 2560 = 3145728 ∧ place 512 1 0 = 3145728 := by decide
  rw [if_neg (by decide), if_neg (by decide), if_neg (by decide), same.1] at first
  rw [if_neg (by decide), if_neg (by decide), if_neg (by decide), same.2] at second
  refine ⟨s, boot, first, second, fun safe => ?_⟩
  have placed := (addressSafe_iff idealDevice sectioned (by decide) (by decide) (by decide)
    (by decide)).mp safe.first
  exact absurd placed (by decide)

end FlashPayloadBounds
