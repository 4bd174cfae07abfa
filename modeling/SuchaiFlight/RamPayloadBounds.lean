import SuchaiFlight.FlightPlanCommands
import SuchaiFlight.RamPayloadLists

/-!
What requests of telecommands reach in the payload memory of the RAM back end:
the addresses of samples for any index, and the command `drp_reset_payload`.
-/
namespace RamPayloadBounds
open CStrings DecimalText TextScan StorageApi RepoData PayloadData PayloadCalls RepoCommand FlightPlanCommands
open RamStorage RamPayload RamSamples RamPayloadLists ByteMemory

def schDrpMagic : Int32 := 1010

def drpResetPayloadFmt : List Directive := [.int, .space, .int]

def drpPayload (m : PayloadMap) (params : Option CString) : Option (Except Int32 Int32) :=
  match params with
  | none => some (.error cmdSyntaxError)
  | some params =>
    match sscanf drpResetPayloadFmt params with
    | [.int payload, .int magic] => do
      let payload ← intOf payload
      let magic ← intOf magic
      if (m.lastSensor : Int) ≤ payload.toInt ∨ magic ≠ schDrpMagic then
        return .error cmdSyntaxError
      else return .ok payload
    | _ => some (.error cmdSyntaxError)

def drpResetPayload {σ : Type} (S : PayloadTables σ) (c : Config) (m : PayloadMap)
    (params : Option CString) (s : σ) : Option (Int32 × σ) := do
  match ← drpPayload m params with
  | .error rc => return (rc, s)
  | .ok payload =>
    let (rc, s) ← datDeletePayload S c m s payload.toInt
    return (if rc = schStOk then cmdOk else cmdError, s)

def base (p : Nat) : Nat := p * schSectionsPerPayload * schSizePerSection

/-- The address has a result, and an accepted one keeps to the payload. -/
structure AddressSafe (m : PayloadMap) (s : RamStore) (p : Nat) (i : Int32) : Prop where
  defined : getSampleAddress s p i (m.size p) ≠ none
  inside : ∀ address, getSampleAddress s p i (m.size p) = some (.ok address) →
    base p ≤ address ∧ address + m.size p ≤ base (p + 1)

def SamplesApart (m : PayloadMap) (s : RamStore) (p q : Nat) (i j : Int32) : Prop :=
  ∀ a b, getSampleAddress s p i (m.size p) = some (.ok a) →
    getSampleAddress s q j (m.size q) = some (.ok b) → a + m.size p ≤ b ∨ b + m.size q ≤ a

def ClearsOne (m : PayloadMap) (s : RamStore) (payload : Int32) : Prop :=
  ∃ p < m.lastSensor, ∃ db db' rc, s.payloadDb = some db ∧
    storagePayloadResetTable s payload.toInt = some (rc, { s with payloadDb := some db' }) ∧
    ∀ a, db' a = if base p ≤ a ∧ a < base (p + 1) then 0 else db a

def Addressed (m : PayloadMap) (p : Nat) (i : Int32) : Prop :=
  0 ≤ i.toInt ∧ i.toInt < (schSectionsPerPayload * (schSizePerSection / m.size p) : Nat) ∨
    ((schSectionsPerPayload + 1) * (schSizePerSection / m.size p) : Nat) ≤ i.toInt

instance (m : PayloadMap) (p : Nat) (i : Int32) : Decidable (Addressed m p i) :=
  inferInstanceAs (Decidable (_ ∨ _))

/-- A store whose payload memory was made for the payloads of the schema, so
    that the size of the memory is an `int`. -/
structure Allocated (m : PayloadMap) (s : RamStore) : Prop where
  isOpen : s.storageIsOpen = true
  memory : s.payloadDb.isSome
  entries : s.payloadsEntries = m.lastSensor
  small : schSizePerSection * schSectionsPerPayload * m.lastSensor ≤ 2147483647

variable {m : PayloadMap} {s : RamStore} {p q : Nat} {i j : Int32}

theorem negative_split {i : Int} (neg : i < 0) (k : Nat) :
    i.tdiv k ≤ 0 ∧ i.tmod k ≤ 0 ∧ (i.tdiv k < 0 ∨ i.tmod k < 0) := by
  obtain ⟨n, rfl⟩ : ∃ n : Nat, i = -(n : Int) := ⟨i.natAbs, by omega⟩
  have whole := Int.tdiv_mul_add_tmod (n : Int) k
  rw [Int.neg_tdiv, Int.neg_tmod]
  have quotient : (0 : Int) ≤ (n : Int).tdiv k := Int.natCast_nonneg (n / k)
  have remainder : (0 : Int) ≤ (n : Int).tmod k := Int.natCast_nonneg (n % k)
  refine ⟨by omega, by omega, ?_⟩
  by_contra zero
  have q0 : (n : Int).tdiv k = 0 := by omega
  have r0 : (n : Int).tmod k = 0 := by omega
  rw [q0, r0] at whole
  omega

def sectionAddress (entries p : Nat) (own place : Int) : Option (Except Int32 Nat) :=
  if schSectionsPerPayload < own then some (.error schStError)
  else if (entries * schSizePerSection : Nat) < p * schSectionsPerPayload + own then
    some (.error schStError)
  else if p * schSectionsPerPayload + own < 0 ∨
      (schSectionsPerPayload * entries : Nat) ≤ p * schSectionsPerPayload + own then none
  else if (entries * schSectionsPerPayload * schSizePerSection : Nat) <
      (p * schSectionsPerPayload + own) * schSizePerSection + place then some (.error schStError)
  else if (p * schSectionsPerPayload + own) * schSizePerSection + place < 0 then none
  else some (.ok ((p * schSectionsPerPayload + own) * schSizePerSection + place).toNat)

theorem getSampleAddress_section {size : Nat} (pos : 0 < schSizePerSection / size) :
    getSampleAddress s p i size = sectionAddress s.payloadsEntries p
      (i.toInt.tdiv (schSizePerSection / size : Nat))
      (i.toInt.tmod (schSizePerSection / size : Nat) * size) := by
  have filled : ¬ (size = 0 ∨ schSizePerSection / size = 0) := by
    rintro (rfl | none)
    · simp at pos
    · omega
  unfold getSampleAddress
  rw [if_neg filled]
  rfl

theorem sectionAddress_before {entries : Nat} (known : p < entries) {own place : Int}
    (before : own ≤ 0) (low : place ≤ 0) (one : own < 0 ∨ place < 0) :
    sectionAddress entries p own place = none ∨
      ∃ a, sectionAddress entries p own place = some (.ok a) ∧ a < base p := by
  have first : ¬ (schSectionsPerPayload : Int) < own := by
    simp only [schSectionsPerPayload]
    omega
  have second : ¬ ((entries * schSizePerSection : Nat) : Int) < p * schSectionsPerPayload + own := by
    simp only [schSizePerSection, schSectionsPerPayload]
    omega
  have third : ¬ ((entries * schSectionsPerPayload * schSizePerSection : Nat) : Int) <
      (p * schSectionsPerPayload + own) * schSizePerSection + place := by
    simp only [schSizePerSection, schSectionsPerPayload]
    omega
  unfold sectionAddress
  rw [if_neg first, if_neg second, if_neg third]
  split
  · exact .inl rfl
  · split
    · exact .inl rfl
    · rename_i sign
      refine .inr ⟨_, rfl, ?_⟩
      simp only [base, schSizePerSection, schSectionsPerPayload] at sign ⊢
      omega

theorem sectionAddress_last {entries : Nat} (known : p < entries) {place : Int}
    (inside : 0 ≤ place ∧ place < schSizePerSection) :
    sectionAddress entries p schSectionsPerPayload place = none ∨
      ∃ a, sectionAddress entries p schSectionsPerPayload place = some (.ok a) ∧
        base (p + 1) ≤ a := by
  have second : ¬ ((entries * schSizePerSection : Nat) : Int) <
      p * schSectionsPerPayload + schSectionsPerPayload := by
    simp only [schSizePerSection, schSectionsPerPayload]
    omega
  unfold sectionAddress
  rw [if_neg (Int.lt_irrefl _), if_neg second]
  split
  · exact .inl rfl
  · rename_i exists_
    have third : ¬ ((entries * schSectionsPerPayload * schSizePerSection : Nat) : Int) <
        (p * schSectionsPerPayload + schSectionsPerPayload) * schSizePerSection + place := by
      simp only [schSizePerSection, schSectionsPerPayload] at inside exists_ ⊢
      omega
    have sign : ¬ ((p : Int) * schSectionsPerPayload + schSectionsPerPayload) * schSizePerSection +
        place < 0 := by
      simp only [schSizePerSection, schSectionsPerPayload]
      omega
    rw [if_neg third, if_neg sign]
    refine .inr ⟨_, rfl, ?_⟩
    simp only [base, schSizePerSection, schSectionsPerPayload]
    omega

theorem negative_unsafe (sized : Sized m.toDataMap) (known : p < m.lastSensor)
    (entries : s.payloadsEntries = m.lastSensor) (neg : i.toInt < 0) : ¬ AddressSafe m s p i := by
  rintro ⟨defined, inside⟩
  have filled := sized.filled p known
  have pos := samplesPerSection_pos filled (size_fits sized known)
  obtain ⟨quotient, remainder, one⟩ := negative_split neg (schSizePerSection / m.size p)
  have low : i.toInt.tmod (schSizePerSection / m.size p : Nat) * (m.size p : Nat) ≤ 0 :=
    Int.mul_nonpos_of_nonpos_of_nonneg remainder (by omega)
  have one' : i.toInt.tdiv (schSizePerSection / m.size p : Nat) < 0 ∨
      i.toInt.tmod (schSizePerSection / m.size p : Nat) * (m.size p : Nat) < 0 :=
    one.imp_right fun less => Int.mul_neg_of_neg_of_pos less (by omega)
  rw [← entries] at known
  rcases sectionAddress_before known quotient low one' with none | ⟨a, wrong, less⟩
  · exact defined ((getSampleAddress_section pos).trans none)
  · have := (inside a ((getSampleAddress_section pos).trans wrong)).1
    omega

theorem toInt_split {i : Int32} (sign : 0 ≤ i.toInt) : ∃ n, i = Int32.ofNat n ∧ i.toInt = n := by
  refine ⟨i.toInt.toNat, ?_, by omega⟩
  have bound := i.toInt_lt
  rw [← Int32.toInt_inj, Int32.toInt_ofNat_of_lt (by omega)]
  omega

theorem last_section_unsafe (sized : Sized m.toDataMap) (known : p < m.lastSensor)
    (entries : s.payloadsEntries = m.lastSensor)
    (low : (schSectionsPerPayload * (schSizePerSection / m.size p) : Nat) ≤ i.toInt)
    (high : i.toInt < ((schSectionsPerPayload + 1) * (schSizePerSection / m.size p) : Nat)) :
    ¬ AddressSafe m s p i := by
  rintro ⟨defined, inside⟩
  have filled := sized.filled p known
  have fits := size_fits sized known
  have pos := samplesPerSection_pos filled fits
  obtain ⟨n, -, value⟩ := toInt_split (i := i) (by omega)
  have quotient : i.toInt.tdiv (schSizePerSection / m.size p : Nat) = schSectionsPerPayload := by
    rw [value]
    have div : n / (schSizePerSection / m.size p) = schSectionsPerPayload := by
      rw [Nat.div_eq_iff pos]
      rw [value, Nat.add_mul] at high
      omega
    exact congrArg Nat.cast div
  have within := place_inside (i := n) filled fits
  have place : 0 ≤ i.toInt.tmod (schSizePerSection / m.size p : Nat) * (m.size p : Nat) ∧
      i.toInt.tmod (schSizePerSection / m.size p : Nat) * (m.size p : Nat) < schSizePerSection := by
    rw [value, show (n : Int).tmod (schSizePerSection / m.size p : Nat) =
      (n % (schSizePerSection / m.size p) : Nat) from rfl, ← Int.natCast_mul]
    omega
  rw [← entries] at known
  have address := getSampleAddress_section (s := s) (p := p) (i := i) pos
  rw [quotient] at address
  rcases sectionAddress_last known place with none | ⟨a, wrong, beyond⟩
  · exact defined (address.trans none)
  · have := (inside a (address.trans wrong)).2
    omega

theorem addressed_safe (sized : Sized m.toDataMap) (known : p < m.lastSensor)
    (entries : s.payloadsEntries = m.lastSensor) (addressed : Addressed m p i) :
    AddressSafe m s p i ∧ ∀ a, getSampleAddress s p i (m.size p) = some (.ok a) →
      ∃ n, i = Int32.ofNat n ∧ HasRoom m.toDataMap p n ∧ a = place (m.size p) p n := by
  have filled := sized.filled p known
  have fits := size_fits sized known
  have pos := samplesPerSection_pos filled fits
  rcases addressed with ⟨sign, inside⟩ | refused
  · obtain ⟨n, rfl, value⟩ := toInt_split sign
    have room : HasRoom m.toDataMap p n := by
      rw [HasRoom]
      omega
    have found := getSampleAddress_of_room filled fits (entries.symm ▸ known) room
    have between := place_between sized known room
    refine ⟨⟨by rw [found]; exact Option.some_ne_none _, fun a eq => ?_⟩, fun a eq => ?_⟩
    · cases found.symm.trans eq
      exact between
    · cases found.symm.trans eq
      exact ⟨n, rfl, room, rfl⟩
  · obtain ⟨n, -, value⟩ := toInt_split (i := i) (by omega)
    have far : schSectionsPerPayload < n / (schSizePerSection / m.size p) := by
      rw [Nat.lt_iff_add_one_le, Nat.le_div_iff_mul_le pos]
      omega
    have error : getSampleAddress s p i (m.size p) = some (.error schStError) := by
      rw [getSampleAddress_section pos, sectionAddress, value, if_pos]
      exact Int.ofNat_lt.mpr far
    refine ⟨⟨by rw [error]; exact Option.some_ne_none _, fun a eq => ?_⟩, fun a eq => ?_⟩ <;>
      cases error.symm.trans eq

theorem addressSafe_iff (sized : Sized m.toDataMap) (known : p < m.lastSensor)
    (entries : s.payloadsEntries = m.lastSensor) : AddressSafe m s p i ↔ Addressed m p i := by
  constructor
  · intro safe
    by_contra outside
    unfold Addressed at outside
    by_cases neg : i.toInt < 0
    · exact negative_unsafe sized known entries neg safe
    · exact last_section_unsafe sized known entries (by omega) (by omega) safe
  · intro addressed
    exact (addressed_safe sized known entries addressed).1

theorem addressed_disjoint (sized : Sized m.toDataMap) (known : p < m.lastSensor)
    (known' : q < m.lastSensor) (entries : s.payloadsEntries = m.lastSensor)
    (addressed : Addressed m p i) (addressed' : Addressed m q j) (ne : (p, i) ≠ (q, j)) :
    SamplesApart m s p q i j := by
  intro a b found found'
  obtain ⟨n, rfl, room, rfl⟩ := (addressed_safe sized known entries addressed).2 a found
  obtain ⟨k, rfl, room', rfl⟩ := (addressed_safe sized known' entries addressed').2 b found'
  apply places_disjoint sized known known' room room'
  rintro ⟨rfl, rfl⟩
  exact ne rfl

theorem clearsOne_iff (allocated : Allocated m s) {payload : Int32}
    (less : payload.toInt < m.lastSensor) : ClearsOne m s payload ↔ 0 ≤ payload.toInt := by
  obtain ⟨db, memory⟩ := Option.isSome_iff_exists.mp allocated.memory
  have inside : ¬ (s.payloadsEntries : Int) ≤ payload.toInt := by
    rw [allocated.entries]
    omega
  constructor
  · rintro ⟨p, -, db, db', rc, -, reset, -⟩
    by_contra neg
    have sign : payload.toInt < 0 := by omega
    simp [storagePayloadResetTable, allocated.isOpen, inside, memory, sign] at reset
  · intro sign
    have total : base (payload.toInt.toNat + 1) =
        base payload.toInt.toNat + schSizePerSection * schSectionsPerPayload := by
      simp only [base, schSizePerSection, schSectionsPerPayload]
      omega
    refine ⟨payload.toInt.toNat, by omega, db, fill db (base payload.toInt.toNat)
      (schSizePerSection * schSectionsPerPayload) 0, schStOk, memory, ?_, fun a => ?_⟩
    · simp [storagePayloadResetTable, allocated.isOpen, inside, memory, Int.not_lt.mpr sign, base]
    · rw [total, fill]

structure RequestsSafe (m : PayloadMap) (s : RamStore) (p q : Nat) (i j : Int32)
    (params : Option CString) : Prop where
  first : AddressSafe m s p i
  second : AddressSafe m s q j
  disjoint : (p, i) ≠ (q, j) → SamplesApart m s p q i j
  reset : ∀ payload, drpPayload m params = some (.ok payload) → ClearsOne m s payload

theorem drpPayload_lt {params : Option CString} {payload : Int32}
    (accepted : drpPayload m params = some (.ok payload)) : payload.toInt < m.lastSensor := by
  unfold drpPayload at accepted
  split at accepted
  · cases accepted
  · split at accepted
    · obtain ⟨number, -, accepted⟩ := Option.bind_eq_some_iff.mp accepted
      obtain ⟨magic, -, accepted⟩ := Option.bind_eq_some_iff.mp accepted
      split at accepted
      · cases accepted
      · rename_i known
        cases accepted
        omega
    · cases accepted

/-- No request touches memory outside its payload, and requests do not meet, if
    and only if no index lies before the first or in the eleventh section and no
    payload is negative. -/
theorem ram_requests_safe_iff (sized : Sized m.toDataMap) (known : p < m.lastSensor)
    (known' : q < m.lastSensor) (allocated : Allocated m s) (params : Option CString) :
    RequestsSafe m s p q i j params ↔ Addressed m p i ∧ Addressed m q j ∧
      ∀ payload, drpPayload m params = some (.ok payload) → 0 ≤ payload.toInt := by
  constructor
  · rintro ⟨first, second, -, reset⟩
    refine ⟨(addressSafe_iff sized known allocated.entries).mp first,
      (addressSafe_iff sized known' allocated.entries).mp second, fun payload accepted => ?_⟩
    exact (clearsOne_iff allocated (drpPayload_lt accepted)).mp (reset payload accepted)
  · rintro ⟨first, second, reset⟩
    refine ⟨(addressSafe_iff sized known allocated.entries).mpr first,
      (addressSafe_iff sized known' allocated.entries).mpr second,
      addressed_disjoint sized known known' allocated.entries first second,
      fun payload accepted => ?_⟩
    exact (clearsOne_iff allocated (drpPayload_lt accepted)).mpr (reset payload accepted)

/-! Requests after a start with two payloads. -/

theorem repoInit_allocated {c : Config} (schema : Schema c m)
    (boot : repoInit c m.lastSensor = some s) : Allocated m s := by
  unfold repoInit at boot
  split at boot
  · rename_i small
    obtain ⟨s₀, same, cells, samples, -⟩ := datRepoInit_represented schema
    cases same.symm.trans boot
    obtain ⟨status, db, working, -⟩ := samples.working
    exact ⟨working.isOpen, Option.isSome_iff_exists.mpr ⟨db, working.payloadEq⟩, samples.entries,
      small⟩
  · cases boot

def drpParams (payload magic : Int32) : CString :=
  decimalText payload.toInt ++ (blank ++ (decimalText magic.toInt ++ noText))

theorem drpPayload_params (m : PayloadMap) (payload magic : Int32) :
    drpPayload m (some (drpParams payload magic)) =
      if (m.lastSensor : Int) ≤ payload.toInt ∨ magic ≠ schDrpMagic then
        some (.error cmdSyntaxError)
      else some (.ok payload) := by
  have stop : Stops digit noText := by simp [Stops, noText]
  have scanned : sscanf drpResetPayloadFmt (drpParams payload magic) =
      [.int payload.toInt, .int magic.toInt] := by
    unfold sscanf drpParams drpResetPayloadFmt
    rw [scanFrom_int _ _ _ (blank_stops_digit _), scanFrom_space _ _ (decimalText_stops _ _),
      scanFrom_int _ _ _ stop]
    rfl
  simp only [drpPayload, scanned, intOf_toInt, Option.bind_eq_bind, Option.bind_some]
  split <;> rfl

theorem drpResetPayload_negative (c : Config) (allocated : Allocated m s) {payload : Int32}
    (neg : payload.toInt < 0) :
    drpResetPayload (ramPayloadTables c) c m (some (drpParams payload schDrpMagic)) s = none := by
  obtain ⟨db, memory⟩ := Option.isSome_iff_exists.mp allocated.memory
  have accepted : ¬ ((m.lastSensor : Int) ≤ payload.toInt ∨ schDrpMagic ≠ schDrpMagic) := by
    simp only [ne_eq, not_true_eq_false, or_false]
    omega
  have less : ¬ (m.lastSensor : Int) ≤ payload.toInt := fun le => accepted (.inl le)
  have inside : ¬ (s.payloadsEntries : Int) ≤ payload.toInt := allocated.entries ▸ less
  have reset : (ramPayloadTables c).storagePayloadResetTable s payload.toInt = none := by
    simp [ramPayloadTables, storagePayloadResetTable, allocated.isOpen, inside, memory, neg]
  rw [drpResetPayload, drpPayload_params, if_neg accepted]
  simp [datDeletePayload, less, reset]

def twoPayloads : PayloadMap :=
  { lastSensor := 2, size := fun _ => 4, sysIndex := fun p => 13 + p, sysAck := fun p => 15 + p }

theorem twoPayloads_sized : Sized twoPayloads.toDataMap :=
  ⟨fun _ _ => by simp [twoPayloads], fun _ _ => by simp [twoPayloads]⟩

def twoPayloadsStore : RamStore := blankStore simpleConfig twoPayloads.toDataMap

theorem twoPayloadsStore_allocated : Allocated twoPayloads twoPayloadsStore :=
  ⟨rfl, rfl, rfl, by decide⟩

theorem ram_requests_safe_pair :
    RequestsSafe twoPayloads twoPayloadsStore 0 1 5 5 none ↔
      Addressed twoPayloads 0 5 ∧ Addressed twoPayloads 1 5 ∧
        ∀ payload, drpPayload twoPayloads none = some (.ok payload) → 0 ≤ payload.toInt :=
  ram_requests_safe_iff twoPayloads_sized (by decide) (by decide) twoPayloadsStore_allocated none

theorem ram_requests_leave_payload :
    Allocated twoPayloads twoPayloadsStore ∧
      ¬ RequestsSafe twoPayloads twoPayloadsStore 0 1 655360 0 none ∧
      ¬ RequestsSafe twoPayloads twoPayloadsStore 0 1 0 (-1) none ∧
      ¬ RequestsSafe twoPayloads twoPayloadsStore 0 1 0 0 (some (drpParams (-1) schDrpMagic)) := by
  refine ⟨twoPayloadsStore_allocated, ?_, ?_, ?_⟩
  · intro safe
    have addressed := (addressSafe_iff twoPayloads_sized (by decide) rfl).mp safe.first
    exact absurd addressed (by decide)
  · intro safe
    have addressed := (addressSafe_iff twoPayloads_sized (by decide) rfl).mp safe.second
    exact absurd addressed (by decide)
  · intro safe
    have clears := safe.reset (-1) (drpPayload_params twoPayloads (-1) schDrpMagic)
    have sign := (clearsOne_iff twoPayloadsStore_allocated (by decide)).mp clears
    exact absurd sign (by decide)

end RamPayloadBounds
