import SuchaiFlight.PayloadData
import SuchaiFlight.RamFlightPlan

/-!
The payload samples of the RAM back end, in `storage_ram.c`: each payload has
`SCH_SECTIONS_PER_PAYLOAD` sections, and a sample never crosses a section.
-/
namespace RamPayload
open StorageApi RepoData RamStorage RamFlightPlan PayloadData ByteMemory

/-- The address of a sample in `payload_db`. Indices divide as in C; a section
    number outside the table of addresses has no address. -/
def getSampleAddress (s : RamStore) (payload : Nat) (index : Int32) (size : Nat) :
    Option (Except Int32 Nat) :=
  let samplesPerSection := schSizePerSection / size
  if size = 0 ∨ samplesPerSection = 0 then none
  else
    let sampleSection := index.toInt.tdiv samplesPerSection
    let indexInSection := index.toInt.tmod samplesPerSection
    let sectionIndex := payload * schSectionsPerPayload + sampleSection
    if schSectionsPerPayload < sampleSection then some (.error schStError)
    else if (s.payloadsEntries * schSizePerSection : Nat) < sectionIndex then
      some (.error schStError)
    else if sectionIndex < 0 ∨ (schSectionsPerPayload * s.payloadsEntries : Nat) ≤ sectionIndex then
      none
    else
      let address := sectionIndex * schSizePerSection + indexInSection * size
      if (s.payloadsEntries * schSectionsPerPayload * schSizePerSection : Nat) < address then
        some (.error schStError)
      else if address < 0 then none
      else some (.ok address.toNat)

/-- A copy that leaves the block has no result. -/
def storagePayloadSetData (s : RamStore) (payload : Nat) (index : Int32) (data : List UInt8)
    (size : Nat) : Option (Int32 × RamStore) :=
  if !s.storageIsOpen then some (schStError, s)
  else match s.payloadDb with
    | none => some (schStError, s)
    | some db => do
      match ← getSampleAddress s payload index size with
      | .error _ => return (schStError, s)
      | .ok address =>
        if size ≤ data.length ∧
            address + size ≤ s.payloadsEntries * schSectionsPerPayload * schSizePerSection then
          return (schStOk, { s with payloadDb := some (write db address (data.take size)) })
        else none

def storagePayloadGetData (s : RamStore) (payload : Nat) (index : Int32) (size : Nat) :
    Option (Except Int32 (List UInt8)) :=
  if !s.storageIsOpen then some (.error schStError)
  else match s.payloadDb with
    | none => some (.error schStError)
    | some db => do
      match ← getSampleAddress s payload index size with
      | .error _ => return .error schStError
      | .ok address =>
        if address + size ≤ s.payloadsEntries * schSectionsPerPayload * schSizePerSection then
          return .ok (read db address size)
        else none

def ramPayloadStorage (c : Config) : PayloadStorage RamStore where
  toStorage := ramStorage c
  storagePayloadSetData := storagePayloadSetData
  storagePayloadGetData := storagePayloadGetData

/-! The store keeps what `storage.h` promises, in the sections of the payload. -/

def place (size p i : Nat) : Nat :=
  (p * schSectionsPerPayload + i / (schSizePerSection / size)) * schSizePerSection +
    i % (schSizePerSection / size) * size

structure Working (c : Config) (m : DataMap) (s : RamStore) (status : Nat → UInt32) (db : Mem) :
    Prop extends Ready c s status where
  payloadEq : s.payloadDb = some db
  payloads : s.payloadsEntries = m.lastSensor

def HasRoom (m : DataMap) (p i : Nat) : Prop :=
  i < schSectionsPerPayload * (schSizePerSection / m.size p)

variable {c : Config} {m : DataMap} {p : Nat} {s : RamStore} {status : Nat → UInt32} {db : Mem}

theorem samplesPerSection_pos {size : Nat} (filled : 0 < size) (fits : size ≤ schSizePerSection) :
    0 < schSizePerSection / size := Nat.div_pos fits filled

theorem place_inside {size i : Nat} (filled : 0 < size) (fits : size ≤ schSizePerSection) :
    i % (schSizePerSection / size) * size + size ≤ schSizePerSection := by
  have within := Nat.mod_lt i (samplesPerSection_pos filled fits)
  have bound := Nat.mul_le_mul_right size (Nat.succ_le_of_lt within)
  have whole := Nat.div_mul_le_self schSizePerSection size
  rw [Nat.succ_mul] at bound
  omega

theorem place_bound {size i : Nat} (filled : 0 < size) (fits : size ≤ schSizePerSection)
    (known : p < m.lastSensor) (room : i < schSectionsPerPayload * (schSizePerSection / size)) :
    place size p i + size ≤ m.lastSensor * schSectionsPerPayload * schSizePerSection := by
  have inside := place_inside (i := i) filled fits
  have own : i / (schSizePerSection / size) < schSectionsPerPayload := by
    rw [Nat.div_lt_iff_lt_mul (samplesPerSection_pos filled fits)]
    exact room
  have payload := Nat.mul_le_mul_right schSectionsPerPayload (Nat.succ_le_of_lt known)
  rw [Nat.succ_mul] at payload
  have section_le : p * schSectionsPerPayload + i / (schSizePerSection / size) + 1 ≤
      m.lastSensor * schSectionsPerPayload := by omega
  have bound := Nat.mul_le_mul_right schSizePerSection section_le
  rw [Nat.succ_mul] at bound
  unfold place
  omega

theorem place_apart {size i j : Nat} (filled : 0 < size) (fits : size ≤ schSizePerSection)
    (before : i < j) : place size p i + size ≤ place size p j := by
  have pos := samplesPerSection_pos filled fits
  have inside := place_inside (i := i) filled fits
  have spliti := Nat.div_add_mod i (schSizePerSection / size)
  have splitj := Nat.div_add_mod j (schSizePerSection / size)
  have order : i / (schSizePerSection / size) ≤ j / (schSizePerSection / size) :=
    Nat.div_le_div_right before.le
  unfold place
  rcases Nat.lt_or_eq_of_le order with earlier | same
  · have bound := Nat.mul_le_mul_right schSizePerSection
      (show p * schSectionsPerPayload + i / (schSizePerSection / size) + 1 ≤
        p * schSectionsPerPayload + j / (schSizePerSection / size) by omega)
    rw [Nat.succ_mul] at bound
    omega
  · rw [same] at spliti ⊢
    have offset := Nat.mul_le_mul_right size
      (show i % (schSizePerSection / size) + 1 ≤ j % (schSizePerSection / size) by omega)
    rw [Nat.succ_mul] at offset
    omega

/-- What the schema must give: the index variable of the payload is a status
    variable, and a section holds at least one sample. -/
structure Mapped (c : Config) (m : DataMap) (p : Nat) : Prop where
  known : p < m.lastSensor
  filled : 0 < m.size p
  fits : m.size p ≤ schSizePerSection
  variable_lt : m.sysIndex p < c.datStatusLastAddress

theorem room_lt {i : Nat} (room : HasRoom m p i) : i < 2147483647 := by
  have few := Nat.div_le_self schSizePerSection (m.size p)
  unfold HasRoom at room
  simp only [schSectionsPerPayload, schSizePerSection] at room few
  omega

theorem getSampleAddress_of_room {size i : Nat} (filled : 0 < size) (fits : size ≤ schSizePerSection)
    (known : p < s.payloadsEntries) (room : i < schSectionsPerPayload * (schSizePerSection / size)) :
    getSampleAddress s p (Int32.ofNat i) size = some (.ok (place size p i)) := by
  have few := Nat.div_le_self schSizePerSection size
  have index : (Int32.ofNat i).toInt = i := by
    apply Int32.toInt_ofNat_of_lt
    simp only [schSectionsPerPayload, schSizePerSection] at room few
    omega
  have pos := samplesPerSection_pos filled fits
  have bound := place_bound (m := ⟨s.payloadsEntries, fun _ => size, fun _ => 0⟩) filled fits known
    room
  dsimp only at bound
  have own : i / (schSizePerSection / size) < schSectionsPerPayload := by
    rw [Nat.div_lt_iff_lt_mul pos]
    exact room
  have payload := Nat.mul_le_mul_right schSectionsPerPayload (Nat.succ_le_of_lt known)
  rw [Nat.succ_mul] at payload
  have section_lt : p * schSectionsPerPayload + i / (schSizePerSection / size) <
      s.payloadsEntries * schSectionsPerPayload := by omega
  have sections : s.payloadsEntries * schSectionsPerPayload ≤
      s.payloadsEntries * schSizePerSection := Nat.mul_le_mul_left _ (by decide)
  have div : (i : Int).tdiv (schSizePerSection / size : Nat) =
      (i / (schSizePerSection / size) : Nat) := rfl
  have rem : (i : Int).tmod (schSizePerSection / size : Nat) =
      (i % (schSizePerSection / size) : Nat) := rfl
  have number : (p : Int) * schSectionsPerPayload + (i / (schSizePerSection / size) : Nat) =
      (p * schSectionsPerPayload + i / (schSizePerSection / size) : Nat) := by
    rw [Int.natCast_add, Int.natCast_mul]
  have address : ((p * schSectionsPerPayload + i / (schSizePerSection / size) : Nat) : Int) *
      schSizePerSection + (i % (schSizePerSection / size) : Nat) * (size : Nat) =
        (place size p i : Nat) := by
    simp only [place, Int.natCast_add, Int.natCast_mul]
  unfold getSampleAddress
  simp only [index, div, rem, number, address]
  clear div rem number address index
  generalize i / (schSizePerSection / size) = own_section at own section_lt ⊢
  rw [if_neg (by omega), if_neg (by omega), if_neg (by omega),
    if_neg (by rw [Nat.mul_comm schSectionsPerPayload]; omega), if_neg (by omega),
    if_neg (by omega), Int.toNat_natCast]

theorem getSampleAddress_eq (mapped : Mapped c m p) (working : Working c m s status db) {i : Nat}
    (room : HasRoom m p i) :
    getSampleAddress s p (Int32.ofNat i) (m.size p) = some (.ok (place (m.size p) p i)) :=
  getSampleAddress_of_room mapped.filled mapped.fits (working.payloads ▸ mapped.known) room

theorem getData_at (working : Working c m s status db) {payload address size : Nat} {index : Int32}
    (found : getSampleAddress s payload index size = some (.ok address))
    (bound : address + size ≤ m.lastSensor * schSectionsPerPayload * schSizePerSection) :
    storagePayloadGetData s payload index size = some (.ok (read db address size)) := by
  rw [← working.payloads] at bound
  simp [storagePayloadGetData, working.isOpen, working.payloadEq, found, bound]

theorem setData_at (working : Working c m s status db) {payload address : Nat} {index : Int32}
    {data : List UInt8} (found : getSampleAddress s payload index data.length = some (.ok address))
    (bound : address + data.length ≤ m.lastSensor * schSectionsPerPayload * schSizePerSection) :
    storagePayloadSetData s payload index data data.length =
      some (schStOk, { s with payloadDb := some (write db address data) }) := by
  rw [← working.payloads] at bound
  simp [storagePayloadSetData, working.isOpen, working.payloadEq, found, bound]

theorem sampleAt_working (mapped : Mapped c m p) (working : Working c m s status db) {i : Nat}
    (room : HasRoom m p i) :
    sampleAt (ramPayloadStorage c) m p s i =
      some (.ok (read db (place (m.size p) p i) (m.size p))) :=
  getData_at working (getSampleAddress_eq mapped working room)
    (place_bound mapped.filled mapped.fits mapped.known room)

theorem indexIs_working (variable_lt : m.sysIndex p < c.datStatusLastAddress)
    (working : Working c m s status db) (i : Nat) :
    indexIs (ramPayloadStorage c) c m p s i ↔
      (vote c status (m.sysIndex p)).toInt32 = Int32.ofNat i := by
  have value : datGetSystemVar (ramPayloadStorage c).toStorage c s (m.sysIndex p) =
      some (vote c status (m.sysIndex p)).toInt32 :=
    datGetSystemVar_ready working.toReady variable_lt
  unfold indexIs
  rw [value, Option.some.injEq]

theorem Working.withStatus (working : Working c m s status db) (status' : Nat → UInt32) :
    Working c m { s with statusDb := some status' } status' db :=
  ⟨working.toReady.withStatus status', working.payloadEq, working.payloads⟩

theorem Working.withSamples (working : Working c m s status db) (db' : Mem) :
    Working c m { s with payloadDb := some db' } status db' :=
  ⟨⟨working.isOpen, working.statusEq, working.entriesEq⟩, rfl, working.payloads⟩

theorem ram_set_index (variable_lt : m.sysIndex p < c.datStatusLastAddress)
    (working : Working c m s status db) (i : Nat) :
    ∃ rc s' status', datSetSystemVar (ramPayloadStorage c).toStorage c s (m.sysIndex p)
        (Int32.ofNat i) = some (rc, s') ∧ Working c m s' status' db ∧
      indexIs (ramPayloadStorage c) c m p s' i := by
  have working' := working.withStatus (storeCopies c status (m.sysIndex p) (Int32.ofNat i).toUInt32)
  refine ⟨_, _, _, datSetSystemVar_ready working.toReady (Int32.ofNat i) variable_lt, working', ?_⟩
  rw [indexIs_working variable_lt working', vote_storeCopies_same, Int32.toInt32_toUInt32]

theorem ram_lawful (mapped : Mapped c m p) :
    Lawful (ramPayloadStorage c) c m p (fun s => ∃ status db, Working c m s status db)
      (HasRoom m p) where
  room_lt := fun _ room => room_lt room
  set_index := by
    rintro s i ⟨status, db, working⟩
    obtain ⟨rc, s', status', run, working', index⟩ := ram_set_index mapped.variable_lt working i
    refine ⟨rc, s', run, ⟨_, _, working'⟩, index, ?_⟩
    intro j room
    rw [sampleAt_working mapped working' room, sampleAt_working mapped working room]
  set_data := by
    rintro s i data ⟨status, db, working⟩ room size
    have bound := place_bound mapped.filled mapped.fits mapped.known room
    have found := getSampleAddress_eq mapped working room
    rw [← size] at bound found
    have working' := working.withSamples (write db (place (m.size p) p i) data)
    refine ⟨schStOk, { s with payloadDb := some (write db (place (m.size p) p i) data) }, ?_,
      by decide, ⟨_, _, working'⟩, ?_, ?_⟩
    · rw [← size]
      exact setData_at working found bound
    · rw [sampleAt_working mapped working' room, ← size, read_write_same]
    · intro j roomJ apart
      rw [sampleAt_working mapped working' roomJ, sampleAt_working mapped working roomJ,
        read_write_disjoint]
      rw [size]
      rcases Nat.lt_or_gt_of_ne apart with before | after
      · exact .inr (place_apart mapped.filled mapped.fits before)
      · exact .inl (place_apart mapped.filled mapped.fits after)

theorem ram_lawful_without_room (variable_lt : m.sysIndex p < c.datStatusLastAddress) :
    Lawful (ramPayloadStorage c) c m p (fun s => ∃ status db, Working c m s status db)
      fun _ => False where
  room_lt := fun _ room => room.elim
  set_index := by
    rintro s i ⟨status, db, working⟩
    obtain ⟨rc, s', status', run, working', index⟩ := ram_set_index variable_lt working i
    exact ⟨rc, s', run, ⟨_, _, working'⟩, index, fun _ room => room.elim⟩
  set_data := fun _ _ _ _ room => room.elim

def blankStore (c : Config) (m : DataMap) : RamStore :=
  { storageIsOpen := true
    statusDb := some fun _ => 0
    statusEntries := statusCopies c * c.datStatusLastVar
    flightplanDb := none
    flightplanEntries := 0
    payloadDb := some fun _ => 0
    payloadsEntries := m.lastSensor }

theorem blankStore_working (c : Config) (m : DataMap) :
    Working c m (blankStore c m) (fun _ => 0) fun _ => 0 :=
  ⟨⟨rfl, rfl, rfl⟩, rfl, rfl⟩

theorem blankStore_index (variable_lt : m.sysIndex p < c.datStatusLastAddress) :
    indexIs (ramPayloadStorage c) c m p (blankStore c m) 0 := by
  rw [indexIs_working variable_lt (blankStore_working c m)]
  simp [vote]

end RamPayload
