import SuchaiFlight.PayloadCalls
import SuchaiFlight.RamPayload

/-!
The payload samples of the RAM back end through the calls of `repoData.c`: a
number of samples for each payload, and for each place of its sections the
sample that was written there last.
-/
namespace RamSamples
open StorageApi RepoData StatusVariables PayloadData PayloadCalls RamStorage RamFlightPlan
open RamPayload ByteMemory SignedWord

/-- The table of section addresses has no element for a negative `payload`. -/
def storagePayloadResetTable (s : RamStore) (payload : Int) : Option (Int32 × RamStore) :=
  if !s.storageIsOpen || decide ((s.payloadsEntries : Int) ≤ payload) then some (schStError, s)
  else match s.payloadDb with
    | none => some (schStError, s)
    | some db =>
      if payload < 0 then none
      else
        let payloadAddress := payload.toNat * schSectionsPerPayload * schSizePerSection
        let payloadSize := schSizePerSection * schSectionsPerPayload
        some (schStOk, { s with payloadDb := some (fill db payloadAddress payloadSize 0) })

def ramPayloadTables (c : Config) : PayloadTables RamStore where
  toPayloadStorage := ramPayloadStorage c
  storagePayloadResetTable := storagePayloadResetTable

/-! Status variables. -/

def ramCell (s : RamStore) (k : Nat) : Option UInt32 := s.statusDb.map fun db => db k

def writeCell (s : RamStore) (k : Nat) (value : UInt32) : RamStore :=
  { s with statusDb := s.statusDb.map fun db => Function.update db k value }

def otherMemory (s : RamStore) :=
  (s.flightplanDb, s.flightplanEntries, s.payloadDb, s.payloadsEntries)

theorem ram_status (c : Config) : StatusLaws (ramStorage c) c (fun s => ∃ status, Ready c s status)
    ramCell otherMemory writeCell where
  read := by
    rintro s k ⟨status, ready⟩ bound
    rw [readStatusCopy_ready ready bound, ramCell, ready.statusEq]
    rfl
  set := by
    rintro s k value ⟨status, ready⟩ bound
    rw [writeCell, ready.statusEq]
    exact statusSet_ready ready value bound
  good_write := by
    rintro s k value ⟨status, ready⟩ -
    rw [writeCell, ready.statusEq]
    exact ⟨_, ready.withStatus _⟩
  cell_write := by
    rintro s k value j ⟨status, ready⟩ - -
    simp only [ramCell, writeCell, ready.statusEq, Option.map_some, Function.update_apply]
    split <;> rfl
  rest_write _ _ _ := rfl

/-! What the sections of a payload hold. -/

def Stored (m : PayloadMap) (db : Mem) (cells : Nat → Nat → List UInt8) : Prop :=
  ∀ p < m.lastSensor, ∀ i, HasRoom m.toDataMap p i →
    read db (place (m.size p) p i) (m.size p) = cells p i

structure Samples (c : Config) (m : PayloadMap) (s : RamStore) (index : Nat → Nat)
    (cells : Nat → Nat → List UInt8) : Prop where
  ready : ∃ status, Ready c s status
  memory : ∃ db, s.payloadDb = some db ∧ Stored m db cells
  entries : s.payloadsEntries = m.lastSensor
  index : ∀ p < m.lastSensor,
    voted c (ramCell s) (m.sysIndex p) = some (Int32.ofNat (index p)).toUInt32

variable {c : Config} {m : PayloadMap} {s : RamStore} {index : Nat → Nat}
  {cells : Nat → Nat → List UInt8} {p : Nat}

theorem size_fits (sized : Sized m.toDataMap) (known : p < m.lastSensor) :
    m.size p ≤ schSizePerSection := by
  have small := sized.size_lt p known
  simp only [schSizePerSection]
  omega

theorem mapped (schema : Schema c m) (known : p < m.lastSensor) : Mapped c m.toDataMap p where
  known := known
  filled := schema.filled p known
  fits := size_fits schema.toSized known
  variable_lt := schema.index_lt p known

theorem place_between (sized : Sized m.toDataMap) (known : p < m.lastSensor) {i : Nat}
    (room : HasRoom m.toDataMap p i) :
    p * schSectionsPerPayload * schSizePerSection ≤ place (m.size p) p i ∧
      place (m.size p) p i + m.size p ≤
        (p + 1) * schSectionsPerPayload * schSizePerSection := by
  constructor
  · unfold place
    rw [Nat.add_mul]
    omega
  · exact place_bound (m := ⟨p + 1, m.size, m.sysIndex⟩) (sized.filled p known)
      (size_fits sized known) (Nat.lt_succ_self p) room

theorem payloads_apart {q : Nat} (before : p < q) :
    (p + 1) * schSectionsPerPayload * schSizePerSection ≤
      q * schSectionsPerPayload * schSizePerSection :=
  Nat.mul_le_mul_right _ (Nat.mul_le_mul_right _ before)

theorem places_disjoint (sized : Sized m.toDataMap) {q i j : Nat} (known : p < m.lastSensor)
    (known' : q < m.lastSensor) (room : HasRoom m.toDataMap p i) (room' : HasRoom m.toDataMap q j)
    (ne : ¬ (q = p ∧ j = i)) :
    place (m.size p) p i + m.size p ≤ place (m.size q) q j ∨
      place (m.size q) q j + m.size q ≤ place (m.size p) p i := by
  have own := place_between sized known room
  have other := place_between sized known' room'
  rcases Nat.lt_trichotomy p q with before | rfl | after
  · have := payloads_apart before
    omega
  · have filled := sized.filled p known
    have fits := size_fits sized known
    rcases Nat.lt_or_gt_of_ne (show i ≠ j by omega) with less | more
    · exact .inl (place_apart filled fits less)
    · exact .inr (place_apart filled fits more)
  · have := payloads_apart after
    omega

theorem stored_write (schema : Schema c m) {db : Mem} (stored : Stored m db cells)
    (known : p < m.lastSensor) {i : Nat} (room : HasRoom m.toDataMap p i) {data : List UInt8}
    (size : data.length = m.size p) :
    Stored m (write db (place (m.size p) p i) data)
      (Function.update cells p (Function.update (cells p) i data)) := by
  intro q known' j room'
  by_cases same : q = p ∧ j = i
  · obtain ⟨rfl, rfl⟩ := same
    rw [Function.update_self, Function.update_self, ← size, read_write_same]
  · have apart := places_disjoint schema.toSized known known' room room' same
    rw [read_write_disjoint _ _ _ _ _ (size.symm ▸ apart), stored q known' j room']
    by_cases own : q = p
    · subst own
      have ne : j ≠ i := fun eq => same ⟨rfl, eq⟩
      rw [Function.update_self, Function.update_of_ne ne]
    · rw [Function.update_of_ne own]

theorem read_fill_inside {db : Mem} {a b n len : Nat} (low : a ≤ b) (high : b + n ≤ a + len) :
    read (fill db a len 0) b n = List.replicate n 0 := by
  rw [List.eq_replicate_iff]
  refine ⟨read_length _ _ _, fun byte mem => ?_⟩
  obtain ⟨k, bound, rfl⟩ := List.mem_map.mp mem
  have bound := List.mem_range.mp bound
  simp only [fill]
  rw [if_pos (by omega)]

theorem read_fill_outside {db : Mem} {a b n len : Nat} (apart : b + n ≤ a ∨ a + len ≤ b) :
    read (fill db a len 0) b n = read db b n := by
  apply read_congr
  intro x low high
  simp only [fill]
  rw [if_neg (by omega)]

theorem stored_clear (schema : Schema c m) {db : Mem} (stored : Stored m db cells) (p : Nat) :
    Stored m (fill db (p * schSectionsPerPayload * schSizePerSection)
        (schSizePerSection * schSectionsPerPayload) 0)
      (Function.update cells p fun _ => List.replicate (m.size p) 0) := by
  have total : (p + 1) * schSectionsPerPayload * schSizePerSection =
      p * schSectionsPerPayload * schSizePerSection + schSizePerSection * schSectionsPerPayload := by
    rw [Nat.add_mul, Nat.add_mul, Nat.one_mul, Nat.mul_comm schSizePerSection]
  intro q known' j room'
  have other := place_between schema.toSized known' room'
  rcases Nat.lt_trichotomy p q with before | rfl | after
  · have := payloads_apart before
    rw [Function.update_of_ne (by omega), read_fill_outside (by omega), stored q known' j room']
  · rw [Function.update_self, read_fill_inside other.1 (by omega)]
  · have := payloads_apart after
    rw [Function.update_of_ne (by omega), read_fill_outside (by omega), stored q known' j room']

/-! The calls of the repository. -/

theorem Samples.working (samples : Samples c m s index cells) :
    ∃ status db, Working c m.toDataMap s status db ∧ Stored m db cells := by
  obtain ⟨⟨status, ready⟩, ⟨db, payloadEq, stored⟩, entries, -⟩ := samples
  exact ⟨status, db, ⟨ready, payloadEq, entries⟩, stored⟩

theorem Samples.of_status {s₁ s' : RamStore} {index' : Nat → Nat}
    {cells' : Nat → Nat → List UInt8} {db : Mem} (ready : ∃ status, Ready c s' status)
    (same : otherMemory s' = otherMemory s₁) (payloadEq : s₁.payloadDb = some db)
    (stored : Stored m db cells') (entries : s₁.payloadsEntries = m.lastSensor)
    (moved : ∀ p < m.lastSensor,
      voted c (ramCell s') (m.sysIndex p) = some (Int32.ofNat (index' p)).toUInt32) :
    Samples c m s' index' cells' where
  ready := ready
  memory := by
    have payload : s'.payloadDb = s₁.payloadDb := congrArg (fun r => r.2.2.1) same
    exact ⟨db, payload.trans payloadEq, stored⟩
  entries := by
    have payloads : s'.payloadsEntries = s₁.payloadsEntries := congrArg (fun r => r.2.2.2) same
    exact payloads.trans entries
  index := moved

theorem add_samples (schema : Schema c m) (samples : Samples c m s index cells)
    (known : p < m.lastSensor) (room : HasRoom m.toDataMap p (index p)) {data : List UInt8}
    (log : 4 ≤ data.length) (whole : m.size p ≤ data.length) :
    ∃ s', datAddPayloadSample (ramPayloadTables c).toPayloadStorage c m.toDataMap s data p =
        some (0, s') ∧
      Samples c m s' (Function.update index p (index p + 1))
        (Function.update cells p
          (Function.update (cells p) (index p) (data.take (m.size p)))) ∧
      ∀ j < c.datStatusLastAddress, j ≠ m.sysIndex p →
        voted c (ramCell s') j = voted c (ramCell s) j := by
  obtain ⟨status, db, working, stored⟩ := samples.working
  have mapped := mapped schema known
  have size := List.length_take_of_le whole
  have found := getSampleAddress_eq mapped working room
  have bound := place_bound mapped.filled mapped.fits mapped.known room
  rw [← size] at found bound
  have set := setData_at working found bound
  rw [size] at set
  have ready := (working.withSamples (write db (place (m.size p) p (index p))
    (data.take (m.size p)))).toReady
  obtain ⟨s', add, ready', same, vote⟩ := datAddPayloadSample_spec (S := ramPayloadTables c)
    (ram_status c) schema known samples.ready (samples.index p known) log whole set ⟨_, ready⟩ rfl
  refine ⟨s', add, .of_status ready' same rfl (stored_write schema stored known room size)
    samples.entries ?_, fun j hj ne => ?_⟩
  · intro q known'
    rw [vote _ (schema.index_lt q known')]
    by_cases own : q = p
    · subst own
      rw [if_pos rfl, Function.update_self, ofNat_add_one]
    · rw [if_neg (schema.index_ne known known' own), Function.update_of_ne own, samples.index q known']
  · rw [vote j hj, if_neg ne]

theorem delete_samples (schema : Schema c m) (samples : Samples c m s index cells)
    (known : p < m.lastSensor) :
    ∃ s', datDeletePayload (ramPayloadTables c) c m s p = some (schStOk, s') ∧
      Samples c m s' (Function.update index p 0)
        (Function.update cells p fun _ => List.replicate (m.size p) 0) ∧
      ∀ j < c.datStatusLastAddress, j ≠ m.sysIndex p → j ≠ m.sysAck p →
        voted c (ramCell s') j = voted c (ramCell s) j := by
  obtain ⟨status, db, working, stored⟩ := samples.working
  have reset : (ramPayloadTables c).storagePayloadResetTable s p = some (schStOk,
      { s with payloadDb := some (fill db (p * schSectionsPerPayload * schSizePerSection)
        (schSizePerSection * schSectionsPerPayload) 0) }) := by
    have inside : ¬ (s.payloadsEntries : Int) ≤ p := by
      rw [samples.entries]
      omega
    have sign : ¬ (p : Int) < 0 := by omega
    simp [ramPayloadTables, storagePayloadResetTable, working.isOpen, inside, sign,
      working.payloadEq]
  have ready := (working.withSamples (fill db (p * schSectionsPerPayload * schSizePerSection)
    (schSizePerSection * schSectionsPerPayload) 0)).toReady
  obtain ⟨s', delete, ready', same, vote⟩ :=
    datDeletePayload_spec (ram_status c) schema known reset ⟨_, ready⟩ rfl
  refine ⟨s', delete, .of_status ready' same rfl (stored_clear schema stored p) samples.entries ?_,
    fun j hj index ack => ?_⟩
  · intro q known'
    rw [vote _ (schema.index_lt q known')]
    by_cases own : q = p
    · subst own
      rw [if_pos (.inr rfl), Function.update_self]
      rfl
    · rw [if_neg (schema.index_kept known known' own), Function.update_of_ne own,
        samples.index q known']
  · rw [vote j hj, if_neg (not_or.mpr ⟨ack, index⟩)]

theorem flightPlanReset_memory (s : RamStore) :
    ∃ ret s', (ramStorage c).storageFlightPlanReset s = some (ret, s') ∧
      s'.storageIsOpen = s.storageIsOpen ∧ s'.statusDb = s.statusDb ∧
      s'.statusEntries = s.statusEntries ∧ s'.payloadDb = s.payloadDb ∧
      s'.payloadsEntries = s.payloadsEntries := by
  simp only [ramStorage, storageFlightPlanReset]
  split
  · exact ⟨_, _, rfl, rfl, rfl, rfl, rfl, rfl⟩
  · split
    · exact ⟨_, _, rfl, rfl, rfl, rfl, rfl, rfl⟩
    · split <;> exact ⟨_, _, rfl, rfl, rfl, rfl, rfl, rfl⟩

theorem deleteMemorySections_samples (schema : Schema c m) (samples : Samples c m s index cells) :
    ∃ ret s', datDeleteMemorySections (ramPayloadTables c).toStorage c s = some (ret, s') ∧
      Samples c m s' (fun _ => 0) (fun p _ => List.replicate (m.size p) 0) := by
  obtain ⟨status, db, working, stored⟩ := samples.working
  have payloads : (ramPayloadTables c).storagePayloadReset s =
      some (schStOk, { s with payloadDb := some fun _ => 0 }) := by
    simp [ramPayloadTables, ramPayloadStorage, ramStorage, RamStorage.storagePayloadReset,
      storageTablePayloadInit, working.isOpen]
  obtain ⟨ret, s₂, plan, isOpen, statusDb, statusEntries, payloadDb, entries⟩ :=
    flightPlanReset_memory (c := c) { s with payloadDb := some fun _ => 0 }
  have ready : Ready c s₂ status := ⟨isOpen.trans working.isOpen, statusDb.trans working.statusEq,
    statusEntries.trans working.entriesEq⟩
  have cells_eq : ramCell s₂ = ramCell s := by
    funext k
    rw [ramCell, statusDb]
    rfl
  obtain ⟨s', delete, ready', same, vote⟩ :=
    datDeleteMemorySections_spec (S := ramPayloadTables c) (ram_status c) schema payloads plan
      ⟨_, ready⟩ cells_eq
  refine ⟨ret, s', delete, .of_status ready' same payloadDb ?_ (entries.trans samples.entries) ?_⟩
  · intro p known i room
    exact List.eq_replicate_iff.mpr ⟨read_length _ _ _, fun byte mem => by
      obtain ⟨k, -, rfl⟩ := List.mem_map.mp mem
      rfl⟩
  · intro p known
    rw [vote _ (schema.index_lt p known), if_pos (.inr ⟨p, known, rfl⟩)]
    rfl

theorem resetStatusVars_samples (schema : Schema c m) (samples : Samples c m s index cells) :
    ∃ s', datResetStatusVars (ramPayloadTables c).toStorage c s = some (schStOk, s') ∧
      Samples c m s' (fun _ => 0) cells := by
  obtain ⟨status, db, working, stored⟩ := samples.working
  obtain ⟨s', reset, ready, same, vote⟩ := datResetStatusVars_spec (ram_status c) samples.ready
  refine ⟨s', reset, .of_status ready same working.payloadEq stored samples.entries ?_⟩
  intro p known
  rw [vote _ (schema.index_lt p known), schema.start p known]
  rfl

/-! Reads. -/

theorem read_samples (schema : Schema c m) (samples : Samples c m s index cells)
    (known : p < m.lastSensor) {i : Nat} (room : HasRoom m.toDataMap p i) :
    datGetPayloadSample (ramPayloadTables c) m s p (Int32.ofNat i) = some (.ok (cells p i)) := by
  obtain ⟨status, db, working, stored⟩ := samples.working
  have read := sampleAt_working (mapped schema known) working room
  rw [stored p known i room] at read
  exact read

theorem index_samples (schema : Schema c m) (samples : Samples c m s index cells)
    (known : p < m.lastSensor) :
    datGetSystemVar (ramPayloadTables c).toStorage c s (m.sysIndex p) =
      some (Int32.ofNat (index p)) := by
  have read := datGetSystemVar_eq (ram_status c) samples.ready (schema.index_lt p known)
  rw [samples.index p known, Option.map_some, Int32.toInt32_toUInt32] at read
  exact read

/-! The start. -/

theorem datRepoInit_defaults (c : Config) (lastSensor : Nat) :
    ∃ s₀, datRepoInit c lastSensor = some s₀ ∧ (∃ status, Ready c s₀ status) ∧
      s₀.payloadDb = some (fun _ => 0) ∧ s₀.payloadsEntries = lastSensor ∧
      ∀ j < c.datStatusLastAddress, voted c (ramCell s₀) j = some (c.statusDefault j) := by
  let opened : RamStore :=
    { unopened with storageIsOpen := true, statusDb := some fun _ => 0,
                    statusEntries := statusCopies c * c.datStatusLastVar }
  have ready : Ready c opened fun _ => 0 := ⟨rfl, rfl, rfl⟩
  obtain ⟨s₁, reset, ⟨status, ready₁⟩, rest, vote⟩ :=
    datResetStatusVars_spec (ram_status c) ⟨_, ready⟩
  have plan : s₁.flightplanDb = none := congrArg Prod.fst rest
  have payload : s₁.payloadDb = none := congrArg (fun r => r.2.2.1) rest
  let booted : RamStore :=
    { s₁ with payloadDb := some fun _ => 0, payloadsEntries := lastSensor,
              flightplanDb := some fun _ => fpEntryClear c.schCommNode,
              flightplanEntries := schFpMaxEntries }
  refine ⟨booted, ?_, ⟨status, ready₁.isOpen, ready₁.statusEq, ready₁.entriesEq⟩, rfl, rfl, vote⟩
  simp only [opened, unopened] at reset
  simp only [datRepoInit, storageInit, storageTableStatusInit, unopened, Bool.not_true,
    Bool.false_eq_true, ↓reduceIte, Option.isSome_none, Bool.false_and, reset]
  simp [storageTablePayloadInit, storageTableFlightPlanInit, ready₁.isOpen, payload, plan, booted]

theorem datRepoInit_samples (schema : Schema c m) :
    ∃ s₀, datRepoInit c m.lastSensor = some s₀ ∧
      Samples c m s₀ (fun _ => 0) (fun p _ => read (fun _ => 0) 0 (m.size p)) := by
  obtain ⟨s₀, boot, ready, memory, entries, defaults⟩ := datRepoInit_defaults c m.lastSensor
  refine ⟨s₀, boot, ready, ⟨_, memory, fun p known i room => rfl⟩, entries, fun p known => ?_⟩
  rw [defaults _ (schema.index_lt p known), schema.start p known]
  rfl

end RamSamples
