import SuchaiFlight.RamPayloadLists
import SuchaiFlight.SqliteSamples

/-!
The RAM and the SQLite payload stores side by side, over histories that stay
within the capacity of the RAM back end. A reset of the status variables moves
the indices back over samples that both keep: the next additions write over
them in RAM, but add rows behind them in the database.
-/
namespace PayloadBackEnds
open ByteMemory CStrings StorageApi RepoData StatusVariables PayloadData PayloadCalls
open RamPayload RamSamples SqliteStorage SqlitePayload SqliteSamples

inductive StoreCall where
  | change (call : PayloadCall)
  | get (payload index : Nat)

inductive Reply where
  | code (rc : Int32)
  | sample (result : Except Int32 (List UInt8))

def reply {σ : Type} (S : PayloadTables σ) (c : Config) (m : PayloadMap) (s : σ) :
    StoreCall → Option (Reply × σ)
  | .change call => (stepPayload S c m s call).map fun r => (.code r.1, r.2)
  | .get p i => (datGetPayloadSample S m s p (Int32.ofNat i)).map fun res => (.sample res, s)

def SameReplies (endian : Endian) (c : Config) (m : SqliteMap) :
    RamStorage.RamStore → SqliteStore → List StoreCall → Prop
  | _, _, [] => True
  | r, q, call :: rest => ∃ answer r' q',
      reply (ramPayloadTables c) c m.toPayloadMap r call = some (answer, r') ∧
      reply (sqlitePayloadTables endian m) c m.toPayloadMap q call = some (answer, q') ∧
      SameReplies endian c m r' q' rest

/-! What a history says about the stores. -/

/-- The indices, whether their status variables have been written since the
    boot, and the samples added to each payload since its last deletion, with
    the index that each was added at. -/
structure History where
  index : Nat → Nat
  written : Nat → Bool
  added : Nat → List (Nat × List UInt8)

def booted : History := ⟨fun _ => 0, fun _ => false, fun _ => []⟩

def after (m : SqliteMap) (h : History) : StoreCall → History
  | .change (.add data p) =>
    { h with index := Function.update h.index p (h.index p + 1)
             added := Function.update h.added p
               (h.added p ++ [(h.index p, data.take (m.size p))]) }
  | .change (.delete p) =>
    { index := Function.update h.index p 0
      written := Function.update h.written p true
      added := Function.update h.added p [] }
  | .change .resetStatusVars => { h with index := fun _ => 0, written := fun _ => true }
  | .change .deleteMemorySections => h
  | .get _ _ => h

def Allowed (m : SqliteMap) (h : History) : StoreCall → Prop
  | .change (.add data p) =>
    p < m.lastSensor ∧ m.size p ≤ data.length ∧ HasRoom m.toDataMap p (h.index p)
  | .change (.delete p) => p < m.lastSensor
  | .change .resetStatusVars => True
  | .change .deleteMemorySections => False
  | .get p i => p < m.lastSensor ∧ i < h.index p

def Within (m : SqliteMap) : History → List StoreCall → Prop
  | _, [] => True
  | h, call :: rest => Allowed m h call ∧ Within m (after m h call) rest

def lastAt (added : List (Nat × List UInt8)) (i : Nat) : Option (List UInt8) :=
  firstAt added.reverse i

/-- An addition finds its index in the database and fits the statement, and a
    read finds the oldest sample at its place to be the newest. -/
def Agrees (endian : Endian) (m : SqliteMap) (h : History) : StoreCall → Prop
  | .change (.add data p) =>
    h.written p = true ∧ 4 ≤ data.length ∧
      InsertFits endian m p (Int32.ofNat (h.index p)) (data.take (m.size p))
  | .get p i => Spaced m p ∧ firstAt (h.added p) i = lastAt (h.added p) i
  | .change _ => True

def Agreeing (endian : Endian) (m : SqliteMap) : History → List StoreCall → Prop
  | _, [] => True
  | h, call :: rest => Agrees endian m h call ∧ Agreeing endian m (after m h call) rest

variable {e : Endian} {c : Config} {m : SqliteMap} {r r' : RamStorage.RamStore}
  {q q' : SqliteStore} {h : History} {added : List (Nat × List UInt8)} {i j : Nat}

theorem lastAt_append (data : List UInt8) :
    lastAt (added ++ [(i, data)]) j = if j = i then some data else lastAt added j := by
  rw [lastAt, List.reverse_append, List.reverse_singleton, List.singleton_append, firstAt,
    List.find?_cons]
  by_cases here : j = i
  · subst here
    simp
  · have other : ¬ i = j := fun eq => here eq.symm
    simp [here, other, lastAt, firstAt]

theorem firstAt_of_lastAt {data : List UInt8} (last : lastAt added i = some data) :
    ∃ first, firstAt added i = some first := by
  obtain ⟨a, found, rfl⟩ := Option.map_eq_some_iff.mp last
  have mem := List.mem_reverse.mp (List.mem_of_find?_eq_some found)
  have place := List.find?_some found
  cases first : added.find? fun a => a.1 = i with
  | none => exact absurd place (List.find?_eq_none.mp first a mem)
  | some b => exact ⟨b.2, by rw [firstAt, first]; rfl⟩

def knownIndex (h : History) (p : Nat) : Option Nat :=
  if h.written p then some (h.index p) else none

def Mirrors (endian : Endian) (c : Config) (m : SqliteMap) (r : RamStorage.RamStore)
    (q : SqliteStore) (h : History) : Prop :=
  ∃ cells, Samples c m.toPayloadMap r h.index cells ∧
    Database endian c m q (knownIndex h) h.added ∧
    ∀ p < m.lastSensor, ∀ i < h.index p,
      HasRoom m.toDataMap p i ∧ lastAt (h.added p) i = some (cells p i)

/-! One call. -/

theorem add_replies (schema : NumberSchema c m)
    (mirrors : Mirrors e c m r q h) {data : List UInt8} {p : Nat}
    (allowed : Allowed m h (.change (.add data p))) :
    (Agrees e m h (.change (.add data p)) → ∃ r' q',
      datAddPayloadSample (ramPayloadTables c).toPayloadStorage c m.toDataMap r data p =
        some (0, r') ∧
      datAddPayloadSample (sqlitePayloadTables e m).toPayloadStorage c m.toDataMap q data p =
        some (0, q') ∧
      Mirrors e c m r' q' (after m h (.change (.add data p)))) ∧
    (∀ rc r' q',
      datAddPayloadSample (ramPayloadTables c).toPayloadStorage c m.toDataMap r data p =
        some (rc, r') →
      datAddPayloadSample (sqlitePayloadTables e m).toPayloadStorage c m.toDataMap q data p =
        some (rc, q') → Agrees e m h (.change (.add data p))) := by
  obtain ⟨cells, samples, db, held⟩ := mirrors
  obtain ⟨known, whole, room⟩ := allowed
  constructor
  · rintro ⟨written, log, insert⟩
    obtain ⟨r', ram, samples', -⟩ :=
      add_samples schema.toSchema samples known room log whole
    have place : knownIndex h p = some (h.index p) := by rw [knownIndex, if_pos written]
    have small := room_lt room
    obtain ⟨q', sqlite, db'⟩ :=
      add_database schema db known place (by omega) log whole insert
    refine ⟨r', q', ram, sqlite, _, samples', ?_, ?_⟩
    · have moved : knownIndex (after m h (.change (.add data p))) =
          Function.update (knownIndex h) p (some (h.index p + 1)) := by
        funext u
        by_cases own : u = p
        · subst own
          simp [knownIndex, after, written]
        · simp [knownIndex, after, own]
      rw [moved]
      exact db'
    · intro u known' i below
      by_cases own : u = p
      · subst own
        simp only [after, Function.update_self] at below ⊢
        rw [lastAt_append]
        rcases Nat.lt_or_eq_of_le (Nat.le_of_lt_succ below) with old | rfl
        · rw [if_neg (by omega), Function.update_of_ne (by omega)]
          exact held u known i old
        · rw [if_pos rfl, Function.update_self]
          exact ⟨room, rfl⟩
      · simp only [after, Function.update_of_ne own] at below ⊢
        exact held u known' i below
  · intro rc r' q' ram sqlite
    by_cases log : 4 ≤ data.length
    · obtain ⟨r₁, ram₁, -, -⟩ := add_samples schema.toSchema samples known room log whole
      cases ram.symm.trans ram₁
      by_contra wrong
      refine add_refused schema db known whole (fun i place insert => wrong ?_) q' sqlite
      rw [knownIndex] at place
      split at place
      · rename_i written
        cases place
        exact ⟨written, log, insert⟩
      · cases place
    · rw [datAddPayloadSample, if_neg fun ready => log ready.2.1] at ram
      cases ram

theorem delete_replies (schema : NumberSchema c m) (mirrors : Mirrors e c m r q h) {p : Nat}
    (known : p < m.lastSensor) :
    ∃ r' q', datDeletePayload (ramPayloadTables c) c m.toPayloadMap r p = some (schStOk, r') ∧
      datDeletePayload (sqlitePayloadTables e m) c m.toPayloadMap q p = some (schStOk, q') ∧
      Mirrors e c m r' q' (after m h (.change (.delete p))) := by
  obtain ⟨cells, samples, db, held⟩ := mirrors
  obtain ⟨r', ram, samples', -⟩ := delete_samples schema.toSchema samples known
  obtain ⟨q', sqlite, db'⟩ := delete_database schema db known
  refine ⟨r', q', ram, sqlite, _, samples', ?_, ?_⟩
  · have moved : knownIndex (after m h (.change (.delete p))) =
        Function.update (knownIndex h) p (some 0) := by
      funext u
      by_cases own : u = p
      · subst own
        simp [knownIndex, after]
      · simp [knownIndex, after, own]
    rw [moved]
    exact db'
  · intro u known' i below
    by_cases own : u = p
    · subst own
      simp [after] at below
    · simp only [after, Function.update_of_ne own] at below ⊢
      exact held u known' i below

theorem resetStatusVars_replies (schema : NumberSchema c m)
    (mirrors : Mirrors e c m r q h) :
    ∃ r' q', datResetStatusVars (ramPayloadTables c).toStorage c r = some (schStOk, r') ∧
      datResetStatusVars (sqlitePayloadTables e m).toStorage c q = some (schStOk, q') ∧
      Mirrors e c m r' q' (after m h (.change .resetStatusVars)) := by
  obtain ⟨cells, samples, db, held⟩ := mirrors
  obtain ⟨r', ram, samples'⟩ := resetStatusVars_samples schema.toSchema samples
  obtain ⟨q', sqlite, db'⟩ := resetStatusVars_database schema db
  exact ⟨r', q', ram, sqlite, cells, samples', db', fun p known i below => absurd below
    (Nat.not_lt_zero i)⟩

theorem get_replies (schema : NumberSchema c m) (fits : ∀ p < m.lastSensor, TableFits m p)
    (mirrors : Mirrors e c m r q h) {p : Nat} (allowed : Allowed m h (.get p i)) :
    datGetPayloadSample (ramPayloadTables c) m.toPayloadMap r p (Int32.ofNat i) =
        datGetPayloadSample (sqlitePayloadTables e m) m.toPayloadMap q p (Int32.ofNat i) ↔
      Agrees e m h (.get p i) := by
  obtain ⟨cells, samples, db, held⟩ := mirrors
  obtain ⟨known, below⟩ := allowed
  obtain ⟨room, last⟩ := held p known i below
  have small := room_lt room
  obtain ⟨first, oldest⟩ := firstAt_of_lastAt last
  obtain ⟨unspaced, spaced⟩ := getData_eq schema known (fits p known).names db.created
    (db.tables p known) (i := i) (by omega)
  have ram := read_samples schema.toSchema samples known room
  have sqlite : datGetPayloadSample (sqlitePayloadTables e m) m.toPayloadMap q p
    (Int32.ofNat i) = storagePayloadGetData e m q p (Int32.ofNat i) (m.size p) := rfl
  rw [ram, sqlite, Agrees, last, oldest]
  by_cases apart : Spaced m p
  · rw [spaced apart first oldest]
    simp [apart, eq_comm]
  · rw [unspaced apart]
    simp [apart]

/-! Histories. -/

theorem call_replies (schema : NumberSchema c m) (fits : ∀ p < m.lastSensor, TableFits m p)
    (mirrors : Mirrors e c m r q h) {call : StoreCall} (allowed : Allowed m h call) :
    (Agrees e m h call → ∃ answer r' q',
      reply (ramPayloadTables c) c m.toPayloadMap r call = some (answer, r') ∧
      reply (sqlitePayloadTables e m) c m.toPayloadMap q call = some (answer, q') ∧
      Mirrors e c m r' q' (after m h call)) ∧
    (∀ answer r' q',
      reply (ramPayloadTables c) c m.toPayloadMap r call = some (answer, r') →
      reply (sqlitePayloadTables e m) c m.toPayloadMap q call = some (answer, q') →
      Agrees e m h call) := by
  cases call with
  | get p i =>
    have same := get_replies schema fits mirrors allowed
    have ram := read_samples schema.toSchema mirrors.choose_spec.1 allowed.1
      (mirrors.choose_spec.2.2 p allowed.1 i allowed.2).1
    constructor
    · intro agrees
      have sqlite := (same.mpr agrees).symm.trans ram
      exact ⟨_, r, q, by rw [reply, ram]; rfl, by rw [reply, sqlite]; rfl, mirrors⟩
    · intro answer r' q' one two
      obtain ⟨res, ramRead, ramEq⟩ := Option.map_eq_some_iff.mp one
      obtain ⟨res', sqliteRead, sqliteEq⟩ := Option.map_eq_some_iff.mp two
      cases ramEq
      cases sqliteEq
      exact same.mp (ramRead.trans sqliteRead.symm)
  | change call =>
    cases call with
    | add data p =>
      obtain ⟨agree, only⟩ := add_replies schema mirrors allowed
      constructor
      · intro agrees
        obtain ⟨r', q', ram, sqlite, mirrors'⟩ := agree agrees
        exact ⟨.code 0, r', q', by rw [reply, stepPayload, ram]; rfl,
          by rw [reply, stepPayload, sqlite]; rfl, mirrors'⟩
      · intro answer r' q' one two
        obtain ⟨⟨rc, r₁⟩, ram, ramEq⟩ := Option.map_eq_some_iff.mp one
        obtain ⟨⟨rc', q₁⟩, sqlite, sqliteEq⟩ := Option.map_eq_some_iff.mp two
        cases ramEq
        cases sqliteEq
        exact only rc _ _ ram sqlite
    | delete p =>
      obtain ⟨r', q', ram, sqlite, mirrors'⟩ := delete_replies schema mirrors allowed
      exact ⟨fun _ => ⟨.code schStOk, r', q', by rw [reply, stepPayload, ram]; rfl,
        by rw [reply, stepPayload, sqlite]; rfl, mirrors'⟩, fun _ _ _ _ _ => trivial⟩
    | resetStatusVars =>
      obtain ⟨r', q', ram, sqlite, mirrors'⟩ := resetStatusVars_replies schema mirrors
      exact ⟨fun _ => ⟨.code schStOk, r', q', by rw [reply, stepPayload, ram]; rfl,
        by rw [reply, stepPayload, sqlite]; rfl, mirrors'⟩, fun _ _ _ _ _ => trivial⟩
    | deleteMemorySections => exact allowed.elim

theorem sameReplies_iff (schema : NumberSchema c m) (fits : ∀ p < m.lastSensor, TableFits m p)
    {calls : List StoreCall} (mirrors : Mirrors e c m r q h) (within : Within m h calls) :
    SameReplies e c m r q calls ↔ Agreeing e m h calls := by
  induction calls generalizing r q h with
  | nil => exact Iff.rfl
  | cons call rest ih =>
    obtain ⟨allowed, later⟩ := within
    obtain ⟨agree, only⟩ := call_replies schema fits mirrors allowed
    constructor
    · rintro ⟨answer, r₁, q₁, ram, sqlite, more⟩
      have agrees := only answer r₁ q₁ ram sqlite
      obtain ⟨answer', r', q', ram', sqlite', mirrors'⟩ := agree agrees
      cases ram.symm.trans ram'
      cases sqlite.symm.trans sqlite'
      exact ⟨agrees, (ih mirrors' later).mp more⟩
    · rintro ⟨agrees, more⟩
      obtain ⟨answer, r', q', ram, sqlite, mirrors'⟩ := agree agrees
      exact ⟨answer, r', q', ram, sqlite, (ih mirrors' later).mpr more⟩

theorem booted_mirrors (schema : NumberSchema c m) (fits : ∀ p < m.lastSensor, TableFits m p) :
    ∃ r q, RamStorage.datRepoInit c m.lastSensor = some r ∧ SqlitePayload.datRepoInit m = some q ∧
      Mirrors e c m r q booted := by
  obtain ⟨r, ram, cells, samples, -⟩ := RamPayloadLists.datRepoInit_represented schema.toSchema
  obtain ⟨q, sqlite, db⟩ := (datRepoInit_database (e := e) schema).1 fits
  exact ⟨r, q, ram, sqlite, cells, samples, db, fun p known i below =>
    absurd below (Nat.not_lt_zero i)⟩

/-- From the boot on, with a new database, both back ends give the same results
    if and only if the texts of the schema fit their buffers and every call of
    the history agrees. -/
theorem ram_sqlite_replies_iff (schema : NumberSchema c m) {calls : List StoreCall}
    (within : Within m booted calls) :
    (∃ r q, RamPayloadLists.repoInit c m.lastSensor = some r ∧
        SqlitePayload.datRepoInit m = some q ∧ SameReplies e c m r q calls) ↔
      m.lastSensor ≤ 819 ∧ (∀ p < m.lastSensor, TableFits m p) ∧
        Agreeing e m booted calls := by
  rw [RamPayloadLists.repoInit_eq]
  by_cases fits : ∀ p < m.lastSensor, TableFits m p
  · obtain ⟨r, q, ram, sqlite, mirrors⟩ := booted_mirrors (e := e) schema fits
    have same := sameReplies_iff schema fits mirrors within
    constructor
    · rintro ⟨r₁, q₁, boot, boot', replies⟩
      split at boot
      · rename_i few
        cases ram.symm.trans boot
        cases sqlite.symm.trans boot'
        exact ⟨few, fits, same.mp replies⟩
      · cases boot
    · rintro ⟨few, -, agreeing⟩
      exact ⟨r, q, by rw [if_pos few, ram], sqlite, same.mpr agreeing⟩
  · have none := (datRepoInit_database (e := e) schema).2 fits
    constructor
    · rintro ⟨-, q, -, boot, -⟩
      rw [none] at boot
      cases boot
    · rintro ⟨-, all, -⟩
      exact absurd all fits

def numberText : CString := ⟨[37, 100], by decide⟩
def nameText : CString := ⟨[118], by decide⟩

def oneNumber : SqliteMap :=
  { RamPayloadLists.onePayload 4 with
    table := fun _ => nameText
    dataOrder := fun _ => numberText
    varNames := fun _ => nameText
    table_lt := fun _ => by decide }

theorem tokens_number : tokens numberText = [numberText] := rfl

theorem oneNumber_schema : NumberSchema simpleConfig oneNumber where
  toSchema := RamPayloadLists.onePayload_schema (by decide) (by decide)
  numeric p _ t mem := by
    have text : t = numberText := by simpa [oneNumber, tokens_number] using mem
    exact .inl (congrArg CString.chars text)
  paired _ _ := rfl
  packed _ _ := rfl

theorem oneNumber_fits : ∀ p < oneNumber.lastSensor, TableFits oneNumber p := by
  intro p known
  obtain rfl : p = 0 := Nat.lt_one_iff.mp known
  constructor <;> decide

theorem oneNumber_insert {data : List UInt8} (some_digit : data ∈ [[1, 0, 0, 0], [2, 0, 0, 0]]) :
    InsertFits .little oneNumber 0 0 data := by
  rcases List.mem_pair.mp some_digit with rfl | rfl
  · exact ⟨by decide, ⟨by decide, trivial⟩, by decide⟩
  · exact ⟨by decide, ⟨by decide, trivial⟩, by decide⟩

def overwritten : List StoreCall :=
  [.change .resetStatusVars, .change (.add [1, 0, 0, 0] 0), .change .resetStatusVars,
    .change (.add [2, 0, 0, 0] 0)]

theorem overwritten_within : Within oneNumber booted (overwritten ++ [.get 0 0]) := by
  simp [Within, overwritten, Allowed, after, booted, oneNumber, RamPayloadLists.onePayload, HasRoom,
    schSectionsPerPayload, schSizePerSection]

theorem ram_sqlite_replies_overwritten :
    ∃ r q, RamPayloadLists.repoInit simpleConfig 1 = some r ∧
      SqlitePayload.datRepoInit oneNumber = some q ∧
      SameReplies .little simpleConfig oneNumber r q overwritten := by
  refine (ram_sqlite_replies_iff (e := .little) oneNumber_schema ?_).mpr
    ⟨by decide, oneNumber_fits, trivial, ⟨rfl, by decide, ?_⟩, trivial, ⟨rfl, by decide, ?_⟩,
      trivial⟩
  · obtain ⟨one, two, three, four, -⟩ := overwritten_within
    exact ⟨one, two, three, four, trivial⟩
  · exact oneNumber_insert (by decide)
  · exact oneNumber_insert (by decide)

theorem read_after_reset_differs :
    Within oneNumber booted (overwritten ++ [.get 0 0]) ∧
      ¬ ∃ r q, RamPayloadLists.repoInit simpleConfig 1 = some r ∧
        SqlitePayload.datRepoInit oneNumber = some q ∧
        SameReplies .little simpleConfig oneNumber r q (overwritten ++ [.get 0 0]) := by
  refine ⟨overwritten_within, ?_⟩
  rintro ⟨r₁, q₁, ram₁, sqlite₁, replies⟩
  obtain ⟨r, q, ram, sqlite, mirrors⟩ :=
    booted_mirrors (e := .little) oneNumber_schema oneNumber_fits
  rw [RamPayloadLists.repoInit_eq, if_pos (by decide)] at ram₁
  cases ram.symm.trans ram₁
  cases sqlite.symm.trans sqlite₁
  obtain ⟨-, -, -, -, read, -⟩ :=
    (sameReplies_iff oneNumber_schema oneNumber_fits mirrors overwritten_within).mp replies
  exact absurd read.2 (by decide)

end PayloadBackEnds
