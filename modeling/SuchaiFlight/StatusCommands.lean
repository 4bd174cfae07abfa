import SuchaiFlight.FlightPlanCommands
import SuchaiFlight.RamSamples
import SuchaiFlight.StatusTelemetry
import SuchaiFlight.Library.SignedWord

/-!
The commands `drp_set_var` and `drp_set_var_name` of `cmdDRP.c`, which set a
status variable by its address and by its name. Both read the value with `%f`
and convert it to the type of the variable.
-/
namespace StatusCommands
open CStrings TextScan StorageApi RepoData RepoCommand StatusVariables StatusTelemetry
open FlightPlanCommands SignedWord

def maxVarName : Nat := 24

def uninitialized : UInt8 := 255

def typeFloat : UInt8 := 102

/-- `strcmp` is defined for names with a terminator. A variable that is not found
    has no other field that is written. -/
def datGetStatusVarDefName (schema : StatusSchema) (name : CString) : DatSysVar :=
  let var : DatSysVar := ⟨0, [], 0, uninitialized, 0⟩
  (schema.datStatusList.find? fun var => stringAt var.name = some name).getD var

/-- `(int32_t) value` for the bits of a `float`, whose fraction is cut off. Only
    what is in range has a conversion. -/
def int32OfFloat (value : UInt32) : Option Int32 :=
  let exponent := value.toNat / 2 ^ 23 % 256
  let significand := 2 ^ 23 + value.toNat % 2 ^ 23
  let magnitude : Nat := if exponent < 127 then 0 else significand * 2 ^ (exponent - 127) / 2 ^ 23
  if exponent = 255 then none
  else intOf (if value.toNat < 2 ^ 31 then (magnitude : Int) else -(magnitude : Int))

example : int32OfFloat 0xC0880000 = some (-4) := by decide

def valueOf (type : UInt8) (value : UInt32) : Option UInt32 :=
  if type = typeFloat then some value else (int32OfFloat value).map Int32.toUInt32

/-- The formats `"%d %f"` and `"%s %f"` up to `%f`. -/
def drpSetVarFmt : List Directive := [.int, .space]
def drpSetVarNameFmt : List Directive := [.word, .space]

section Commands
variable {σ : Type} (S : Storage σ) (c : Config) (schema : StatusSchema)
  (strtof : CString → Option UInt32)

/-- What a `%f` after the format stores. `strtof` is the conversion of the C
    library, with the bits of the number. -/
def lastFloat (fmt : List Directive) (params : CString) : Option UInt32 := do
  strtof (beyond isSpace (← scanEnd fmt params))

def storeVariable (s : σ) (address : Nat) (variableDef : DatSysVar) (value : UInt32) :
    Option (Int32 × σ) := do
  let var ← valueOf variableDef.type value
  let (rc, s) ← datSetStatusVar S c s address var
  return (if rc = 0 then cmdOk else cmdError, s)

/-- The address is converted to an enumeration without negative values. The
    addresses of the list have 16 bits. -/
def drpUpdateSysVarIdx (fmt : List Directive) (params : Option CString) (nparams : Nat) (s : σ) :
    Option (Int32 × σ) :=
  match params with
  | none => some (cmdSyntaxError, s)
  | some params =>
    let items := sscanf fmt params
    let value := lastFloat strtof fmt params
    if assigned items + value.toList.length ≠ nparams then some (cmdSyntaxError, s)
    else match items, value with
      | [.int address], some value => do
        let address ← intOf address
        let varAddress := address.toUInt32.toNat
        if varAddress < schema.datStatusLastAddress then
          let variableDef :=
            if varAddress < 65536 then datGetStatusVarDef schema (UInt16.ofNat varAddress)
            else ⟨0, [], 0, 0, 0⟩
          storeVariable S c s varAddress variableDef value
        else return (cmdError, s)
      | _, _ => none

/-- `%s` has no width, so a word that does not fit `name` is written past it. The
    first message prints `name` before anything is stored in it. -/
def drpUpdateSysVarName (fmt : List Directive) (params : Option CString) (nparams : Nat) (s : σ) :
    Option (Int32 × σ) :=
  match params with
  | none => some (cmdSyntaxError, s)
  | some params =>
    if maxVarName < strlen params then some (cmdSyntaxError, s)
    else
      let items := sscanf fmt params
      let value := lastFloat strtof fmt params
      match items with
      | .word name :: rest =>
        if maxVarName ≤ strlen name then none
        else if assigned items + value.toList.length ≠ nparams then some (cmdSyntaxError, s)
        else match rest, value with
          | [], some value =>
            let variableDef := datGetStatusVarDefName schema name
            if variableDef.status = uninitialized then some (cmdError, s)
            else storeVariable S c s variableDef.address.toNat variableDef value
          | _, _ => none
      | _ => if assigned items + value.toList.length ≠ nparams then some (cmdSyntaxError, s) else none

end Commands

def idxParams (address : UInt16) (text : CString) : CString :=
  decimalText address.toNat ++ (blank ++ text)

def nameParams (name text : CString) : CString := name ++ (blank ++ text)

/-- The application is built with this list, whose names are distinct and shorter
    than their arrays. -/
structure Described (c : Config) (schema : StatusSchema) : Prop where
  addresses : c.datStatusLastAddress = schema.datStatusLastAddress
  names : ∀ var ∈ schema.datStatusList,
    ∃ name, strlen name < maxVarName ∧ var.name = charArray maxVarName name
  unique : (schema.datStatusList.map DatSysVar.name).Nodup

def SameEffect {σ : Type} (S : Storage σ) (c : Config) (schema : StatusSchema)
    (strtof : CString → Option UInt32) (s : σ) (address : UInt16) (name text : CString) : Prop :=
  ∃ result,
    drpUpdateSysVarIdx S c schema strtof drpSetVarFmt (some (idxParams address text)) 2 s =
      some result ∧
    drpUpdateSysVarName S c schema strtof drpSetVarNameFmt (some (nameParams name text)) 2 s =
      some result

/-! What the commands read. -/

section Read
variable {strtof : CString → Option UInt32} {name text : CString} {bits : UInt32}

theorem idx_items (address : UInt16) (text : CString) :
    sscanf drpSetVarFmt (idxParams address text) = [.int address.toNat] := by
  rw [sscanf, drpSetVarFmt, idxParams, scanFrom_int _ _ _ (blank_stops_digit text)]
  rfl

theorem idx_value (address : UInt16) (accepted : strtof (beyond isSpace text) = some bits) :
    lastFloat strtof drpSetVarFmt (idxParams address text) = some bits := by
  rw [lastFloat, drpSetVarFmt, idxParams, scanEnd_int _ _ (blank_stops_digit text)]
  simp only [scanEnd, Option.bind_eq_bind, Option.bind_some, beyond_beyond, beyond_blank, accepted]

theorem name_items (word : Word name) (text : CString) :
    sscanf drpSetVarNameFmt (nameParams name text) = [.word name] := by
  rw [sscanf, drpSetVarNameFmt, nameParams, scanFrom_word _ _ word (blank_stops_word text)]
  rfl

theorem name_value (word : Word name) (accepted : strtof (beyond isSpace text) = some bits) :
    lastFloat strtof drpSetVarNameFmt (nameParams name text) = some bits := by
  rw [lastFloat, drpSetVarNameFmt, nameParams, scanEnd_word _ word (blank_stops_word text)]
  simp only [scanEnd, Option.bind_eq_bind, Option.bind_some, beyond_beyond, beyond_blank, accepted]

end Read

/-! The definitions of the variables. -/

section Definitions
variable {c : Config} {schema : StatusSchema} {var : DatSysVar} {name : CString}

theorem def_of_address (listed : var ∈ schema.datStatusList) :
    datGetStatusVarDef schema var.address = var := by
  have below := schema.listed var listed
  unfold datGetStatusVarDef
  rw [if_pos below]
  cases found : schema.datStatusList.find? fun other => other.address = var.address with
  | none => exact absurd (decide_eq_true rfl) (List.find?_eq_none.mp found var listed)
  | some other =>
    have same : other.address = var.address := by simpa using List.find?_some found
    exact List.inj_on_of_nodup_map schema.distinct (List.mem_of_find?_eq_some found) listed same

theorem Described.array_of_name (described : Described c schema)
    (listed : var ∈ schema.datStatusList) (named : stringAt var.name = some name) :
    var.name = charArray maxVarName name := by
  obtain ⟨own, short, array⟩ := described.names var listed
  have read := stringAt_charArray maxVarName own [] short
  rw [List.append_nil, ← array, named] at read
  rw [array, Option.some.inj read]

theorem Described.def_of_name (described : Described c schema)
    (listed : var ∈ schema.datStatusList) (named : stringAt var.name = some name) :
    datGetStatusVarDefName schema name = var := by
  unfold datGetStatusVarDefName
  cases found : schema.datStatusList.find? fun var => stringAt var.name = some name with
  | none => exact absurd named (by simpa using List.find?_eq_none.mp found var listed)
  | some other =>
    have mem := List.mem_of_find?_eq_some found
    have hit : stringAt other.name = some name := by simpa using List.find?_some found
    have same : other.name = var.name :=
      (described.array_of_name mem hit).trans (described.array_of_name listed named).symm
    exact List.inj_on_of_nodup_map described.unique mem listed same

theorem def_found (known : (datGetStatusVarDefName schema name).status ≠ uninitialized) :
    datGetStatusVarDefName schema name ∈ schema.datStatusList ∧
      stringAt (datGetStatusVarDefName schema name).name = some name := by
  unfold datGetStatusVarDefName at known ⊢
  cases found : schema.datStatusList.find? fun var => stringAt var.name = some name with
  | none =>
    rw [found] at known
    exact absurd rfl known
  | some var => exact ⟨List.mem_of_find?_eq_some found, by simpa using List.find?_some found⟩

end Definitions

/-! The commands. -/

section Runs
variable {σ ρ : Type} {S : Storage σ} {c : Config} {good : σ → Prop}
  {cell : σ → Nat → Option UInt32} {rest : σ → ρ} {write : σ → Nat → UInt32 → σ} {s s' : σ}
  {schema : StatusSchema} {strtof : CString → Option UInt32} {var : DatSysVar}
  {name text params : CString} {bits : UInt32}

theorem Described.address_lt (described : Described c schema)
    (listed : var ∈ schema.datStatusList) : var.address.toNat < c.datStatusLastAddress := by
  rw [described.addresses]
  exact schema.listed var listed

theorem idx_stores (listed : var ∈ schema.datStatusList)
    (accepted : strtof (beyond isSpace text) = some bits) (S : Storage σ) (c : Config) (s : σ) :
    drpUpdateSysVarIdx S c schema strtof drpSetVarFmt (some (idxParams var.address text)) 2 s =
      storeVariable S c s var.address.toNat var bits := by
  have small := var.address.toNat_lt
  have below := schema.listed var listed
  have whole : intOf var.address.toNat = some (Int32.ofNat var.address.toNat) := by
    rw [intOf, if_pos (by omega)]
    rfl
  have value := toNat_toUInt32_ofNat (show var.address.toNat < 2147483648 by omega)
  have back : UInt16.ofNat var.address.toNat = var.address := UInt16.ofNat_toNat
  simp only [drpUpdateSysVarIdx, idx_items, idx_value var.address accepted, whole,
    Option.bind_eq_bind, Option.bind_some, value, below, small, back, if_true,
    def_of_address listed]
  rfl

theorem storeVariable_spec (laws : StatusLaws S c good cell rest write) (ok : good s)
    (var : DatSysVar) {address : Nat} (bound : address < c.datStatusLastAddress) {value : UInt32}
    (converted : valueOf var.type bits = some value) :
    ∃ s', storeVariable S c s address var bits = some (cmdOk, s') ∧ good s' ∧
      ∀ j < c.datStatusLastAddress, voted c (cell s') j =
        if j = address then some value else voted c (cell s) j := by
  obtain ⟨s', set, ok', -, votes⟩ := datSetStatusVar_spec laws ok bound value
  refine ⟨s', ?_, ok', votes⟩
  simp only [storeVariable, converted, set, Option.bind_eq_bind, Option.bind_some]
  rfl

theorem valueOf_isSome_iff {type : UInt8} :
    (valueOf type bits).isSome ↔ type = typeFloat ∨ (int32OfFloat bits).isSome := by
  unfold valueOf
  by_cases real : type = typeFloat
  · simp [real]
  · simp [real]

theorem name_stored
    (run : drpUpdateSysVarName S c schema strtof drpSetVarNameFmt (some params) 2 s =
      some (cmdOk, s')) :
    strlen params ≤ maxVarName ∧ ∃ word bits', Word word ∧
      (datGetStatusVarDefName schema word).status ≠ uninitialized ∧
      storeVariable S c s (datGetStatusVarDefName schema word).address.toNat
        (datGetStatusVarDefName schema word) bits' = some (cmdOk, s') := by
  simp only [drpUpdateSysVarName] at run
  split at run
  · cases run
  · rename_i short
    refine ⟨Nat.not_lt.mp short, ?_⟩
    split at run
    · rename_i name items scanned
      split at run
      · cases run
      · split at run
        · cases run
        · split at run
          · rename_i value read
            split at run
            · cases run
            · rename_i known
              exact ⟨name, value, word_of_scanFrom scanned, known, run⟩
          · cases run
    · split at run <;> cases run

theorem name_stores (described : Described c schema) (listed : var ∈ schema.datStatusList)
    (named : stringAt var.name = some name) (word : Word name)
    (short : strlen (nameParams name text) ≤ maxVarName) (known : var.status ≠ uninitialized)
    (accepted : strtof (beyond isSpace text) = some bits) (S : Storage σ) (s : σ) :
    drpUpdateSysVarName S c schema strtof drpSetVarNameFmt (some (nameParams name text)) 2 s =
      storeVariable S c s var.address.toNat var bits := by
  have fits : ¬ maxVarName ≤ strlen name := by
    obtain ⟨own, below, array⟩ := described.names var listed
    have read := stringAt_charArray maxVarName own [] below
    rw [List.append_nil, ← array, named] at read
    rw [Option.some.inj read]
    exact Nat.not_le.mpr below
  simp only [drpUpdateSysVarName, if_neg (Nat.not_lt.mpr short), name_items word text,
    name_value word accepted, fits, described.def_of_name listed named, known, if_false]
  rfl

theorem other_value (laws : StatusLaws S c good cell rest write) (ok : good s) {address : Nat}
    (bound : address < c.datStatusLastAddress) (value : UInt32) :
    ∃ s', good s' ∧ voted c (cell s') address ≠ some value := by
  obtain ⟨s', -, ok', -, votes⟩ := datSetStatusVar_spec laws ok bound (value + 1)
  refine ⟨s', ok', ?_⟩
  rw [votes _ bound, if_pos rfl]
  intro same
  have next := congrArg UInt32.toNat (Option.some.inj same)
  rw [UInt32.toNat_add] at next
  have below := value.toNat_lt
  have one : (1 : UInt32).toNat = 1 := rfl
  omega

theorem address_of_stored (laws : StatusLaws S c good cell rest write) (ok : good s)
    {other : DatSysVar} {address address' : Nat} {bits' value : UInt32}
    (bound : address < c.datStatusLastAddress) (bound' : address' < c.datStatusLastAddress)
    (converted : valueOf var.type bits = some value) (new : voted c (cell s) address ≠ some value)
    (stored : storeVariable S c s address var bits = some (cmdOk, s'))
    (stored' : storeVariable S c s address' other bits' = some (cmdOk, s')) :
    address = address' := by
  obtain ⟨value', converted', -⟩ := Option.bind_eq_some_iff.mp stored'
  obtain ⟨t, byFirst, -, votes⟩ := storeVariable_spec laws ok var bound converted
  obtain ⟨t', bySecond, -, votes'⟩ := storeVariable_spec laws ok other bound' converted'
  obtain rfl : t = s' := (Prod.mk.inj (Option.some.inj (byFirst.symm.trans stored))).2
  obtain rfl : t' = t := (Prod.mk.inj (Option.some.inj (bySecond.symm.trans stored'))).2
  by_contra apart
  have written := votes _ bound
  rw [votes' _ bound, if_pos rfl, if_neg apart] at written
  exact new written

/-- Both commands have the same effect on every store exactly for a variable with
    a one-word name, a short enough text and a value of the type of the variable. -/
theorem set_var_same_iff (laws : StatusLaws S c good cell rest write)
    (described : Described c schema) (usable : ∃ s, good s) (listed : var ∈ schema.datStatusList)
    (named : stringAt var.name = some name)
    (accepted : strtof (beyond isSpace text) = some bits) :
    (∀ s, good s → SameEffect S c schema strtof s var.address name text) ↔
      Word name ∧ strlen (nameParams name text) ≤ maxVarName ∧ var.status ≠ uninitialized ∧
        (var.type = typeFloat ∨ (int32OfFloat bits).isSome) := by
  have bound := described.address_lt listed
  constructor
  · intro same
    obtain ⟨s₀, ok₀⟩ := usable
    obtain ⟨result, idx, -⟩ := same s₀ ok₀
    rw [idx_stores listed accepted] at idx
    obtain ⟨value, converted, -⟩ := Option.bind_eq_some_iff.mp idx
    obtain ⟨s, ok, new⟩ := other_value laws ok₀ bound value
    obtain ⟨s', stored, -⟩ := storeVariable_spec laws ok var bound converted
    obtain ⟨result', byIdx, byName⟩ := same s ok
    rw [idx_stores listed accepted, stored] at byIdx
    obtain rfl := Option.some.inj byIdx
    obtain ⟨short, word, bits', isWord, known, stored'⟩ := name_stored byName
    obtain ⟨listed', hit⟩ := def_found known
    have own := address_of_stored laws ok bound (described.address_lt listed') converted new stored
      stored'
    have var_eq : var = datGetStatusVarDefName schema word :=
      List.inj_on_of_nodup_map schema.distinct listed listed' (UInt16.toNat_inj.mp own)
    rw [← var_eq] at hit known
    obtain rfl := Option.some.inj (named.symm.trans hit)
    refine ⟨isWord, short, known, valueOf_isSome_iff.mp ?_⟩
    rw [converted]
    rfl
  · rintro ⟨word, short, known, converts⟩ s ok
    obtain ⟨value, converted⟩ := Option.isSome_iff_exists.mp (valueOf_isSome_iff.mpr converts)
    obtain ⟨s', stored, -⟩ := storeVariable_spec laws ok var bound converted
    exact ⟨(cmdOk, s'), (idx_stores listed accepted S c s).trans stored,
      (name_stores described listed named word short known accepted S s).trans stored⟩

end Runs

/-! The `simple` application. -/

section Simple
open RamStorage RamFlightPlan RamSamples DecimalText

def ascii (text : String) : List UInt8 := text.toList.map fun c => UInt8.ofNat c.toNat

def simpleVars : List (UInt16 × CString × UInt8 × UInt8 × UInt32) :=
  [(1, ⟨ascii "obc_last_reset", by decide⟩, 117, 1, 0),
   (2, ⟨ascii "obc_hrs_alive", by decide⟩, 117, 1, 0),
   (3, ⟨ascii "obc_hrs_wo_reset", by decide⟩, 117, 1, 0),
   (4, ⟨ascii "obc_reset_counter", by decide⟩, 117, 1, 0),
   (5, ⟨ascii "obc_sw_wdt", by decide⟩, 117, 1, 0),
   (6, ⟨ascii "obc_temp_1", by decide⟩, 102, 1, 0xFFFFFFFF),
   (7, ⟨ascii "obc_executed_cmds", by decide⟩, 117, 1, 0),
   (8, ⟨ascii "obc_failed_cmds", by decide⟩, 117, 1, 0),
   (10, ⟨ascii "com_count_tm", by decide⟩, 117, 1, 0),
   (11, ⟨ascii "com_count_tc", by decide⟩, 117, 1, 0),
   (12, ⟨ascii "com_last_tc", by decide⟩, 117, 1, 0),
   (13, ⟨ascii "fpl_last", by decide⟩, 117, 1, 0),
   (14, ⟨ascii "fpl_queue", by decide⟩, 117, 1, 0),
   (0, ⟨ascii "obc_opmode", by decide⟩, 100, 0, 0xFFFFFFFF),
   (9, ⟨ascii "rtc_date_time", by decide⟩, 100, 0, 0xFFFFFFFF),
   (15, ⟨ascii "drp_idx_temp", by decide⟩, 117, 1, 0),
   (16, ⟨ascii "drp_ack_temp", by decide⟩, 117, 0, 0)]

def simpleVar (row : UInt16 × CString × UInt8 × UInt8 × UInt32) : DatSysVar :=
  ⟨row.1, charArray maxVarName row.2.1, row.2.2.1, row.2.2.2.1, row.2.2.2.2⟩

def simpleSchema : StatusSchema where
  datStatusList := simpleVars.map simpleVar
  datStatusLastAddress := 17
  listed := by decide
  distinct := by decide

theorem simple_described : Described simpleConfig simpleSchema where
  addresses := rfl
  names := by
    intro var mem
    obtain ⟨row, inside, rfl⟩ := List.mem_map.mp mem
    have short : ∀ row ∈ simpleVars, strlen row.2.1 < maxVarName := by decide
    exact ⟨row.2.1, short row inside, rfl⟩
  unique := by decide

def wholeStrtof (s : CString) : Option UInt32 :=
  let n := value s.chars
  if s.chars = [] ∨ !s.chars.all digit ∨ 2 ^ 24 ≤ n then none
  else if n = 0 then some 0
  else some (UInt32.ofNat ((127 + n.log2) * 2 ^ 23 + (n - 2 ^ n.log2) * 2 ^ (23 - n.log2)))

def fplLastName : CString := ⟨ascii "fpl_last", by decide⟩
def resetCounterName : CString := ⟨ascii "obc_reset_counter", by decide⟩
def fiveText : CString := ⟨ascii "5", by decide⟩
def millionText : CString := ⟨ascii "1000000", by decide⟩

theorem short_text_same :
    ∃ s, datRepoInit simpleConfig 1 = some s ∧
      SameEffect (ramStorage simpleConfig) simpleConfig simpleSchema wholeStrtof s 13 fplLastName
        fiveText := by
  obtain ⟨s, boot, ready, -⟩ := datRepoInit_defaults simpleConfig 1
  have listed : simpleVar (13, fplLastName, 117, 1, 0) ∈ simpleSchema.datStatusList := by decide
  have accepted : wholeStrtof (beyond isSpace fiveText) = some 0x40A00000 := by decide
  refine ⟨s, boot, (set_var_same_iff (ram_status simpleConfig) simple_described ⟨s, ready⟩ listed
    (by decide) accepted).mpr ?_ s ready⟩
  exact ⟨⟨by decide, List.all_eq_true.mp (by decide)⟩, by decide, by decide, .inr (by decide)⟩

theorem million_refused_by_name :
    ∃ s, datRepoInit simpleConfig 1 = some s ∧
      (∃ s', drpUpdateSysVarIdx (ramStorage simpleConfig) simpleConfig simpleSchema wholeStrtof
        drpSetVarFmt (some (idxParams 4 millionText)) 2 s = some (cmdOk, s')) ∧
      drpUpdateSysVarName (ramStorage simpleConfig) simpleConfig simpleSchema wholeStrtof
        drpSetVarNameFmt (some (nameParams resetCounterName millionText)) 2 s =
          some (cmdSyntaxError, s) ∧
      ¬ SameEffect (ramStorage simpleConfig) simpleConfig simpleSchema wholeStrtof s 4
        resetCounterName millionText := by
  obtain ⟨s, boot, ready, -⟩ := datRepoInit_defaults simpleConfig 1
  have listed : simpleVar (4, resetCounterName, 117, 1, 0) ∈ simpleSchema.datStatusList := by decide
  have converted : valueOf 117 0x49742400 = some 1000000 := by decide
  obtain ⟨s', stored, -⟩ := storeVariable_spec (ram_status simpleConfig) ready
    (simpleVar (4, resetCounterName, 117, 1, 0)) (show 4 < 17 by decide) converted
  have accepted : wholeStrtof (beyond isSpace millionText) = some 0x49742400 := by decide
  have idx := (idx_stores listed accepted (ramStorage simpleConfig) simpleConfig s).trans stored
  have refused : drpUpdateSysVarName (ramStorage simpleConfig) simpleConfig simpleSchema wholeStrtof
      drpSetVarNameFmt (some (nameParams resetCounterName millionText)) 2 s =
        some (cmdSyntaxError, s) := by
    rw [drpUpdateSysVarName, if_pos (by decide)]
  refine ⟨s, boot, ⟨s', idx⟩, refused, ?_⟩
  rintro ⟨result, byIdx, byName⟩
  obtain rfl := Option.some.inj (idx.symm.trans byIdx)
  rw [refused] at byName
  exact absurd (Prod.mk.inj (Option.some.inj byName)).1 (by decide)

end Simple

end StatusCommands
