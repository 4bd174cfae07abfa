import SuchaiFlight.StatusCommands
import SuchaiFlight.Library.SignificantBits

/-!
`drp_set_var` with whole numbers. The value is read with `%f`, so between its
text and the 32 bits of the variable it has only the 24 significant bits of a
`float`.
-/
namespace IntegerVariables
open CStrings TextScan StorageApi RepoData RepoCommand StatusVariables StatusTelemetry
open FlightPlanCommands StatusCommands SignificantBits DecimalText

/-- The whole number that `strtof` makes of `v`: to the nearest, ties to even. -/
def rounded (v : Int) : Int :=
  if v < 0 then -(roundEven 24 v.natAbs : Int) else roundEven 24 v.natAbs

def floatOfInt (v : Int) : UInt32 :=
  let magnitude := roundEven 24 v.natAbs
  if magnitude = 0 then 0
  else
    let sign := if v < 0 then 2 ^ 31 else 0
    let fraction := magnitude * 2 ^ 23 / 2 ^ magnitude.log2 - 2 ^ 23
    UInt32.ofNat (sign + (127 + magnitude.log2) * 2 ^ 23 + fraction)

example : floatOfInt 16777217 = 0x4B800000 := by decide
example : floatOfInt (-5) = 0xC0A00000 := by decide

def SetsTo {σ : Type} (S : Storage σ) (c : Config) (schema : StatusSchema)
    (strtof : CString → Option UInt32) (s : σ) (address : UInt16) (v : Int32) : Prop :=
  ∃ s', drpUpdateSysVarIdx S c schema strtof drpSetVarFmt
      (some (idxParams address (decimalText v.toInt))) 2 s = some (cmdOk, s') ∧
    datGetSystemVar S c s' address.toNat = some v

/-! The `float` in between. -/

theorem roundEven_le (n : Nat) (bound : n ≤ 2 ^ 31) : roundEven 24 n ≤ 2 ^ 31 := by
  have top : Representable 24 (2 ^ 31) := ⟨1, 31, by decide, by decide⟩
  have near := roundEven_nearest (by decide) top n
  omega

theorem significand_spec {m : Nat} (real : m ≠ 0) (held : Representable 24 m) :
    ∃ k, m * 2 ^ 23 / 2 ^ m.log2 = k ∧ 2 ^ 23 ≤ k ∧ k < 2 ^ 24 ∧ k * 2 ^ m.log2 / 2 ^ 23 = m := by
  have whole : 2 ^ m.log2 ∣ m * 2 ^ 23 := by
    have unit : ulp 24 m ∣ m := representable_iff.mp held
    have wide : 2 ^ m.log2 ∣ ulp 24 m * 2 ^ 23 := by
      rw [ulp, ← Nat.pow_add]
      exact Nat.pow_dvd_pow 2 (by omega)
    exact wide.trans (Nat.mul_dvd_mul_right unit _)
  obtain ⟨k, eq⟩ := whole
  have pos : 0 < 2 ^ m.log2 := Nat.two_pow_pos _
  have low : 2 ^ m.log2 ≤ m := Nat.log2_self_le real
  have high : m < 2 ^ m.log2 * 2 := by
    rw [← Nat.pow_succ]
    exact Nat.lt_log2_self
  have value : m * 2 ^ 23 / 2 ^ m.log2 = k := by rw [eq, Nat.mul_div_cancel_left k pos]
  refine ⟨k, value, ?_, ?_, ?_⟩
  · apply Nat.le_of_mul_le_mul_left _ pos
    rw [← eq]
    exact Nat.mul_le_mul_right _ low
  · apply Nat.lt_of_mul_lt_mul_left (a := 2 ^ m.log2)
    rw [← eq]
    omega
  · rw [Nat.mul_comm k, ← eq, Nat.mul_div_cancel m (by decide)]

theorem floatOfInt_toNat {v : Int} {e k : Nat} (bound : v.natAbs ≤ 2 ^ 31)
    (real : roundEven 24 v.natAbs ≠ 0) (exponent : (roundEven 24 v.natAbs).log2 = e)
    (significand : roundEven 24 v.natAbs * 2 ^ 23 / 2 ^ e = k) (small : k < 2 ^ 24) :
    e ≤ 31 ∧ (floatOfInt v).toNat =
      (if v < 0 then 2 ^ 31 else 0) + (127 + e) * 2 ^ 23 + (k - 2 ^ 23) := by
  have top := roundEven_le v.natAbs bound
  have low : e ≤ 31 := by
    have bits : (roundEven 24 v.natAbs).log2 < 32 := (Nat.log2_lt real).mpr (by omega)
    omega
  refine ⟨low, ?_⟩
  simp only [floatOfInt, real, if_false, exponent, significand, UInt32.toNat_ofNat']
  split <;> omega

theorem int32OfFloat_floatOfInt {v : Int} (bound : v.natAbs ≤ 2 ^ 31) :
    int32OfFloat (floatOfInt v) = intOf (rounded v) := by
  by_cases zero : roundEven 24 v.natAbs = 0
  · have none : floatOfInt v = 0 := by simp [floatOfInt, zero]
    have flat : rounded v = 0 := by simp [rounded, zero]
    rw [none, flat]
    decide
  · obtain ⟨k, significand, low, high, magnitude⟩ :=
      significand_spec zero (roundEven_representable (by decide) v.natAbs)
    obtain ⟨small, bits⟩ := floatOfInt_toNat bound zero rfl significand high
    have exponent : (floatOfInt v).toNat / 2 ^ 23 % 256 = 127 + (roundEven 24 v.natAbs).log2 := by
      rw [bits]
      split <;> omega
    have fraction : 2 ^ 23 + (floatOfInt v).toNat % 2 ^ 23 = k := by
      rw [bits]
      split <;> omega
    have sign : (floatOfInt v).toNat < 2 ^ 31 ↔ ¬ v < 0 := by
      rw [bits]
      split <;> omega
    have normal : ¬ 127 + (roundEven 24 v.natAbs).log2 < 127 := by omega
    have finite : ¬ 127 + (roundEven 24 v.natAbs).log2 = 255 := by omega
    simp only [int32OfFloat, exponent, fraction, normal, finite, sign, if_false,
      Nat.add_sub_cancel_left, magnitude, rounded]
    by_cases negative : v < 0
    · simp [negative]
    · simp [negative]

theorem rounded_eq_iff {v : Int} : rounded v = v ↔ Representable 24 v.natAbs := by
  rw [← roundEven_eq_iff]
  unfold rounded
  split <;> omega

theorem valueOf_integer {type : UInt8} (integer : type ≠ typeFloat) (v : Int32) :
    valueOf type (floatOfInt v.toInt) = (intOf (rounded v.toInt)).map Int32.toUInt32 := by
  have low := v.le_toInt
  have high := v.toInt_lt
  rw [valueOf, if_neg integer, int32OfFloat_floatOfInt (by omega)]

theorem intOf_toInt (v : Int32) : intOf v.toInt = some v := by
  have low := v.le_toInt
  have high := v.toInt_lt
  rw [intOf, if_pos (by omega), Int32.ofInt_toInt]

theorem toInt_of_intOf {i : Int} {v : Int32} (converted : intOf i = some v) : i = v.toInt := by
  unfold intOf at converted
  split at converted
  · cases converted
    rw [Int32.toInt_ofInt_of_le (by omega) (by omega)]
  · cases converted

theorem decimalText_start (v : Int) : beyond isSpace (decimalText v) = decimalText v := by
  have empty : decimalText v ++ (⟨[], by simp⟩ : CString) = decimalText v :=
    CString.ext (List.append_nil _)
  have stops := decimalText_stops v ⟨[], by simp⟩
  rw [empty] at stops
  exact CString.ext stops.dropWhile

section Commands
variable {σ ρ : Type} {S : Storage σ} {c : Config} {good : σ → Prop}
  {cell : σ → Nat → Option UInt32} {rest : σ → ρ} {write : σ → Nat → UInt32 → σ} {s : σ}
  {schema : StatusSchema} {strtof : CString → Option UInt32} {var : DatSysVar}

theorem stored_value (laws : StatusLaws S c good cell rest write) (ok : good s)
    (bound : var.address.toNat < c.datStatusLastAddress) (integer : var.type ≠ typeFloat)
    {v value : Int32} (converted : intOf (rounded v.toInt) = some value) :
    ∃ s', storeVariable S c s var.address.toNat var (floatOfInt v.toInt) = some (cmdOk, s') ∧
      datGetSystemVar S c s' var.address.toNat = some value := by
  have word : valueOf var.type (floatOfInt v.toInt) = some value.toUInt32 := by
    rw [valueOf_integer integer, converted]
    rfl
  obtain ⟨s', run, ok', votes⟩ := storeVariable_spec laws ok var bound word
  refine ⟨s', run, ?_⟩
  rw [datGetSystemVar_eq laws ok' bound, votes _ bound, if_pos rfl]
  simp

/-- An integer variable takes the number exactly when it has at most 24
    significant bits. -/
theorem integer_set_iff (laws : StatusLaws S c good cell rest write)
    (sized : c.datStatusLastAddress = schema.datStatusLastAddress)
    (listed : var ∈ schema.datStatusList) (integer : var.type ≠ typeFloat)
    (reads : ∀ v : Int32, strtof (decimalText v.toInt) = some (floatOfInt v.toInt))
    (ok : good s) (v : Int32) :
    SetsTo S c schema strtof s var.address v ↔ Representable 24 v.toInt.natAbs := by
  have bound : var.address.toNat < c.datStatusLastAddress := by
    rw [sized]
    exact schema.listed var listed
  have accepted : strtof (beyond isSpace (decimalText v.toInt)) = some (floatOfInt v.toInt) := by
    rw [decimalText_start]
    exact reads v
  rw [← rounded_eq_iff, SetsTo, idx_stores listed accepted]
  constructor
  · rintro ⟨s', run, got⟩
    obtain ⟨word, converted, -⟩ := Option.bind_eq_some_iff.mp run
    rw [valueOf_integer integer, Option.map_eq_some_iff] at converted
    obtain ⟨value, inRange, -⟩ := converted
    obtain ⟨t, run', got'⟩ := stored_value laws ok bound integer inRange
    obtain ⟨-, rfl⟩ := Prod.mk.inj (Option.some.inj (run.symm.trans run'))
    obtain rfl := Option.some.inj (got.symm.trans got')
    exact toInt_of_intOf inRange
  · intro exact
    apply stored_value laws ok bound integer
    rw [exact]
    exact intOf_toInt v

end Commands

/-! The `simple` application. -/

section Simple
open RamStorage RamFlightPlan RamSamples

def strtofInt (s : CString) : Option UInt32 := (scanInt s).map fun (v, _) => floatOfInt v

theorem strtofInt_reads (v : Int32) :
    strtofInt (decimalText v.toInt) = some (floatOfInt v.toInt) := by
  have empty : decimalText v.toInt ++ (⟨[], by simp⟩ : CString) = decimalText v.toInt :=
    CString.ext (List.append_nil _)
  have read := scanInt_decimal v.toInt (t := ⟨[], by simp⟩) (by simp [Stops])
  rw [empty] at read
  rw [strtofInt, read]
  rfl

theorem million_set :
    ∃ s, datRepoInit simpleConfig 1 = some s ∧
      SetsTo (ramStorage simpleConfig) simpleConfig simpleSchema strtofInt s 4 1000000 := by
  obtain ⟨s, boot, ready, -⟩ := datRepoInit_defaults simpleConfig 1
  have listed : simpleVar (4, resetCounterName, 117, 1, 0) ∈ simpleSchema.datStatusList := by decide
  refine ⟨s, boot, (integer_set_iff (ram_status simpleConfig) rfl listed (by decide)
    strtofInt_reads ready 1000000).mpr ?_⟩
  exact ⟨1000000, 0, by decide, by decide⟩

theorem odd_number_changed :
    ∃ s, datRepoInit simpleConfig 1 = some s ∧
      (∃ s', drpUpdateSysVarIdx (ramStorage simpleConfig) simpleConfig simpleSchema strtofInt
          drpSetVarFmt (some (idxParams 4 (decimalText 16777217))) 2 s = some (cmdOk, s') ∧
        datGetSystemVar (ramStorage simpleConfig) simpleConfig s' 4 = some 16777216) ∧
      ¬ SetsTo (ramStorage simpleConfig) simpleConfig simpleSchema strtofInt s 4 16777217 := by
  obtain ⟨s, boot, ready, -⟩ := datRepoInit_defaults simpleConfig 1
  have listed : simpleVar (4, resetCounterName, 117, 1, 0) ∈ simpleSchema.datStatusList := by decide
  have converted : intOf (rounded (16777217 : Int32).toInt) = some 16777216 := by decide
  have accepted : strtofInt (beyond isSpace (decimalText (16777217 : Int32).toInt)) =
      some (floatOfInt (16777217 : Int32).toInt) := by
    rw [decimalText_start]
    exact strtofInt_reads 16777217
  obtain ⟨s', stored, got⟩ := stored_value (ram_status simpleConfig) ready
    (show (simpleVar (4, resetCounterName, 117, 1, 0)).address.toNat < 17 by decide) (by decide)
    converted
  have run := (idx_stores listed accepted (ramStorage simpleConfig) simpleConfig s).trans stored
  refine ⟨s, boot, ⟨s', run, got⟩, ?_⟩
  rintro ⟨t, run', got'⟩
  obtain ⟨-, rfl⟩ := Prod.mk.inj (Option.some.inj (run.symm.trans run'))
  have same : (16777216 : Int32) = 16777217 := Option.some.inj (got.symm.trans got')
  exact absurd same (by decide)

end Simple

end IntegerVariables
