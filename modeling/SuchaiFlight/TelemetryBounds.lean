import SuchaiFlight.TelemetryTransfer

/-!
Frames that come from the radio with any number of samples. The assertion of
`tm_parse_payload` bounds a product of 32 bits, so a huge number of samples can
pass it, and it leaves out the four bytes that are loaded for the log.
-/
namespace TelemetryBounds
open StorageApi RepoData RamStorage RamPayload PayloadData ByteMemory ByteOrder FileFrames TelemetryFrames TelemetryTransfer

def payloadOf (frame : ComFrame) : Nat := frame.type.toNat - tmTypePayload.toNat

def bytesOf (m : DataMap) (frame : ComFrame) : Nat := frame.ndata.toNat * m.size (payloadOf frame)

def Asserted (m : DataMap) (frame : ComFrame) : Prop := bytesOf m frame % 4294967296 ≤ comFrameMaxLen

section
variable {σ : Type} (host : Host) (S : PayloadStorage σ) (c : Config) (m : DataMap)

/-- What is loaded of a sample lies in the memory behind its address: four bytes
    for the log, and the sample. -/
def Readable (data : List UInt8) (payload : Nat) : Prop :=
  4 ≤ data.length ∧ m.size payload ≤ data.length

def arrivedIn (frame : ComFrame) : List UInt8 := mapWords host.order host.ntoh32 frame.data

/-- If the assertion passes, each turn of the loop reads inside the frame and
    its sample lies there, and no more samples are appended than the frame can
    hold: each one that is not appended is counted as an error. -/
def StaysInside (frame : ComFrame) (s : σ) : Prop :=
  Asserted m frame →
    (∀ j < frame.ndata.toNat,
      Readable m ((arrivedIn host frame).drop (j * m.size (payloadOf frame))) (payloadOf frame) ∧
      (j + 1) * m.size (payloadOf frame) ≤ comFrameMaxLen) ∧
    ∀ errors s', parseSamples S c m (payloadOf frame) (arrivedIn host frame)
        frame.ndata.toNat 0 0 s = some (errors, s') →
      frame.ndata.toNat - errors ≤ comFrameMaxLen / m.size (payloadOf frame)

end

variable {σ : Type} {host : Host} {S : PayloadStorage σ} {c : Config} {m : DataMap}
  {frame : ComFrame}

theorem payload_known {packet : List UInt8}
    (received : comReceiveTm host m packet = some (some (.tmParsePayload frame))) :
    tmTypePayload ≤ frame.type ∧ payloadOf frame < m.lastSensor := by
  unfold comReceiveTm at received
  cases read : frameAt host.order packet with
  | none =>
    rw [read] at received
    cases received
  | some arrived =>
    simp only [read, Option.bind_eq_bind, Option.bind_some] at received
    split at received
    · cases received
    split at received
    · cases received
    split at received
    · cases received
    split at received
    · rename_i typed
      cases received
      exact ⟨typed.1, by
        have low := UInt8.le_iff_toNat_le.mp typed.1
        have high := typed.2
        unfold payloadOf
        simp only at low high ⊢
        omega⟩
    · cases received

theorem bounded_of_exact {count size : Nat} (filled : 1 ≤ size)
    (fits : count * size ≤ comFrameMaxLen) :
    (∀ j < count, (j + 1) * size ≤ comFrameMaxLen) ∧ count ≤ comFrameMaxLen / size :=
  ⟨fun _ before => le_trans (Nat.mul_le_mul_right size before) fits,
    (Nat.le_div_iff_mul_le filled).mpr fits⟩

theorem arrivedIn_length : (arrivedIn host frame).length = comFrameMaxLen := by
  unfold arrivedIn
  rw [mapWords_length _ _ (by rw [frame.size]; decide), frame.size]

theorem readable_at {j : Nat} :
    Readable m ((arrivedIn host frame).drop (j * m.size (payloadOf frame))) (payloadOf frame) ↔
      j * m.size (payloadOf frame) + 4 ≤ comFrameMaxLen ∧
        (j + 1) * m.size (payloadOf frame) ≤ comFrameMaxLen := by
  unfold Readable
  rw [List.length_drop, arrivedIn_length, Nat.succ_mul]
  omega

theorem parseSamples_append {p : Nat} (data behind : List UInt8) :
    ∀ left j errors s, (∀ k, j ≤ k → k < j + left → Readable m (data.drop (k * m.size p)) p) →
      parseSamples S c m p (data ++ behind) left j errors s =
        parseSamples S c m p data left j errors s := by
  intro left
  induction left with
  | zero =>
    intro j errors s readable
    rfl
  | succ left ih =>
    intro j errors s readable
    obtain ⟨log, sample⟩ := readable j (Nat.le_refl j) (by omega)
    have inData : j * m.size p ≤ data.length := by
      rw [List.length_drop] at log
      omega
    have same : datAddPayloadSample S c m s ((data ++ behind).drop (j * m.size p)) p =
        datAddPayloadSample S c m s (data.drop (j * m.size p)) p := by
      rw [List.drop_append_of_le_length inData]
      unfold datAddPayloadSample
      rw [List.take_append_of_le_length sample, List.length_append]
      by_cases known : p < m.lastSensor
      · rw [if_pos ⟨known, by omega, by omega⟩, if_pos ⟨known, log, sample⟩]
      · rw [if_neg fun all => known all.1, if_neg fun all => known all.1]
    unfold parseSamples
    rw [same]
    cases datAddPayloadSample S c m s (data.drop (j * m.size p)) p with
    | none => rfl
    | some result =>
      simp only [Option.bind_eq_bind, Option.bind_some]
      exact ih (j + 1) _ _ fun k low high => readable k (by omega) (by omega)

theorem tmParsePayload_of_overread (type : tmTypePayload ≤ frame.type)
    (known : payloadOf frame < m.lastSensor) (passes : Asserted m frame) {k : Nat}
    (turn : k < frame.ndata.toNat)
    (beyond : comFrameMaxLen < k * m.size (payloadOf frame) + 4) (s : σ) :
    tmParsePayload host S c m frame s = none := by
  have typed : ¬ frame.type < tmTypePayload := UInt8.not_lt.mpr type
  have overread : parseSamples S c m (payloadOf frame) (arrivedIn host frame)
      frame.ndata.toNat 0 0 s = none :=
    parseSamples_overreads (k := k) _ _ _ _ (Nat.zero_le k) (by omega)
      (by rw [arrivedIn_length]; exact beyond)
  unfold Asserted bytesOf at passes
  unfold payloadOf at known passes overread
  unfold arrivedIn at overread
  simp only [tmParsePayload, typed, if_false, Nat.not_le_of_lt known, passes, if_true, overread]
  rfl

theorem overread_of_wrap (small : m.size (payloadOf frame) ≤ 65535)
    (wraps : 4294967296 ≤ bytesOf m frame) :
    ∃ k < frame.ndata.toNat, comFrameMaxLen < k * m.size (payloadOf frame) + 4 := by
  have some_sample : 0 < frame.ndata.toNat := by
    by_contra none
    rw [bytesOf, Nat.eq_zero_of_not_pos none, Nat.zero_mul] at wraps
    omega
  refine ⟨frame.ndata.toNat - 1, by omega, ?_⟩
  have product := Nat.sub_one_mul frame.ndata.toNat (m.size (payloadOf frame))
  unfold bytesOf at wraps
  unfold comFrameMaxLen
  omega

def InFrame (m : DataMap) (frame : ComFrame) : Prop :=
  bytesOf m frame < 4294967296 ∧
    (4 ≤ m.size (payloadOf frame) ∨ frame.ndata.toNat ≤ 188 / m.size (payloadOf frame) + 1)

theorem loads_or_overread (sized : 1 ≤ m.size (payloadOf frame) ∧ m.size (payloadOf frame) ≤ 65535)
    (passes : Asserted m frame) :
    (InFrame m frame ∧ bytesOf m frame ≤ comFrameMaxLen ∧
      LoadsInside (m.size (payloadOf frame)) frame.ndata.toNat) ∨
    (¬ InFrame m frame ∧
      ∃ k < frame.ndata.toNat, comFrameMaxLen < k * m.size (payloadOf frame) + 4) := by
  rcases Nat.lt_or_ge (bytesOf m frame) 4294967296 with small | wraps
  · have fits : bytesOf m frame ≤ comFrameMaxLen := by
      rwa [Asserted, Nat.mod_eq_of_lt small] at passes
    have few : frame.ndata.toNat ≤ comFrameMaxLen / m.size (payloadOf frame) :=
      (Nat.le_div_iff_mul_le sized.1).mpr fits
    have exact := loadsInside_iff (n := frame.ndata.toNat) sized.1
    rw [Nat.min_eq_right few] at exact
    by_cases loads : LoadsInside (m.size (payloadOf frame)) frame.ndata.toNat
    · exact .inl ⟨⟨small, exact.mp loads⟩, fits, loads⟩
    · refine .inr ⟨fun inFrame => loads (exact.mpr inFrame.2), ?_⟩
      unfold LoadsInside at loads
      push Not at loads
      exact loads
  · exact .inr ⟨fun inFrame => absurd inFrame.1 (Nat.not_lt_of_le wraps),
      overread_of_wrap sized.2 wraps⟩

theorem staysInside_of_loads (filled : 1 ≤ m.size (payloadOf frame))
    (fits : bytesOf m frame ≤ comFrameMaxLen)
    (loads : LoadsInside (m.size (payloadOf frame)) frame.ndata.toNat) (s : σ) :
    StaysInside host S c m frame s := by
  intro _
  obtain ⟨inside, few⟩ := bounded_of_exact filled fits
  exact ⟨fun j turn => ⟨readable_at.mpr ⟨loads j turn, inside j turn⟩, inside j turn⟩,
    fun errors _ _ => le_trans (Nat.sub_le _ errors) few⟩

/-- For every frame that `com_receive_tm` accepts the loop stays inside exactly
    when the product of count and size does not wrap and the samples are not so
    small and so many that four bytes cannot be loaded at the last ones, or when
    the wrapped product still stops the program. Where it stays inside, nothing
    behind the frame matters; where it does not, there is no defined result. -/
theorem payload_frame_inside_iff (host : Host) (S : PayloadStorage σ) (c : Config) (m : DataMap)
    (sized : ∀ p < m.lastSensor, 1 ≤ m.size p ∧ m.size p ≤ 65535) (packet : List UInt8)
    (frame : ComFrame) (received : comReceiveTm host m packet = some (some (.tmParsePayload frame)))
    (s : σ) :
    (StaysInside host S c m frame s ↔
      (bytesOf m frame < 4294967296 ∧
        (4 ≤ m.size (payloadOf frame) ∨
          frame.ndata.toNat ≤ 188 / m.size (payloadOf frame) + 1)) ∨
      comFrameMaxLen < bytesOf m frame % 4294967296) ∧
    (Asserted m frame → StaysInside host S c m frame s → ∀ behind,
      parseSamples S c m (payloadOf frame) (arrivedIn host frame ++ behind)
          frame.ndata.toNat 0 0 s =
        parseSamples S c m (payloadOf frame) (arrivedIn host frame) frame.ndata.toNat 0 0 s) ∧
    (¬ StaysInside host S c m frame s → tmParsePayload host S c m frame s = none) := by
  obtain ⟨type, known⟩ := payload_known received
  have size := sized _ known
  refine ⟨⟨?_, ?_⟩, ?_, ?_⟩
  · intro inside
    rcases Nat.lt_or_ge comFrameMaxLen (bytesOf m frame % 4294967296) with stops | passes
    · exact .inr stops
    · rcases loads_or_overread size passes with ⟨inFrame, -, -⟩ | ⟨-, k, turn, beyond⟩
      · exact .inl inFrame
      · have place := (readable_at.mp ((inside passes).1 k turn).1).1
        exact absurd place (Nat.not_le_of_lt beyond)
  · intro condition
    rcases condition with inFrame | stops
    · by_cases passes : Asserted m frame
      · rcases loads_or_overread size passes with ⟨-, fits, loads⟩ | ⟨outside, -⟩
        · exact staysInside_of_loads size.1 fits loads s
        · exact absurd inFrame outside
      · exact fun asserted => absurd asserted passes
    · exact fun asserted => absurd asserted (Nat.not_le_of_lt stops)
  · intro passes inside behind
    exact parseSamples_append _ _ _ _ _ _ fun k _ turn => ((inside passes).1 k (by omega)).1
  · intro leaves
    have passes : Asserted m frame := by
      by_contra stops
      exact leaves fun asserted => absurd asserted stops
    rcases loads_or_overread size passes with ⟨-, fits, loads⟩ | ⟨-, k, turn, beyond⟩
    · exact absurd (staysInside_of_loads size.1 fits loads s) leaves
    · exact tmParsePayload_of_overread type known passes turn beyond s

def zeroFrame (count : UInt32) : ComFrame :=
  { nframe := 0
    type := tmTypePayload
    node := 1
    ndata := count
    data := List.replicate comFrameMaxLen 0
    size := zeros_length }

theorem zeroFrame_received (some_sensor : 0 < m.lastSensor) (count : UInt32) :
    comReceiveTm (standardHost .big) m (image .big (zeroFrame count)) =
      some (some (.tmParsePayload (zeroFrame count))) := by
  have notStatus : tmTypePayload ≠ tmTypeStatus := by decide
  have notHelp : tmTypePayload ≠ tmTypeHelp := by decide
  have notPlan : tmTypePayload ≠ tmTypeFp := by decide
  have order : (standardHost .big).order = .big := rfl
  have half (x : UInt16) : (standardHost .big).ntoh16 x = x := rfl
  have word (x : UInt32) : (standardHost .big).ntoh32 x = x := rfl
  simp [comReceiveTm, order, frameAt_image, bytesHalf_halfBytes, bytesWord_wordBytes, half, word,
    zeroFrame, notStatus, notHelp, notPlan, some_sensor]

theorem payload_frame_inside_full :
    StaysInside (standardHost .big) (ramPayloadStorage simpleConfig) simpleConfig (oneSensor 12)
      (zeroFrame 16) (blankStore simpleConfig (oneSensor 12)) :=
  (payload_frame_inside_iff _ _ _ _ (by decide) (image .big (zeroFrame 16)) (zeroFrame 16)
    (zeroFrame_received Nat.zero_lt_one 16) _).1.mpr (.inl ⟨by decide, .inl (by decide)⟩)

/-- With 2^31 samples of two bytes the product is 0: the assertion passes and
    the loop leaves the frame. -/
theorem wrapped_count_read_past :
    comReceiveTm (standardHost .big) (oneSensor 2) (image .big (zeroFrame 2147483648)) =
        some (some (.tmParsePayload (zeroFrame 2147483648))) ∧
      Asserted (oneSensor 2) (zeroFrame 2147483648) ∧
      ¬ StaysInside (standardHost .big) (ramPayloadStorage simpleConfig) simpleConfig (oneSensor 2)
        (zeroFrame 2147483648) (blankStore simpleConfig (oneSensor 2)) ∧
      tmParsePayload (standardHost .big) (ramPayloadStorage simpleConfig) simpleConfig (oneSensor 2)
        (zeroFrame 2147483648) (blankStore simpleConfig (oneSensor 2)) = none := by
  have passes : Asserted (oneSensor 2) (zeroFrame 2147483648) := by
    unfold Asserted
    decide
  have turn : 2147483647 < (zeroFrame 2147483648).ndata.toNat := by decide
  have beyond : comFrameMaxLen <
      2147483647 * (oneSensor 2).size (payloadOf (zeroFrame 2147483648)) + 4 := by
    decide
  refine ⟨zeroFrame_received Nat.zero_lt_one _, passes, ?_, ?_⟩
  · intro inside
    have place := (readable_at.mp ((inside passes).1 2147483647 turn).1).1
    exact absurd place (Nat.not_le_of_lt beyond)
  · exact tmParsePayload_of_overread (by decide) (by decide) passes turn beyond _

end TelemetryBounds
