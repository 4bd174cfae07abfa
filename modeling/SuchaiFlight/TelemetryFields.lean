import SuchaiFlight.TelemetryTransfer

/-!
The fields of a payload sample on hosts of different byte order. A sample is a
packed structure whose fields follow the `data_order` of its schema, while the
data of a frame is converted in words of 32 bits, whatever the fields are.
-/
namespace TelemetryFields
open StorageApi RepoCommand PayloadData FileFrames TelemetryFrames TelemetryTransfer RamPayload
open Blocks ByteMemory ByteOrder

def schStStrSize : Nat := 128

inductive FieldType where
  | u
  | d
  | i
  | f
  | h
  | s
  deriving DecidableEq

def width : FieldType → Nat
  | .u | .d | .i | .f => 4
  | .h => 2
  | .s => schStStrSize

def sampleSize (schema : List FieldType) : Nat := (schema.map width).sum

/-- Numbers of one width are told apart by their bits, texts by their characters. -/
inductive FieldValue where
  | word (bits : UInt32)
  | half (bits : UInt16)
  | text (chars : List UInt8)
  deriving DecidableEq

def fieldValue (e : Endian) (bytes : List UInt8) : FieldType → FieldValue
  | .u | .d | .i | .f => .word (bytesWord e bytes)
  | .h => .half (bytesHalf e bytes)
  | .s => .text bytes

def fieldValues (e : Endian) : List FieldType → List UInt8 → List FieldValue
  | [], _ => []
  | t :: ts, bytes => fieldValue e (bytes.take (width t)) t :: fieldValues e ts (bytes.drop (width t))

theorem fieldValues_append (e : Endian) (one two : List FieldType) (bytes : List UInt8) :
    fieldValues e (one ++ two) bytes =
      fieldValues e one bytes ++ fieldValues e two (bytes.drop (sampleSize one)) := by
  induction one generalizing bytes with
  | nil => rfl
  | cons t one ih =>
    have total : sampleSize (t :: one) = width t + sampleSize one := rfl
    rw [List.cons_append, fieldValues, fieldValues, ih, List.drop_drop, total, List.cons_append]

theorem fieldValues_length (e : Endian) (schema : List FieldType) (bytes : List UInt8) :
    (fieldValues e schema bytes).length = schema.length := by
  induction schema generalizing bytes with
  | nil => rfl
  | cons t schema ih => simp [fieldValues, ih]

/-! From one byte order to the other. -/

theorem compatible_standard (sender receiver : Endian) :
    Compatible (standardHost sender) (standardHost receiver) := by
  intro x
  cases sender with
  | little =>
    cases receiver with
    | little => exact compatible_self (standardHost .little) x
    | big =>
      show bytesWord .big (wordBytes .little (swap32 x)) = x
      exact swap32_swap32 x
  | big =>
    cases receiver with
    | little => exact swap32_swap32 x
    | big => exact compatible_self (standardHost .big) x

theorem carried_other {sender receiver : Endian} (differ : sender ≠ receiver) {data : List UInt8}
    (whole : 4 ∣ data.length) :
    carried (standardHost sender) (standardHost receiver) data = reverseWords data := by
  unfold carried
  cases sender with
  | little =>
    cases receiver with
    | little => exact absurd rfl differ
    | big =>
      show mapWords .big id (mapWords .little swap32 data) = reverseWords data
      rw [mapWords_swap32 whole, mapWords_id .big (by rwa [reverseWords_length whole])]
  | big =>
    cases receiver with
    | little =>
      show mapWords .little swap32 (mapWords .big id data) = reverseWords data
      rw [mapWords_id .big whole, mapWords_swap32 whole]
    | big => exact absurd rfl differ

theorem bytesWord_reverse {sender receiver : Endian} (differ : sender ≠ receiver)
    (bytes : List UInt8) : bytesWord receiver bytes.reverse = bytesWord sender bytes := by
  cases sender with
  | little =>
    cases receiver with
    | little => exact absurd rfl differ
    | big => simp [bytesWord]
  | big =>
    cases receiver with
    | little => rfl
    | big => exact absurd rfl differ

theorem fieldValues_reverseWords {sender receiver : Endian} (differ : sender ≠ receiver)
    {schema : List FieldType} (words : ∀ t ∈ schema, width t = 4) :
    ∀ {bytes : List UInt8}, bytes.length = sampleSize schema →
      fieldValues receiver schema (reverseWords bytes) = fieldValues sender schema bytes := by
  induction schema with
  | nil =>
    intro bytes _
    rfl
  | cons t schema ih =>
    intro bytes size
    have four : width t = 4 := words t List.mem_cons_self
    have total : bytes.length = width t + sampleSize schema := size
    match bytes, total with
    | b₀ :: b₁ :: b₂ :: b₃ :: rest, total =>
      have less : rest.length = sampleSize schema := by
        simp only [List.length_cons] at total
        omega
      have others := ih (fun t' mem => words t' (List.mem_cons_of_mem t mem)) less
      have turned := bytesWord_reverse differ [b₀, b₁, b₂, b₃]
      cases t with
      | h => cases four
      | s => cases four
      | u | d | i | f =>
        simp only [fieldValues, reverseWords, width, List.take_succ_cons, List.take_zero,
          List.drop_succ_cons, List.drop_zero, others, fieldValue]
        exact congrArg (fun w => FieldValue.word w :: _) turned
    | [], total | [_], total | [_, _], total | [_, _, _], total =>
      simp only [List.length_cons, List.length_nil] at total
      omega

theorem cut_reverseWords {n : Nat} {samples : List (List UInt8)}
    (sizes : ∀ d ∈ samples, d.length = 4 * n) (fits : samples.length * (4 * n) ≤ comFrameMaxLen) :
    cut (4 * n) samples.length (reverseWords (packed samples)) = samples.map reverseWords := by
  have whole := packed_whole samples
  have turned : cut (4 * n) samples.length (reverseWords (packed samples)) =
      (cut (4 * n) samples.length (packed samples)).map reverseWords := by
    unfold cut
    rw [List.map_map]
    apply List.map_congr_left
    intro j _
    have rest : 4 ∣ ((packed samples).drop (4 * (j * n))).length := by
      rw [List.length_drop]
      omega
    have offset : j * (4 * n) = 4 * (j * n) := by rw [Nat.mul_left_comm]
    rw [Function.comp_apply, offset, reverseWords_drop whole, reverseWords_take rest]
  rw [turned, cut_packed sizes fits]

theorem arriving_other {sender receiver : Endian} (differ : sender ≠ receiver) {m : DataMap}
    {link : Link} {p n : Nat} (sendable : Sendable m link p) (size : m.size p = 4 * n)
    {all : List (List UInt8)} (sizes : ∀ d ∈ all, d.length = m.size p) :
    arriving (standardHost sender) (standardHost receiver) (m.size p) all =
      all.map reverseWords := by
  unfold arriving
  nth_rewrite 2 [← framesOf_samples sendable.perFrame_pos all]
  rw [List.map_flatMap]
  apply List.flatMap_congr
  intro f mem
  have fits := (frame_fits sendable.filled mem).1
  have same := framesOf_sizes sizes mem
  rw [size] at fits same ⊢
  rw [carried_other differ (packed_whole f.2), cut_reverseWords same fits]

/-! The meaning of a transfer. -/

/-- Every transfer of at most `limit` samples of this schema, from any node to any
    node with room, gives the receiver the same values of all fields. -/
def SameMeaningUpTo (limit : Nat) (schema : List FieldType) (sender receiver : Endian) : Prop :=
  ∀ (σ τ : Type) (S : PayloadStorage σ) (R : PayloadStorage τ) (c d : Config) (m : DataMap)
    (link : Link) (schCommNode : UInt8) (p : Nat) (s : σ) (r : τ) (stored : List (List UInt8))
    (Good : τ → Prop) (room : Nat → Prop) (start stop i : Nat),
    m.size p = sampleSize schema → link.Up → p < m.lastSensor → 10 + p < 100 →
    Holds S c m p s stored → start ≤ stop → stop - start ≤ limit → stop ≤ stored.length →
    Lawful R d m p Good room → Good r → indexIs R d m p r i →
    (∀ k < stop - start, room (i + k)) →
    ∃ rc packets r' received,
      tmSendTelFromTo (standardHost sender) S c m schCommNode link start stop p s =
        some (rc, packets) ∧
      receiveAll (standardHost receiver) R d m packets r = some r' ∧
      Appended R d m p Good room r i received r' ∧
      received.map (fieldValues receiver schema) =
        (selected stored start stop).map (fieldValues sender schema)

def SameMeaning (schema : List FieldType) (sender receiver : Endian) : Prop :=
  ∀ limit, SameMeaningUpTo limit schema sender receiver

theorem sampleSize_of_words {schema : List FieldType} (words : ∀ t ∈ schema, width t = 4) :
    sampleSize schema = 4 * schema.length := by
  induction schema with
  | nil => rfl
  | cons t schema ih =>
    have here := words t List.mem_cons_self
    have rest := ih fun t' mem => words t' (List.mem_cons_of_mem t mem)
    have total : sampleSize (t :: schema) = width t + sampleSize schema := rfl
    rw [total, here, rest, List.length_cons]
    omega

theorem arriving_nil (sender receiver : Host) (size : Nat) :
    arriving sender receiver size [] = [] := by
  simp [arriving, framesOf, blockCount]

theorem sameMeaning_of_words {limit : Nat} {schema : List FieldType} {sender receiver : Endian}
    (filled : 0 < sampleSize schema) (fits : sampleSize schema ≤ comFrameMaxLen)
    (loads : 4 ≤ sampleSize schema ∨ limit ≤ 188 / sampleSize schema + 1)
    (plain : limit = 0 ∨ sender = receiver ∨ ∀ t ∈ schema, width t = 4) :
    SameMeaningUpTo limit schema sender receiver := by
  intro σ τ S R c d m link schCommNode p s r stored Good room start stop i size up known small holds
    order few upto lawful good index accepts
  have sendable : Sendable m link p := ⟨up, known, small, by omega, by omega⟩
  have inside : LoadsInside (m.size p) (min (comFrameMaxLen / m.size p) (stop - start)) := by
    rw [loadsInside_iff sendable.filled, size]
    exact loads.imp_right fun bound => le_trans few bound
  obtain ⟨rc, packets, r', sent, received, appended⟩ :=
    transfer_appends (compatible_standard sender receiver) sendable holds order upto lawful good
      index accepts inside schCommNode
  have sizes := selected_sizes holds start stop
  refine ⟨rc, packets, r', _, sent, received, appended, ?_⟩
  rcases plain with none_ | plain
  · have empty : selected stored start stop = [] := by
      rw [← List.length_eq_zero_iff, selected_length upto]
      omega
    rw [empty, arriving_nil]
    rfl
  by_cases same : sender = receiver
  · rw [same, arriving_self sendable sizes]
  · have words := plain.resolve_left same
    rw [arriving_other same sendable (size.trans (sampleSize_of_words words)) sizes, List.map_map]
    apply List.map_congr_left
    intro d mem
    exact fieldValues_reverseWords same words ((sizes d mem).trans size)

/-! Transfers that show each condition to be needed. They are made between two
nodes with the RAM back end. -/

section Probes
variable {limit : Nat} {schema : List FieldType} {sender receiver : Endian}

theorem SameMeaningUpTo.size_bounds (same : SameMeaningUpTo limit schema sender receiver) :
    0 < sampleSize schema ∧ sampleSize schema ≤ comFrameMaxLen := by
  have mapped : (oneSensor (sampleSize schema)).sysIndex 0 < simpleConfig.datStatusLastAddress :=
    show 15 < 17 by decide
  have index := blankStore_index mapped
  have holds : Holds (ramPayloadStorage simpleConfig) simpleConfig (oneSensor (sampleSize schema)) 0
      (blankStore simpleConfig (oneSensor (sampleSize schema))) [] :=
    ⟨index, by decide, fun k bound => absurd bound (Nat.not_lt_zero k), by simp⟩
  obtain ⟨rc, packets, r', received, sent, -⟩ := same _ _ _ _ simpleConfig simpleConfig _
    FileTransfer.plainLink 1 0 _ _ [] _ _ 0 0 0 rfl FileTransfer.plainLink_up Nat.zero_lt_one
    (by decide) holds (Nat.le_refl 0) (Nat.zero_le _) (Nat.le_refl 0)
    (ram_lawful_without_room mapped)
    ⟨_, _, blankStore_working _ _⟩ index (fun k before => absurd before (Nat.not_lt_zero k))
  by_contra outside
  have stuck : sampleSize schema = 0 ∨ comFrameMaxLen / sampleSize schema = 0 := by
    rcases Nat.eq_zero_or_pos (sampleSize schema) with zero | pos
    · exact .inl zero
    · exact .inr (Nat.div_eq_of_lt (by omega))
  unfold tmSendTelFromTo at sent
  rw [if_pos (.inr stuck)] at sent
  cases sent

theorem SameMeaningUpTo.on_ram (same : SameMeaningUpTo limit schema sender receiver)
    {stored : List (List UInt8)} (sizes : ∀ d ∈ stored, d.length = sampleSize schema)
    (few : stored.length ≤ 192) (asked : stored.length ≤ limit) :
    ∃ s, Holds (ramPayloadStorage simpleConfig) simpleConfig (oneSensor (sampleSize schema)) 0 s
        stored ∧
      ∃ rc packets r' received,
        tmSendTelFromTo (standardHost sender) (ramPayloadStorage simpleConfig) simpleConfig
          (oneSensor (sampleSize schema)) 1 FileTransfer.plainLink 0 stored.length 0 s =
            some (rc, packets) ∧
        receiveAll (standardHost receiver) (ramPayloadStorage simpleConfig) simpleConfig
          (oneSensor (sampleSize schema)) packets
          (blankStore simpleConfig (oneSensor (sampleSize schema))) = some r' ∧
        Appended (ramPayloadStorage simpleConfig) simpleConfig (oneSensor (sampleSize schema)) 0
          (fun r => ∃ status db,
            Working simpleConfig (oneSensor (sampleSize schema)) r status db)
          (HasRoom (oneSensor (sampleSize schema)) 0)
          (blankStore simpleConfig (oneSensor (sampleSize schema))) 0 received r' ∧
        received.map (fieldValues receiver schema) = stored.map (fieldValues sender schema) := by
  obtain ⟨filled, fits⟩ := same.size_bounds
  have mapped := oneSensor_mapped filled fits
  have room : ∀ k < stored.length, HasRoom (oneSensor (sampleSize schema)) 0 k := fun k before =>
    oneSensor_room filled fits (by omega)
  obtain ⟨s, holds⟩ := ram_holds mapped sizes room
  refine ⟨s, holds, ?_⟩
  have all : selected stored 0 stored.length = stored := by simp [selected]
  have transfer := same _ _ _ _ simpleConfig simpleConfig _ FileTransfer.plainLink 1 0 s _ stored _ _
    0 stored.length 0 rfl FileTransfer.plainLink_up Nat.zero_lt_one (by decide) holds
    (Nat.zero_le _) asked (Nat.le_refl _) (ram_lawful mapped) ⟨_, _, blankStore_working _ _⟩
    (blankStore_index mapped.variable_lt)
    (fun k before => by rw [Nat.zero_add]; exact room k (by omega))
  rw [all] at transfer
  exact transfer

theorem SameMeaningUpTo.loads (same : SameMeaningUpTo limit schema sender receiver) :
    4 ≤ sampleSize schema ∨ limit ≤ 188 / sampleSize schema + 1 := by
  obtain ⟨filled, fits⟩ := same.size_bounds
  by_contra small
  rw [not_or, not_le, not_le] at small
  have few : 188 / sampleSize schema ≤ 188 := Nat.div_le_self _ _
  have count : (zeroSamples (sampleSize schema) (188 / sampleSize schema + 2)).length =
      188 / sampleSize schema + 2 := List.length_replicate
  obtain ⟨s, holds, rc, packets, r', received, sent, got, -⟩ :=
    same.on_ram (zeroSamples_sizes (sampleSize schema) (188 / sampleSize schema + 2)) (by omega)
      (by omega)
  have loads := loads_of_received (compatible_standard sender receiver)
    (oneSensor_sendable filled fits) holds (Nat.zero_le _) (Nat.le_refl _) sent got
  rw [count] at loads
  rcases (loadsInside_iff filled).mp loads with wide | bound
  · omega
  · omega

theorem first_other_field (other : ¬ ∀ t ∈ schema, width t = 4) :
    ∃ words t rest, schema = words ++ t :: rest ∧ (∀ t' ∈ words, width t' = 4) ∧ width t ≠ 4 := by
  induction schema with
  | nil => exact absurd (by simp) other
  | cons t schema ih =>
    by_cases four : width t = 4
    · have later : ¬ ∀ t' ∈ schema, width t' = 4 := by
        intro rest
        exact other (by simpa [four] using rest)
      obtain ⟨words, t', rest, split, before, odd⟩ := ih later
      refine ⟨t :: words, t', rest, by rw [split, List.cons_append], ?_, odd⟩
      simpa [four] using before
    · exact ⟨[], t, schema, rfl, by simp, four⟩

def probe (size n : Nat) : List UInt8 :=
  List.replicate (4 * n) 0 ++ 1 :: List.replicate (size - (4 * n + 1)) 0

theorem probe_length {size n : Nat} (inside : 4 * n < size) : (probe size n).length = size := by
  simp only [probe, List.length_append, List.length_replicate, List.length_cons]
  omega

theorem probe_drop (size n : Nat) :
    (probe size n).drop (4 * n) = 1 :: List.replicate (size - (4 * n + 1)) 0 := by
  unfold probe
  exact List.drop_left' List.length_replicate

theorem packed_probe {size n : Nat} (inside : 4 * n < size) (fits : size ≤ comFrameMaxLen) :
    packed [probe size n] = probe comFrameMaxLen n := by
  have whole : (probe size n).take comFrameMaxLen = probe size n :=
    List.take_of_length_le (by rw [probe_length inside]; exact fits)
  unfold packed padded
  rw [List.flatten_singleton, whole, probe_length inside]
  unfold probe
  rw [List.append_assoc, List.cons_append, List.replicate_append_replicate]
  congr 3
  omega

theorem reverseWords_probe_drop {n : Nat} (inside : 4 * n < comFrameMaxLen) :
    ∃ rest, (reverseWords (probe comFrameMaxLen n)).drop (4 * n) = 0 :: 0 :: 0 :: 1 :: rest := by
  have whole : 4 ∣ (probe comFrameMaxLen n).length := by
    rw [probe_length inside]
    decide
  have tail : comFrameMaxLen - (4 * n + 1) = comFrameMaxLen - (4 * n + 4) + 1 + 1 + 1 := by
    unfold comFrameMaxLen at inside ⊢
    omega
  rw [reverseWords_drop whole, probe_drop, tail]
  exact ⟨_, rfl⟩

theorem bytesHalf_one_ne_zero (e : Endian) (b : UInt8) : bytesHalf e [1, b] ≠ 0 := by
  have bound := b.toNat_lt
  intro zero
  have number := congrArg UInt16.toNat zero
  cases e with
  | little =>
    simp only [bytesHalf, littleHalf, UInt16.toNat_ofNat', UInt8.reduceToNat,
      UInt16.reduceToNat] at number
    omega
  | big =>
    simp only [bytesHalf, List.reverse_cons, List.reverse_nil, List.nil_append, List.cons_append,
      littleHalf, UInt16.toNat_ofNat', UInt8.reduceToNat, UInt16.reduceToNat] at number
    omega

theorem fieldValue_probe {t : FieldType} (odd : width t ≠ 4) {rest rest' : List UInt8}
    (long : width t ≤ (1 :: rest).length) :
    fieldValue receiver ((0 :: 0 :: 0 :: 1 :: rest').take (width t)) t ≠
      fieldValue sender ((1 :: rest).take (width t)) t := by
  cases t with
  | u | d | i | f => exact absurd rfl odd
  | s => simp [fieldValue, width, schStStrSize]
  | h =>
    cases rest with
    | nil => simp [width] at long
    | cons b rest =>
      intro equal
      have halves : bytesHalf receiver [0, 0] = bytesHalf sender [1, b] := FieldValue.half.inj equal
      have zero : bytesHalf receiver [0, 0] = 0 := by cases receiver <;> rfl
      exact bytesHalf_one_ne_zero sender b (halves.symm.trans zero)

theorem arriving_one {m : DataMap} {link : Link} {p : Nat} (sendable : Sendable m link p)
    (one other : Host) (d : List UInt8) :
    arriving one other (m.size p) [d] = [(carried one other (packed [d])).take (m.size p)] := by
  have pos := sendable.perFrame_pos
  have count : blockCount (comFrameMaxLen / m.size p) 1 = 1 :=
    blockCount_one pos Nat.zero_lt_one pos
  have samples : block (comFrameMaxLen / m.size p) [d] 0 = [d] := by
    simp only [block, Nat.mul_zero, List.drop_zero]
    exact List.take_of_length_le pos
  have frames : framesOf (comFrameMaxLen / m.size p) [d] = [(0, [d])] := by
    rw [framesOf, List.length_singleton, count, List.range_one, List.map_singleton, samples]
  simp [arriving, frames, cut]

theorem SameMeaningUpTo.of_probe (same : SameMeaningUpTo limit schema sender receiver)
    (some_ : 0 < limit) (differ : sender ≠ receiver) {d : List UInt8} (size : d.length = sampleSize schema) :
    fieldValues receiver schema ((reverseWords (packed [d])).take (sampleSize schema)) =
      fieldValues sender schema d := by
  obtain ⟨filled, fits⟩ := same.size_bounds
  have mapped := oneSensor_mapped filled fits
  have sendable := oneSensor_sendable filled fits
  have sizes : ∀ e ∈ [d], e.length = sampleSize schema := by simpa using size
  obtain ⟨s, holds, rc, packets, r', received, sent, got, appended, fields⟩ :=
    same.on_ram sizes (by simp) some_
  have room : ∀ k < 1 - 0, HasRoom (oneSensor (sampleSize schema)) 0 (0 + k) := fun k before =>
    oneSensor_room filled fits (by omega)
  obtain ⟨rc₂, packets₂, r₂, sent₂, got₂, appended₂⟩ :=
    transfer_appends (compatible_standard sender receiver) sendable holds (Nat.zero_le 1)
      (Nat.le_refl 1) (ram_lawful mapped) ⟨_, _, blankStore_working _ _⟩
      (blankStore_index mapped.variable_lt) room
      ((loadsInside_iff filled).mpr (.inr (Nat.le_add_left 1 _))) 1
  -- both accounts are of one run, so they name the same sample
  obtain rfl : packets = packets₂ := by
    have pair := Option.some.inj (sent.symm.trans sent₂)
    exact (Prod.mk.inj pair).2
  obtain rfl : r' = r₂ := Option.some.inj (got.symm.trans got₂)
  have one : received.length = 1 := by simpa using congrArg List.length fields
  obtain ⟨x, rfl⟩ := List.length_eq_one_iff.mp one
  have only : selected [d] 0 1 = [d] := rfl
  rw [only, arriving_one sendable, carried_other differ (packed_whole [d])] at appended₂
  have mine := appended.stored 0 Nat.zero_lt_one
  have theirs := appended₂.stored 0 Nat.zero_lt_one
  have equal : x = (reverseWords (packed [d])).take (sampleSize schema) :=
    Except.ok.inj (Option.some.inj (mine.symm.trans theirs))
  rw [← equal]
  simpa using fields

theorem SameMeaningUpTo.plain (same : SameMeaningUpTo limit schema sender receiver)
    (some_ : 0 < limit) : sender = receiver ∨ ∀ t ∈ schema, width t = 4 := by
  by_contra neither
  obtain ⟨differ, other⟩ := not_or.mp neither
  obtain ⟨-, fits⟩ := same.size_bounds
  obtain ⟨words, t, rest, split, before, odd⟩ := first_other_field other
  have front := sampleSize_of_words before
  have total : sampleSize schema = 4 * words.length + (width t + sampleSize rest) := by
    rw [split, ← front]
    simp [sampleSize]
  have some_width : 0 < width t := by cases t <;> decide
  have inside : 4 * words.length < sampleSize schema := by omega
  have values := same.of_probe some_ differ (probe_length inside)
  rw [packed_probe inside fits] at values
  nth_rewrite 1 [split] at values
  nth_rewrite 2 [split] at values
  rw [fieldValues_append, fieldValues_append, front] at values
  obtain ⟨-, tails⟩ := List.append_inj values (by rw [fieldValues_length, fieldValues_length])
  obtain ⟨field, -⟩ := List.cons.inj tails
  obtain ⟨rest', turned⟩ := reverseWords_probe_drop (show 4 * words.length < comFrameMaxLen by omega)
  rw [List.drop_take, turned, List.take_take, Nat.min_eq_left (by omega), probe_drop] at field
  refine fieldValue_probe odd ?_ field
  simp only [List.length_cons, List.length_replicate]
  omega

end Probes

/-- Telemetry means the same on both hosts exactly when a frame holds a sample of
    at least four bytes, and the hosts agree or every field is a word; and up to a
    number of samples also when they are so few that four bytes can be loaded at
    the start of each. -/
theorem telemetry_same_meaning_iff (schema : List FieldType) (sender receiver : Endian) :
    (SameMeaning schema sender receiver ↔
      4 ≤ sampleSize schema ∧ sampleSize schema ≤ comFrameMaxLen ∧
        (sender = receiver ∨ ∀ t ∈ schema, width t = 4)) ∧
    ∀ limit, SameMeaningUpTo limit schema sender receiver ↔
      0 < sampleSize schema ∧ sampleSize schema ≤ comFrameMaxLen ∧
        (4 ≤ sampleSize schema ∨ limit ≤ 188 / sampleSize schema + 1) ∧
        (limit = 0 ∨ sender = receiver ∨ ∀ t ∈ schema, width t = 4) := by
  refine ⟨⟨fun same => ?_, ?_⟩, fun limit => ⟨fun same => ?_, ?_⟩⟩
  · have few : 188 / sampleSize schema ≤ 188 := Nat.div_le_self _ _
    have wide := (same 190).loads.resolve_right (by omega)
    exact ⟨wide, (same 0).size_bounds.2, (same 1).plain Nat.zero_lt_one⟩
  · rintro ⟨wide, fits, plain⟩ limit
    exact sameMeaning_of_words (by omega) fits (.inl wide) (.inr plain)
  · exact ⟨same.size_bounds.1, same.size_bounds.2, same.loads,
      (Nat.eq_zero_or_pos limit).imp_right same.plain⟩
  · rintro ⟨filled, fits, loads, plain⟩
    exact sameMeaning_of_words filled fits loads plain

def dummyData : List FieldType := [.u, .u, .h, .h, .f, .d, .s]

theorem dummy_data_changes_meaning : ¬ SameMeaning dummyData .big .little := by
  intro same
  rcases (same 1).plain Nat.zero_lt_one with equal | words
  · cases equal
  · exact absurd (words .h (by decide)) (by decide)

end TelemetryFields
