import SuchaiFlight.AcknowledgedSamples
import SuchaiFlight.TelemetryTransfer
import SuchaiFlight.Library.SignedWord

/-!
The window of samples that `tm_send_from` sends: those after the acknowledged
ones, as many as asked for. Its end is a sum in 32 bits.
-/
namespace TelemetryWindow
open StorageApi RepoData RepoCommand PayloadData PayloadCalls AcknowledgedSamples FileFrames
open TelemetryFrames TelemetryTransfer Blocks ByteMemory ByteOrder SignedWord

section Command
variable {σ : Type} (host : Host) (S : PayloadTables σ) (c : Config) (m : PayloadMap)
  (schCommNode : UInt8) (link : Link)

def sendFrom (s : σ) (params : Option (UInt32 × UInt32 × UInt32)) :
    Option (Int32 × List (List UInt8)) := do
  match ← tmSendFrom S c m s params with
  | .error rc => return (rc, [])
  | .ok request =>
    tmSendTelFromTo host S.toPayloadStorage c m.toDataMap schCommNode link request.start.toInt
      request.stop.toInt request.payload.toNat s

def Carries (p : Nat) (packet : List UInt8) (samples : List (List UInt8)) : Prop :=
  ∃ frame, frameAt host.order packet = some frame ∧
    frame.type = tmTypePayload + UInt8.ofNat p ∧
    cut (m.size p) (host.ntoh32 frame.ndata).toNat (mapWords host.order host.ntoh32 frame.data) =
      samples

def SendsWindow (s : σ) (p destNode samples : UInt32) (window : List (List UInt8)) : Prop :=
  ∃ rc packets batches,
    sendFrom host S c m schCommNode link s (some (p, destNode, samples)) = some (rc, packets) ∧
    List.Forall₂ (Carries host m p.toNat) packets batches ∧ [] ∉ batches ∧
    batches.flatten = window

end Command

/-! The end of the window. -/

section Sum
variable {a : Nat} (samples : UInt32)

theorem sum_toNat (counted : a < 2147483648) :
    ((Int32.ofNat a).toUInt32 + samples).toNat = (a + samples.toNat) % 4294967296 := by
  rw [UInt32.toNat_add, toNat_toUInt32_ofNat counted]

theorem des_toInt (counted : a < 2147483648) :
    (((Int32.ofNat a).toUInt32 + samples).toInt32).toInt =
      if a + samples.toNat < 2147483648 then (a + samples.toNat : Int)
      else a + samples.toNat - 4294967296 := by
  have below := samples.toNat_lt
  rw [toInt_toInt32, sum_toNat samples counted]
  split <;> split <;> omega

theorem stop_toInt {n : Nat} (order : a ≤ n) (counted : n < 2147483648) :
    (if Int32.ofNat n < ((Int32.ofNat a).toUInt32 + samples).toInt32 then Int32.ofNat n
      else ((Int32.ofNat a).toUInt32 + samples).toInt32).toInt =
      if a + samples.toNat < 2147483648 then ((min (a + samples.toNat) n : Nat) : Int)
      else a + samples.toNat - 4294967296 := by
  have below := samples.toNat_lt
  have last : (Int32.ofNat n).toInt = n := Int32.toInt_ofNat_of_lt counted
  have sum := des_toInt samples (show a < 2147483648 by omega)
  by_cases past : Int32.ofNat n < ((Int32.ofNat a).toUInt32 + samples).toInt32
  · rw [if_pos past, last]
    rw [Int32.lt_iff_toInt_lt, last, sum] at past
    split at past <;> rename_i small
    · rw [if_pos small]
      omega
    · omega
  · rw [if_neg past, sum]
    rw [Int32.lt_iff_toInt_lt, last, sum] at past
    split at past <;> rename_i small
    · rw [if_pos small, if_pos small]
      omega
    · rw [if_neg small, if_neg small]

end Sum

/-! Transfers. -/

/-- A working link, and a payload whose samples fit a frame. -/
structure Transferable (m : DataMap) (link : Link) (p : Nat) : Prop where
  up : link.Up
  known : p < m.lastSensor
  filled : 0 < m.size p
  fits : m.size p ≤ comFrameMaxLen

section Transfer
variable {σ : Type} {host : Host} {S : PayloadTables σ} {c : Config} {m : PayloadMap}
  {schCommNode : UInt8} {link : Link} {s : σ} {p destNode samples : UInt32}
  {stored : List (List UInt8)} {a : Nat}

theorem carries_packetOf (host : Host) (schCommNode : UInt8) {q : Nat} (i : Nat)
    {batch : List (List UInt8)} (sizes : ∀ d ∈ batch, d.length = m.size q)
    (fits : batch.length * m.size q ≤ comFrameMaxLen) (few : batch.length ≤ comFrameMaxLen) :
    Carries host m q (packetOf host schCommNode q i batch) batch := by
  refine ⟨_, frameAt_image _ _ _, rfl, ?_⟩
  have number : (UInt32.ofNat batch.length).toNat = batch.length := by
    rw [UInt32.toNat_ofNat']
    unfold comFrameMaxLen at few
    omega
  rw [bytesWord_wordBytes, host.ntoh32_hton32, number,
    mapWords_inverse host.order host.ntoh32_hton32 (packed_whole batch)]
  exact cut_packed sizes fits

theorem Carries.unique {q : Nat} {packet : List UInt8} {one two : List (List UInt8)}
    (first : Carries host m q packet one) (second : Carries host m q packet two) : one = two := by
  obtain ⟨frame, read, -, rfl⟩ := first
  obtain ⟨frame', read', -, rfl⟩ := second
  obtain rfl := Option.some.inj (read.symm.trans read')
  rfl

theorem empty_packet_carries {q : Nat} {packets : List (List UInt8)}
    {batches : List (List (List UInt8))} (host : Host) (schCommNode : UInt8)
    (carries : List.Forall₂ (Carries host m q) (packetOf host schCommNode q 0 [] :: packets)
      batches) : [] ∈ batches := by
  obtain ⟨batch, rest, carried, -, rfl⟩ := List.forall₂_cons_left_iff.mp carries
  have blank : Carries host m q (packetOf host schCommNode q 0 []) [] :=
    carries_packetOf host schCommNode 0 (by simp) (by simp) (Nat.zero_le _)
  obtain rfl := carried.unique blank
  exact List.mem_cons_self

theorem framesOf_filled {spf : Nat} (pos : 0 < spf) {all : List (List UInt8)} :
    [] ∉ (framesOf spf all).map Prod.snd := by
  intro mem
  obtain ⟨f, mem, empty⟩ := List.mem_map.mp mem
  obtain ⟨i, inside, rfl⟩ := List.mem_map.mp mem
  have before := (lt_blockCount_iff pos).mp (List.mem_range.mp inside)
  have length := block_length spf all i
  rw [show block spf all i = [] from empty, List.length_nil] at length
  omega

/-- Fewer samples than none count as one frame, when they are less than a frame. -/
theorem frameCount_behind {spf k : Nat} (pos : 0 < spf) (behind : 0 < k) :
    (frameCount spf (-(k : Int))).toNat = if k < spf then 1 else 0 := by
  have div : (-(k : Int)).tdiv spf = -((k / spf : Nat) : Int) := Int.neg_tdiv k spf
  have rem : (-(k : Int)).tmod spf = -((k % spf : Nat) : Int) := Int.neg_tmod k spf
  unfold frameCount
  rw [div, rem]
  by_cases less : k < spf
  · rw [Nat.div_eq_of_lt less, Nat.mod_eq_of_lt less, if_pos less, if_pos (by omega)]
    rfl
  · have frames : 1 ≤ k / spf := (Nat.one_le_div_iff pos).mpr (Nat.not_lt.mp less)
    rw [if_neg less]
    split <;> omega

theorem payloadPacket_behind (host : Host) (schCommNode : UInt8)
    (sample : Nat → Option (Except Int32 (List UInt8))) (q size : Nat) {spf : Nat} (pos : 0 < spf)
    {n : Int} (behind : n ≤ 0) :
    payloadPacket host schCommNode sample q size spf n 0 =
      some (packetOf host schCommNode q 0 []) := by
  obtain ⟨rest, rfl⟩ := Nat.exists_eq_succ_of_ne_zero (Nat.ne_of_gt pos)
  have blank : List.replicate comFrameMaxLen 0 = packed [] := rfl
  have len : (mapWords host.order host.hton32 (packed [])).length = comFrameMaxLen := by
    rw [mapWords_length _ _ (packed_whole []), packed_length]
  unfold payloadPacket fillFrame
  rw [if_pos (by omega)]
  simp only [Option.bind_eq_bind, Option.bind_some, blank, len, dite_true]
  rfl

/-- A window that ends before it starts: at most one frame is sent, without a
    sample. -/
theorem send_behind (sendable : Transferable m.toDataMap link p.toNat)
    (holds : Holds S.toPayloadStorage c m.toDataMap p.toNat s stored) (host : Host)
    (schCommNode : UInt8) {start stop : Int} {k : Nat} (behind : start = stop + k) (pos : 0 < k)
    (int : k ≤ 2147483648) :
    ∃ rc, tmSendTelFromTo host S.toPayloadStorage c m.toDataMap schCommNode link start stop p.toNat
        s = some (rc, if k < comFrameMaxLen / m.size p.toNat
          then [packetOf host schCommNode p.toNat 0 []] else []) := by
  have perFrame := Nat.div_pos sendable.fits sendable.filled
  have filled := sendable.filled
  have known := sendable.known
  have index := holds.index
  have count : stop - start = -(k : Int) := by omega
  unfold indexIs at index
  unfold tmSendTelFromTo
  simp only
  rw [if_neg (by omega), if_neg (by omega)]
  simp only [index, Option.bind_eq_bind, Option.bind_some, sendable.up.connects, Bool.not_true,
    Bool.false_eq_true, if_false, count, frameCount_behind perFrame pos]
  by_cases less : k < comFrameMaxLen / m.size p.toNat
  · simp only [if_pos less, sendFrames, sendable.up.buffers 0, sendable.up.sends 0, Bool.not_true,
      Bool.false_eq_true, if_false, Option.bind_eq_bind, Option.bind_some,
      payloadPacket_behind host schCommNode _ _ _ perFrame (show -(k : Int) ≤ 0 by omega)]
    exact ⟨_, rfl⟩
  · simp only [if_neg less, sendFrames, Option.bind_some]
    exact ⟨_, rfl⟩

theorem sendFrom_eq (sendable : Transferable m.toDataMap link p.toNat)
    (holds : Holds S.toPayloadStorage c m.toDataMap p.toNat s stored)
    (acked : ackOf S c m s p.toNat = some (Int32.ofNat a)) (order : a ≤ stored.length)
    (one : 1 ≤ samples) (host : Host) (schCommNode : UInt8) (destNode : UInt32) :
    sendFrom host S c m schCommNode link s (some (p, destNode, samples)) =
      tmSendTelFromTo host S.toPayloadStorage c m.toDataMap schCommNode link a
        (if a + samples.toNat < 2147483648 then
          ((min (a + samples.toNat) stored.length : Nat) : Int)
        else a + samples.toNat - 4294967296) p.toNat s := by
  have counted := holds.counted
  have index : indexOf S c m s p.toNat = some (Int32.ofNat stored.length) := holds.index
  have known : ¬ m.lastSensor ≤ p.toNat := Nat.not_le.mpr sendable.known
  have asked : ¬ samples < 1 := UInt32.not_lt.mpr one
  have first : (Int32.ofNat a).toInt = a := Int32.toInt_ofNat_of_lt (by omega)
  have last := stop_toInt samples order counted
  simp only [sendFrom, tmSendFrom, known, asked, if_false, index, acked, Option.bind_eq_bind,
    Option.bind_some, Option.pure_def, first, last]

theorem sends_small (sendable : Transferable m.toDataMap link p.toNat)
    (holds : Holds S.toPayloadStorage c m.toDataMap p.toNat s stored)
    (acked : ackOf S c m s p.toNat = some (Int32.ofNat a)) (order : a ≤ stored.length)
    (one : 1 ≤ samples) (host : Host) (schCommNode : UInt8) (destNode : UInt32)
    (small : a + samples.toNat < 2147483648) :
    SendsWindow host S c m schCommNode link s p destNode samples
      (selected stored a (min (a + samples.toNat) stored.length)) := by
  have run := sendFrom_eq sendable holds acked order one host schCommNode destNode
  rw [if_pos small] at run
  obtain ⟨rc, sent⟩ := send_frames sendable.up sendable.known sendable.filled sendable.fits
    holds (show a ≤ min (a + samples.toNat) stored.length by omega) (Nat.min_le_right _ _) host schCommNode
  have sizes := selected_sizes holds a (min (a + samples.toNat) stored.length)
  refine ⟨rc, _, (framesOf (comFrameMaxLen / m.size p.toNat) (selected stored a
    (min (a + samples.toNat) stored.length))).map Prod.snd, run.trans sent, ?_, ?_, ?_⟩
  · rw [List.forall₂_map_left_iff, List.forall₂_map_right_iff, List.forall₂_same]
    intro f mem
    obtain ⟨fits, few⟩ := frame_fits sendable.filled mem
    exact carries_packetOf host schCommNode f.1 (framesOf_sizes sizes mem) fits few
  · exact framesOf_filled (Nat.div_pos sendable.fits sendable.filled)
  · rw [← List.flatMap_def]
    exact framesOf_samples (Nat.div_pos sendable.fits sendable.filled) _

theorem sendFrom_large (sendable : Transferable m.toDataMap link p.toNat)
    (holds : Holds S.toPayloadStorage c m.toDataMap p.toNat s stored)
    (acked : ackOf S c m s p.toNat = some (Int32.ofNat a)) (order : a ≤ stored.length)
    (one : 1 ≤ samples) (host : Host) (schCommNode : UInt8) (destNode : UInt32)
    (large : 2147483648 ≤ a + samples.toNat) :
    (samples.toNat < 2147483648 →
      sendFrom host S c m schCommNode link s (some (p, destNode, samples)) = none) ∧
    (2147483648 ≤ samples.toNat → ∃ rc,
      sendFrom host S c m schCommNode link s (some (p, destNode, samples)) =
        some (rc, if 4294967296 < samples.toNat + comFrameMaxLen / m.size p.toNat
          then [packetOf host schCommNode p.toNat 0 []] else [])) := by
  have below := samples.toNat_lt
  have run := sendFrom_eq sendable holds acked order one host schCommNode destNode
  rw [if_neg (Nat.not_lt.mpr large)] at run
  constructor
  · intro few
    rw [run]
    unfold tmSendTelFromTo
    simp only
    split
    · rfl
    · rw [if_pos (by omega)]
  · intro many
    obtain ⟨rc, sent⟩ := send_behind sendable holds host schCommNode (show (a : Int) =
      (a + samples.toNat - 4294967296) + (4294967296 - samples.toNat : Nat) by omega) (by omega)
      (by omega)
    have same : 4294967296 - samples.toNat < comFrameMaxLen / m.size p.toNat ↔
        4294967296 < samples.toNat + comFrameMaxLen / m.size p.toNat := by omega
    simp only [same] at sent
    exact ⟨rc, run.trans sent⟩

/-- The window is sent exactly while its end is an `int`. An empty one is also
    sent for a sum that is far enough behind it. -/
theorem window_exact_iff (sendable : Transferable m.toDataMap link p.toNat)
    (holds : Holds S.toPayloadStorage c m.toDataMap p.toNat s stored)
    (acked : ackOf S c m s p.toNat = some (Int32.ofNat a)) (order : a ≤ stored.length)
    (one : 1 ≤ samples) (host : Host) (schCommNode : UInt8) (destNode : UInt32) :
    SendsWindow host S c m schCommNode link s p destNode samples
        (selected stored a (min (a + samples.toNat) stored.length)) ↔
      a + samples.toNat < 2147483648 ∨
        (a = stored.length ∧ 2147483648 ≤ samples.toNat ∧
          samples.toNat + comFrameMaxLen / m.size p.toNat ≤ 4294967296) := by
  have pos : 1 ≤ samples.toNat := UInt32.le_iff_toNat_le.mp one
  have empty_iff : selected stored a (min (a + samples.toNat) stored.length) = [] ↔
      a = stored.length := by
    rw [← List.length_eq_zero_iff, selected_length (Nat.min_le_right _ _)]
    omega
  by_cases small : a + samples.toNat < 2147483648
  · exact ⟨fun _ => .inl small,
      fun _ => sends_small sendable holds acked order one host schCommNode destNode small⟩
  · obtain ⟨overflows, behind⟩ := sendFrom_large sendable holds acked order one host schCommNode
      destNode (Nat.not_lt.mp small)
    constructor
    · rintro ⟨rc, packets, batches, run, carries, filled, whole⟩
      have many : 2147483648 ≤ samples.toNat := by
        by_contra few
        rw [overflows (Nat.not_le.mp few)] at run
        cases run
      obtain ⟨rc', sent⟩ := behind many
      rw [sent] at run
      obtain ⟨-, rfl⟩ := Prod.mk.inj (Option.some.inj run)
      split at carries <;> rename_i near
      · exact absurd (empty_packet_carries host schCommNode carries) filled
      · rw [List.forall₂_nil_left_iff.mp carries, List.flatten_nil] at whole
        exact .inr ⟨empty_iff.mp whole.symm, many, Nat.not_lt.mp near⟩
    · rintro (now | ⟨all, many, far⟩)
      · exact absurd now small
      · obtain ⟨rc, sent⟩ := behind many
        rw [if_neg (Nat.not_lt.mpr far)] at sent
        exact ⟨rc, [], [], sent, .nil, by simp, (empty_iff.mpr all).symm⟩

end Transfer

section Ram
open RamStorage RamPayload RamSamples FileTransfer

theorem temp_holds :
    ∃ s s₁, datRepoInit simpleConfig 1 = some s ∧
      nextAck (ramPayloadTables simpleConfig) simpleConfig tempSamples s tempSample = some s₁ ∧
      Holds (ramPayloadTables simpleConfig).toPayloadStorage simpleConfig tempSamples.toDataMap 0 s₁
        [List.replicate 12 0] ∧
      ackOf (ramPayloadTables simpleConfig) simpleConfig tempSamples s₁ 0 = some (Int32.ofNat 0) := by
  obtain ⟨s, cells, boot, samples, shows⟩ := temp_boot
  have known : 0 < tempSamples.lastSensor := by decide
  have room : HasRoom tempSamples.toDataMap 0 0 := by
    show 0 < schSectionsPerPayload * (schSizePerSection / 12)
    decide
  obtain ⟨s₁, add, samples₁, -⟩ := add_samples temp_schema samples known room
    (show 4 ≤ (List.replicate 12 (0 : UInt8)).length by decide) (by decide)
  obtain ⟨-, shows₁⟩ :=
    add_shows (ram_status simpleConfig) (ram_tables _) temp_ackSchema shows samples.ready add
  refine ⟨s, s₁, boot, congrArg (Option.map Prod.snd) add, ?_, shows₁.ack 0 known⟩
  have index := index_samples temp_schema samples₁ known
  rw [Function.update_self] at index
  refine ⟨index, by decide, fun k bound => ?_, by decide⟩
  obtain rfl : k = 0 := Nat.lt_one_iff.mp bound
  have read := read_samples temp_schema samples₁ known room
  rw [Function.update_self, Function.update_self] at read
  exact read

theorem temp_sendable : Transferable tempSamples.toDataMap plainLink (0 : UInt32).toNat where
  up := plainLink_up
  known := by decide
  filled := by decide
  fits := by decide

theorem one_sample_sent :
    ∃ s s₁, datRepoInit simpleConfig 1 = some s ∧
      nextAck (ramPayloadTables simpleConfig) simpleConfig tempSamples s tempSample = some s₁ ∧
      SendsWindow (standardHost .little) (ramPayloadTables simpleConfig) simpleConfig tempSamples 1
        plainLink s₁ 0 10 5 [List.replicate 12 0] := by
  obtain ⟨s, s₁, boot, add, holds, acked⟩ := temp_holds
  exact ⟨s, s₁, boot, add, (window_exact_iff temp_sendable holds acked (by decide)
    (show (1 : UInt32) ≤ 5 by decide) (standardHost .little) 1 10).mpr (.inl (by decide))⟩

theorem all_samples_not_sent :
    ∃ s s₁, datRepoInit simpleConfig 1 = some s ∧
      nextAck (ramPayloadTables simpleConfig) simpleConfig tempSamples s tempSample = some s₁ ∧
      ackOf (ramPayloadTables simpleConfig) simpleConfig tempSamples s₁ 0 = some 0 ∧
      indexOf (ramPayloadTables simpleConfig) simpleConfig tempSamples s₁ 0 = some 1 ∧
      (∃ rc, sendFrom (standardHost .little) (ramPayloadTables simpleConfig) simpleConfig
        tempSamples 1 plainLink s₁ (some (0, 10, 4294967295)) =
          some (rc, [packetOf (standardHost .little) 1 0 0 []])) ∧
      ¬ SendsWindow (standardHost .little) (ramPayloadTables simpleConfig) simpleConfig tempSamples
        1 plainLink s₁ 0 10 4294967295 [List.replicate 12 0] := by
  obtain ⟨s, s₁, boot, add, holds, acked⟩ := temp_holds
  obtain ⟨rc, run⟩ := (sendFrom_large temp_sendable holds acked (by decide)
    (show (1 : UInt32) ≤ 4294967295 by decide) (standardHost .little) 1 10 (by decide)).2 (by decide)
  rw [if_pos (by decide)] at run
  refine ⟨s, s₁, boot, add, acked, holds.index, ⟨rc, run⟩, ?_⟩
  rintro ⟨rc', packets, batches, sent, carries, filled, -⟩
  rw [run] at sent
  obtain ⟨-, rfl⟩ := Prod.mk.inj (Option.some.inj sent)
  exact absurd (empty_packet_carries (standardHost .little) 1 carries) filled

end Ram

end TelemetryWindow
