import SuchaiFlight.FileTransfer
import SuchaiFlight.RamPayload
import SuchaiFlight.TelemetryFrames

/-!
The samples that arrive. Sender and receiver may be different hosts here: a
frame is carried from the byte order of one to that of the other, and the
samples are cut from what arrives. On hosts that agree, the samples of the
transfer are appended as they are.
-/
namespace TelemetryTransfer
open StorageApi RepoData RepoCommand PayloadData FileFrames TelemetryFrames Blocks ByteMemory
open ByteOrder

def Compatible (sender receiver : Host) : Prop :=
  ∀ x, receiver.ntoh32 (bytesWord receiver.order (wordBytes sender.order (sender.hton32 x))) = x

theorem compatible_self (host : Host) : Compatible host host := by
  intro x
  rw [bytesWord_wordBytes, host.ntoh32_hton32]

def carried (sender receiver : Host) (data : List UInt8) : List UInt8 :=
  mapWords receiver.order receiver.ntoh32 (mapWords sender.order sender.hton32 data)

def cut (size count : Nat) (data : List UInt8) : List (List UInt8) :=
  (List.range count).map fun j => (data.drop (j * size)).take size

theorem carried_length (sender receiver : Host) {data : List UInt8} (whole : 4 ∣ data.length) :
    (carried sender receiver data).length = data.length := by
  have sent := mapWords_length sender.order sender.hton32 whole
  unfold carried
  rw [mapWords_length _ _ (by rwa [sent]), sent]

theorem carried_self (host : Host) {data : List UInt8} (whole : 4 ∣ data.length) :
    carried host host data = data :=
  mapWords_inverse host.order host.ntoh32_hton32 whole

/-! One frame. -/

section Frame
variable {σ : Type} {sender receiver : Host} {S : PayloadStorage σ} {c : Config} {m : DataMap}
  {p : Nat} {Good : σ → Prop} {room : Nat → Prop}

theorem frameAt_image (e e' : Endian) (frame : ComFrame) :
    frameAt e' (image e frame) = some { frame with
      nframe := bytesHalf e' (halfBytes e frame.nframe)
      ndata := bytesWord e' (wordBytes e frame.ndata) } := by
  unfold image
  match nframe : halfBytes e frame.nframe, halfBytes_length e frame.nframe with
  | [n₀, n₁], _ =>
    match ndata : wordBytes e frame.ndata, wordBytes_length e frame.ndata with
    | [d₀, d₁, d₂, d₃], _ => simp [frameAt, frame.size]

theorem type_toNat (small : 10 + p < 100) :
    (tmTypePayload + UInt8.ofNat p).toNat = 10 + p := by
  simp only [tmTypePayload, UInt8.toNat_add, UInt8.toNat_ofNat', UInt8.reduceToNat]
  omega

theorem type_ne (small : 10 + p < 100) {other : UInt8} (apart : other.toNat < 10 ∨ 100 ≤ other.toNat) :
    tmTypePayload + UInt8.ofNat p ≠ other := by
  intro same
  have number := type_toNat small
  rw [same] at number
  omega

theorem comReceiveTm_packet (agree : Compatible sender receiver) (known : p < m.lastSensor)
    (small : 10 + p < 100) (schCommNode : UInt8) (i : Nat) (samples : List (List UInt8)) :
    ∃ frame, comReceiveTm receiver m (packetOf sender schCommNode p i samples) =
        some (some (.tmParsePayload frame)) ∧
      frame.type.toNat = 10 + p ∧ frame.ndata = UInt32.ofNat samples.length ∧
      mapWords receiver.order receiver.ntoh32 frame.data =
        carried sender receiver (packed samples) := by
  have number := type_toNat small
  have notStatus : tmTypePayload + UInt8.ofNat p ≠ tmTypeStatus := type_ne small (by decide)
  have notHelp : tmTypePayload + UInt8.ofNat p ≠ tmTypeHelp := type_ne small (by decide)
  have notFp : tmTypePayload + UInt8.ofNat p ≠ tmTypeFp := type_ne small (by decide)
  have inRange : tmTypePayload ≤ tmTypePayload + UInt8.ofNat p ∧
      (tmTypePayload + UInt8.ofNat p).toNat < tmTypePayload.toNat + m.lastSensor := by
    rw [UInt8.le_iff_toNat_le, number]
    simp only [tmTypePayload, UInt8.reduceToNat]
    omega
  unfold comReceiveTm packetOf
  rw [frameAt_image]
  simp only [Option.bind_eq_bind, Option.bind_some, notStatus, notHelp, notFp, if_false, inRange,
    and_self, if_true]
  exact ⟨_, rfl, number, agree _, rfl⟩

theorem parseSamples_appends (lawful : Lawful S c m p Good room) (known : p < m.lastSensor)
    {data : List UInt8} :
    ∀ left j errors s i, Good s → indexIs S c m p s i → (∀ k < left, room (i + k)) →
      (∀ k, j ≤ k → k < j + left →
        k * m.size p + 4 ≤ data.length ∧ (k + 1) * m.size p ≤ data.length) →
      ∃ s', parseSamples S c m p data left j errors s = some (errors, s') ∧
        Appended S c m p Good room s i
          ((List.range' j left).map fun j => (data.drop (j * m.size p)).take (m.size p)) s' := by
  intro left
  induction left with
  | zero =>
    intro j errors s i good index accepts inside
    exact ⟨s, rfl, Appended.none good index⟩
  | succ left ih =>
    intro j errors s i good index accepts inside
    obtain ⟨log, sample⟩ := inside j (Nat.le_refl j) (by omega)
    rw [Nat.succ_mul] at sample
    have here : room i := accepts 0 (Nat.succ_pos left)
    obtain ⟨s₁, add, first⟩ := datAddPayloadSample_appends lawful known good index here
      (show 4 ≤ (data.drop (j * m.size p)).length by rw [List.length_drop]; omega)
      (by rw [List.length_drop]; omega)
    obtain ⟨s₂, rest, second⟩ := ih (j + 1) errors s₁ (i + 1) first.good first.index
      (fun k before => by
        rw [Nat.add_assoc, Nat.add_comm 1 k]
        exact accepts (k + 1) (by omega))
      (fun k low high => inside k (by omega) (by omega))
    refine ⟨s₂, ?_, ?_⟩
    · unfold parseSamples
      simp only [add, Option.bind_eq_bind, Option.bind_some]
      exact rest
    · rw [List.range'_succ, List.map_cons]
      refine Appended.trans ?_ first second
      intro k before
      obtain rfl : k = 0 := by simpa using before
      exact here

theorem parseSamples_overreads {data : List UInt8} {k : Nat} :
    ∀ left j errors s, j ≤ k → k < j + left → data.length < k * m.size p + 4 →
      parseSamples S c m p data left j errors s = none := by
  intro left
  induction left with
  | zero =>
    intro j errors s low high beyond
    omega
  | succ left ih =>
    intro j errors s low high beyond
    unfold parseSamples
    by_cases now : j = k
    · have short : ¬ (p < m.lastSensor ∧ 4 ≤ (data.drop (j * m.size p)).length ∧
          m.size p ≤ (data.drop (j * m.size p)).length) := by
        rw [List.length_drop, now]
        omega
      rw [datAddPayloadSample, if_neg short]
      rfl
    · cases datAddPayloadSample S c m s (data.drop (j * m.size p)) p with
      | none => rfl
      | some result =>
        simp only [Option.bind_eq_bind, Option.bind_some]
        exact ih (j + 1) _ _ (by omega) (by omega) beyond

theorem tmParsePayload_eq {frame : ComFrame} {count : Nat} {data : List UInt8}
    (type : frame.type.toNat = 10 + p) (ndata : frame.ndata = UInt32.ofNat count)
    (arrived : mapWords receiver.order receiver.ntoh32 frame.data = data)
    (known : p < m.lastSensor) (fits : count * m.size p ≤ comFrameMaxLen)
    (few : count ≤ comFrameMaxLen) (s : σ) :
    tmParsePayload receiver S c m frame s = (do
      let (errors, s) ← parseSamples S c m p data count 0 0 s
      return (if 0 < errors then cmdError else cmdOk, s)) := by
  have isPayload : ¬ frame.type < tmTypePayload := by
    rw [UInt8.lt_iff_toNat_lt, type]
    simp [tmTypePayload]
  have payload : frame.type.toNat - tmTypePayload.toNat = p := by
    rw [type]
    simp [tmTypePayload]
  have number : frame.ndata.toNat = count := by
    unfold comFrameMaxLen at few
    rw [ndata, UInt32.toNat_ofNat']
    omega
  have inside : count * m.size p % 4294967296 ≤ comFrameMaxLen :=
    le_trans (Nat.mod_le _ _) fits
  unfold tmParsePayload
  rw [if_neg isPayload]
  simp only [payload, number, arrived, inside, if_true]
  rw [if_neg (by omega)]

def LoadsInside (size count : Nat) : Prop := ∀ j < count, j * size + 4 ≤ comFrameMaxLen

theorem carried_packed_length (sender receiver : Host) (samples : List (List UInt8)) :
    (carried sender receiver (packed samples)).length = comFrameMaxLen := by
  rw [carried_length _ _ (packed_whole samples), packed_length]

theorem receiveAll_packet (agree : Compatible sender receiver) (known : p < m.lastSensor)
    (small : 10 + p < 100) {samples : List (List UInt8)}
    (fits : samples.length * m.size p ≤ comFrameMaxLen) (few : samples.length ≤ comFrameMaxLen)
    (s : σ) (schCommNode : UInt8) (nframe : Nat) (packets : List (List UInt8)) :
    receiveAll receiver S c m (packetOf sender schCommNode p nframe samples :: packets) s = (do
      let (_, s) ← parseSamples S c m p (carried sender receiver (packed samples))
        samples.length 0 0 s
      receiveAll receiver S c m packets s) := by
  obtain ⟨frame, command, type, ndata, arrived⟩ :=
    comReceiveTm_packet agree known small schCommNode nframe samples
  rw [receiveAll, command]
  simp only [Option.bind_eq_bind, Option.bind_some]
  rw [tmParsePayload_eq type ndata arrived known fits few]
  simp only [Option.bind_eq_bind, Option.bind_assoc]
  rfl

theorem receive_packet (lawful : Lawful S c m p Good room) (agree : Compatible sender receiver)
    (known : p < m.lastSensor) (small : 10 + p < 100) {samples : List (List UInt8)}
    (fits : samples.length * m.size p ≤ comFrameMaxLen) (few : samples.length ≤ comFrameMaxLen)
    (loads : LoadsInside (m.size p) samples.length) {s : σ} {i : Nat} (good : Good s)
    (index : indexIs S c m p s i) (accepts : ∀ k < samples.length, room (i + k))
    (schCommNode : UInt8) (nframe : Nat) :
    ∃ s', (∀ packets, receiveAll receiver S c m
        (packetOf sender schCommNode p nframe samples :: packets) s =
          receiveAll receiver S c m packets s') ∧
      Appended S c m p Good room s i
        (cut (m.size p) samples.length (carried sender receiver (packed samples))) s' := by
  have len := carried_packed_length sender receiver samples
  obtain ⟨s', parsed, appended⟩ := parseSamples_appends lawful known samples.length 0 0 s i good
    index accepts fun k _ before => by
      rw [Nat.zero_add] at before
      rw [len]
      exact ⟨loads k before, le_trans (Nat.mul_le_mul_right _ before) fits⟩
  refine ⟨s', ?_, ?_⟩
  · intro packets
    rw [receiveAll_packet agree known small fits few, parsed]
    rfl
  · unfold cut
    rw [List.range_eq_range']
    exact appended

theorem receive_packet_overreads (agree : Compatible sender receiver) (known : p < m.lastSensor)
    (small : 10 + p < 100) {samples : List (List UInt8)}
    (fits : samples.length * m.size p ≤ comFrameMaxLen) (few : samples.length ≤ comFrameMaxLen)
    (beyond : ¬ LoadsInside (m.size p) samples.length) (s : σ) (schCommNode : UInt8) (nframe : Nat)
    (packets : List (List UInt8)) :
    receiveAll receiver S c m (packetOf sender schCommNode p nframe samples :: packets) s =
      none := by
  simp only [LoadsInside, not_forall, not_le] at beyond
  obtain ⟨k, before, past⟩ := beyond
  rw [receiveAll_packet agree known small fits few, parseSamples_overreads (k := k) _ _ _ _
    (Nat.zero_le k) (by omega) (by rw [carried_packed_length]; exact past)]
  rfl

/-! A whole transfer. -/

theorem receiveAll_appends (lawful : Lawful S c m p Good room)
    (agree : Compatible sender receiver) (known : p < m.lastSensor) (small : 10 + p < 100)
    (schCommNode : UInt8) :
    ∀ (frames : List (Nat × List (List UInt8))),
      (∀ f ∈ frames, f.2.length * m.size p ≤ comFrameMaxLen ∧ f.2.length ≤ comFrameMaxLen ∧
        LoadsInside (m.size p) f.2.length) →
      ∀ s i, Good s → indexIs S c m p s i →
        (∀ k < (frames.flatMap Prod.snd).length, room (i + k)) →
        ∃ s', receiveAll receiver S c m
            (frames.map fun f => packetOf sender schCommNode p f.1 f.2) s = some s' ∧
          Appended S c m p Good room s i (frames.flatMap fun f =>
            cut (m.size p) f.2.length (carried sender receiver (packed f.2))) s' := by
  intro frames
  induction frames with
  | nil =>
    intro _ s i good index _
    exact ⟨s, rfl, Appended.none good index⟩
  | cons f frames ih =>
    intro sound s i good index accepts
    obtain ⟨fits, few, loads⟩ := sound f List.mem_cons_self
    rw [List.flatMap_cons, List.length_append] at accepts
    have acceptsFirst : ∀ k < f.2.length, room (i + k) := fun k before => accepts k (by omega)
    obtain ⟨s₁, step, first⟩ := receive_packet lawful agree known small fits few loads good index
      acceptsFirst schCommNode f.1
    have count : (cut (m.size p) f.2.length (carried sender receiver (packed f.2))).length =
        f.2.length := by simp [cut]
    have next := first.index
    rw [count] at next
    obtain ⟨s₂, rest, second⟩ := ih (fun f' mem => sound f' (List.mem_cons_of_mem f mem)) s₁
      (i + f.2.length) first.good next fun k before => by
        rw [Nat.add_assoc]
        exact accepts _ (by omega)
    refine ⟨s₂, ?_, ?_⟩
    · rw [List.map_cons, step]
      exact rest
    · rw [List.flatMap_cons]
      refine Appended.trans (fun k before => acceptsFirst k (by omega)) first ?_
      rw [count]
      exact second

end Frame

section Blocks
variable {size spf : Nat} {all : List (List UInt8)}

def framesOf (spf : Nat) (all : List (List UInt8)) : List (Nat × List (List UInt8)) :=
  (List.range (blockCount spf all.length)).map fun i => (i, block spf all i)

theorem framesOf_samples (pos : 0 < spf) (all : List (List UInt8)) :
    (framesOf spf all).flatMap Prod.snd = all := by
  have blocks : (framesOf spf all).flatMap Prod.snd =
      (List.range (blockCount spf all.length)).flatMap (block spf all) := by
    simp [framesOf, List.flatMap_map]
  rw [blocks, flatMap_blocks pos]

theorem framesOf_count {f : Nat × List (List UInt8)} (mem : f ∈ framesOf spf all) :
    f.2.length ≤ min spf all.length := by
  obtain ⟨i, -, rfl⟩ := List.mem_map.mp mem
  rw [block_length]
  omega

theorem framesOf_sizes (sizes : ∀ d ∈ all, d.length = size) {f : Nat × List (List UInt8)}
    (mem : f ∈ framesOf spf all) : ∀ d ∈ f.2, d.length = size := by
  obtain ⟨i, -, rfl⟩ := List.mem_map.mp mem
  exact block_sizes sizes i

theorem framesOf_first (pos : 0 < spf) (some_sample : 0 < all.length) :
    ∃ rest, framesOf spf all = (0, all.take spf) :: rest := by
  have count := blockCount_step pos some_sample
  have first : block spf all 0 = all.take spf := by simp [block]
  unfold framesOf
  rw [count, List.range_succ_eq_map, List.map_cons, first]
  exact ⟨_, rfl⟩

theorem cut_packed {samples : List (List UInt8)} (sizes : ∀ d ∈ samples, d.length = size)
    (fits : samples.length * size ≤ comFrameMaxLen) :
    cut size samples.length (packed samples) = samples := by
  have whole : samples.flatten.take comFrameMaxLen = samples.flatten :=
    List.take_of_length_le (by rwa [flatten_length sizes])
  apply List.ext_getElem
  · simp [cut]
  · intro j bound inside
    simp only [cut, packed, padded, List.getElem_map, List.getElem_range]
    rw [whole, take_drop_flatten sizes _ j inside]

end Blocks

/-! Hosts of one kind. -/

section RoundTrip
variable {σ τ : Type} {host : Host} {S : PayloadStorage σ} {R : PayloadStorage τ} {c d : Config}
  {m : DataMap} {schCommNode : UInt8} {link : Link} {p : Nat} {s : σ} {r : τ}
  {stored : List (List UInt8)} {Good : τ → Prop} {room : Nat → Prop} {start stop i : Nat}

def RoundTrip (host : Host) (S : PayloadStorage σ) (R : PayloadStorage τ) (c d : Config)
    (m : DataMap) (schCommNode : UInt8) (link : Link) (p : Nat) (s : σ) (r : τ)
    (stored : List (List UInt8)) (Good : τ → Prop) (room : Nat → Prop) (start stop i : Nat) :
    Prop :=
  ∃ rc packets r', tmSendTelFromTo host S c m schCommNode link start stop p s = some (rc, packets) ∧
    receiveAll host R d m packets r = some r' ∧
    Appended R d m p Good room r i (selected stored start stop) r'

theorem loadsInside_iff {size n : Nat} (filled : 0 < size) :
    LoadsInside size (min (comFrameMaxLen / size) n) ↔ 4 ≤ size ∨ n ≤ 188 / size + 1 := by
  have top := Nat.div_mul_le_self comFrameMaxLen size
  have low := Nat.div_mul_le_self 188 size
  unfold LoadsInside
  constructor
  · intro loads
    by_contra both
    rw [not_or, not_le, not_le] at both
    obtain ⟨tiny, many⟩ := both
    have place := loads (188 / size + 1) ?_
    · unfold comFrameMaxLen at place
      have split := Nat.div_add_mod 188 size
      have rest := Nat.mod_lt 188 filled
      rw [Nat.succ_mul, Nat.mul_comm] at place
      omega
    · unfold comFrameMaxLen
      interval_cases size <;> omega
  · rintro (wide | few) j before
    · have inFrame : j + 1 ≤ comFrameMaxLen / size := by omega
      have bound := Nat.mul_le_mul_right size inFrame
      rw [Nat.succ_mul] at bound
      omega
    · have bound : j * size ≤ 188 / size * size := Nat.mul_le_mul_right size (by omega)
      unfold comFrameMaxLen
      omega

/-- What a transfer needs besides the samples: a working link, a payload that
    both nodes know, and samples that fit a frame. -/
structure Sendable (m : DataMap) (link : Link) (p : Nat) : Prop where
  up : link.Up
  known : p < m.lastSensor
  small : 10 + p < 100
  filled : 0 < m.size p
  fits : m.size p ≤ comFrameMaxLen

theorem Sendable.perFrame_pos (sendable : Sendable m link p) : 0 < comFrameMaxLen / m.size p :=
  Nat.div_pos sendable.fits sendable.filled

theorem frame_fits {size : Nat} (filled : 0 < size) {all : List (List UInt8)}
    {f : Nat × List (List UInt8)} (mem : f ∈ framesOf (comFrameMaxLen / size) all) :
    f.2.length * size ≤ comFrameMaxLen ∧ f.2.length ≤ comFrameMaxLen := by
  have count := framesOf_count mem
  have top := Nat.div_mul_le_self comFrameMaxLen size
  have bound : f.2.length * size ≤ comFrameMaxLen / size * size :=
    Nat.mul_le_mul_right _ (by omega)
  have single := Nat.le_mul_of_pos_right f.2.length filled
  omega

theorem send_frames (up : link.Up) (known : p < m.lastSensor) (filled : 0 < m.size p)
    (fits : m.size p ≤ comFrameMaxLen) (holds : Holds S c m p s stored) (order : start ≤ stop)
    (upto : stop ≤ stored.length) (host : Host) (schCommNode : UInt8) :
    ∃ rc, tmSendTelFromTo host S c m schCommNode link start stop p s =
      some (rc, (framesOf (comFrameMaxLen / m.size p) (selected stored start stop)).map fun f =>
        packetOf host schCommNode p f.1 f.2) := by
  obtain ⟨rc, sent⟩ := tmSendTelFromTo_eq up known filled fits holds order upto host schCommNode
  refine ⟨rc, ?_⟩
  rw [sent, framesOf, selected_length upto, List.map_map]
  rfl

theorem Sendable.send_frames (sendable : Sendable m link p) (holds : Holds S c m p s stored)
    (order : start ≤ stop) (upto : stop ≤ stored.length) (host : Host) (schCommNode : UInt8) :
    ∃ rc, tmSendTelFromTo host S c m schCommNode link start stop p s =
      some (rc, (framesOf (comFrameMaxLen / m.size p) (selected stored start stop)).map fun f =>
        packetOf host schCommNode p f.1 f.2) :=
  TelemetryTransfer.send_frames sendable.up sendable.known sendable.filled sendable.fits holds order
    upto host schCommNode

theorem loads_of_received {sender receiver : Host} {rc : Int32} {packets : List (List UInt8)}
    {r' : τ} (agree : Compatible sender receiver) (sendable : Sendable m link p)
    (holds : Holds S c m p s stored) (order : start ≤ stop) (upto : stop ≤ stored.length)
    (sent : tmSendTelFromTo sender S c m schCommNode link start stop p s = some (rc, packets))
    (received : receiveAll receiver R d m packets r = some r') :
    LoadsInside (m.size p) (min (comFrameMaxLen / m.size p) (stop - start)) := by
  have count : (selected stored start stop).length = stop - start := selected_length upto
  obtain ⟨rc', known⟩ := sendable.send_frames holds order upto sender schCommNode
  rw [known] at sent
  obtain ⟨-, rfl⟩ := Prod.mk.inj (Option.some.inj sent)
  by_contra beyond
  have some_sample : 0 < (selected stored start stop).length := by
    rw [count]
    by_contra none_left
    exact beyond fun j before => by omega
  obtain ⟨rest, first⟩ := framesOf_first sendable.perFrame_pos some_sample
  have member : (0, (selected stored start stop).take (comFrameMaxLen / m.size p)) ∈
      framesOf (comFrameMaxLen / m.size p) (selected stored start stop) := by simp [first]
  obtain ⟨fits, few⟩ := frame_fits sendable.filled member
  rw [first, List.map_cons, receive_packet_overreads agree sendable.known
    sendable.small fits few (by rwa [List.length_take, count])] at received
  cases received

def arriving (sender receiver : Host) (size : Nat) (all : List (List UInt8)) : List (List UInt8) :=
  (framesOf (comFrameMaxLen / size) all).flatMap fun f =>
    cut size f.2.length (carried sender receiver (packed f.2))

theorem transfer_appends {sender receiver : Host} (agree : Compatible sender receiver)
    (sendable : Sendable m link p) (holds : Holds S c m p s stored) (order : start ≤ stop)
    (upto : stop ≤ stored.length) (lawful : Lawful R d m p Good room) (good : Good r)
    (index : indexIs R d m p r i) (accepts : ∀ k < stop - start, room (i + k))
    (loads : LoadsInside (m.size p) (min (comFrameMaxLen / m.size p) (stop - start)))
    (schCommNode : UInt8) :
    ∃ rc packets r',
      tmSendTelFromTo sender S c m schCommNode link start stop p s = some (rc, packets) ∧
      receiveAll receiver R d m packets r = some r' ∧
      Appended R d m p Good room r i
        (arriving sender receiver (m.size p) (selected stored start stop)) r' := by
  have count : (selected stored start stop).length = stop - start := selected_length upto
  obtain ⟨rc, sent⟩ := sendable.send_frames holds order upto sender schCommNode
  have frames : ∀ f ∈ framesOf (comFrameMaxLen / m.size p) (selected stored start stop),
      f.2.length * m.size p ≤ comFrameMaxLen ∧ f.2.length ≤ comFrameMaxLen ∧
        LoadsInside (m.size p) f.2.length := by
    intro f mem
    obtain ⟨fits, few⟩ := frame_fits sendable.filled mem
    refine ⟨fits, few, fun j before => loads j ?_⟩
    have := framesOf_count mem
    omega
  obtain ⟨r', received, appended⟩ := receiveAll_appends lawful agree sendable.known sendable.small
    schCommNode _ frames r i good index
    (by rwa [framesOf_samples sendable.perFrame_pos, count])
  exact ⟨rc, _, r', sent, received, appended⟩

theorem arriving_self (sendable : Sendable m link p) {all : List (List UInt8)}
    (sizes : ∀ d ∈ all, d.length = m.size p) (host : Host) :
    arriving host host (m.size p) all = all := by
  unfold arriving
  nth_rewrite 2 [← framesOf_samples sendable.perFrame_pos all]
  apply List.flatMap_congr
  intro f mem
  rw [carried_self host (packed_whole f.2),
    cut_packed (framesOf_sizes sizes mem) (frame_fits sendable.filled mem).1]

theorem payload_round_trip_iff (sendable : Sendable m link p) (holds : Holds S c m p s stored)
    (order : start ≤ stop) (upto : stop ≤ stored.length) (lawful : Lawful R d m p Good room)
    (good : Good r) (index : indexIs R d m p r i) (accepts : ∀ k < stop - start, room (i + k)) :
    RoundTrip host S R c d m schCommNode link p s r stored Good room start stop i ↔
      4 ≤ m.size p ∨ stop - start ≤ 188 / m.size p + 1 := by
  rw [← loadsInside_iff sendable.filled]
  constructor
  · rintro ⟨rc, packets, r', sent, received, -⟩
    exact loads_of_received (compatible_self host) sendable holds order upto sent received
  · intro loads
    obtain ⟨rc, packets, r', sent, received, appended⟩ :=
      transfer_appends (compatible_self host) sendable holds order upto lawful good index accepts
        loads schCommNode
    rw [arriving_self sendable (selected_sizes holds start stop) host] at appended
    exact ⟨rc, packets, r', sent, received, appended⟩

end RoundTrip

/-! Two nodes with the RAM back end. -/

open RamPayload

theorem ram_holds {c : Config} {m : DataMap} {p : Nat} {stored : List (List UInt8)}
    (mapped : Mapped c m p) (sizes : ∀ d ∈ stored, d.length = m.size p)
    (accepts : ∀ k < stored.length, HasRoom m p k) :
    ∃ s, Holds (ramPayloadStorage c) c m p s stored := by
  have lawful := ram_lawful mapped
  obtain ⟨s, appended⟩ := lawful.append stored sizes (blankStore c m) 0
    ⟨_, _, blankStore_working c m⟩ (blankStore_index mapped.variable_lt)
    (fun k before => by rw [Nat.zero_add]; exact accepts k before)
  exact ⟨s, Holds.of_appended lawful accepts sizes appended⟩

def oneSensor (size : Nat) : DataMap := ⟨1, fun _ => size, fun _ => 15⟩

theorem oneSensor_mapped {size : Nat} (filled : 0 < size) (fits : size ≤ comFrameMaxLen) :
    Mapped simpleConfig (oneSensor size) 0 where
  known := Nat.zero_lt_one
  filled := filled
  fits := le_trans fits (by decide)
  variable_lt := show 15 < 17 by decide

theorem oneSensor_sendable {size : Nat} (filled : 0 < size) (fits : size ≤ comFrameMaxLen) :
    Sendable (oneSensor size) FileTransfer.plainLink 0 where
  up := FileTransfer.plainLink_up
  known := Nat.zero_lt_one
  small := by decide
  filled := filled
  fits := fits

theorem oneSensor_room {size i : Nat} (filled : 0 < size) (fits : size ≤ comFrameMaxLen)
    (few : i < 192) : HasRoom (oneSensor size) 0 i := by
  have many : 1 * 1365 ≤ schSizePerSection / size := by
    rw [Nat.one_mul, Nat.le_div_iff_mul_le filled]
    exact le_trans (Nat.mul_le_mul_left 1365 fits) (by decide)
  unfold HasRoom
  show i < schSectionsPerPayload * (schSizePerSection / size)
  unfold schSectionsPerPayload
  omega

def zeroSamples (size n : Nat) : List (List UInt8) := List.replicate n (List.replicate size 0)

theorem zeroSamples_sizes (size n : Nat) : ∀ d ∈ zeroSamples size n, d.length = size := by
  intro d mem
  rw [List.eq_of_mem_replicate mem, List.length_replicate]

theorem round_trip_of_twenty :
    ∃ s, Holds (ramPayloadStorage simpleConfig) simpleConfig (oneSensor 12) 0 s
        (zeroSamples 12 20) ∧
      RoundTrip (standardHost .little) (ramPayloadStorage simpleConfig)
        (ramPayloadStorage simpleConfig) simpleConfig simpleConfig (oneSensor 12) 1
        FileTransfer.plainLink 0 s (blankStore simpleConfig (oneSensor 12)) (zeroSamples 12 20)
        (fun r => ∃ status db, Working simpleConfig (oneSensor 12) r status db)
        (HasRoom (oneSensor 12) 0) 0 20 0 := by
  have mapped := oneSensor_mapped (show 0 < 12 by decide) (by decide)
  have room : ∀ k < 20, HasRoom (oneSensor 12) 0 k := fun k before =>
    oneSensor_room (by decide) (by decide) (by omega)
  obtain ⟨s, holds⟩ := ram_holds mapped (zeroSamples_sizes 12 20) (by simpa [zeroSamples] using room)
  refine ⟨s, holds, ?_⟩
  refine (payload_round_trip_iff (oneSensor_sendable (by decide) (by decide)) holds (by decide)
    (by decide) (ram_lawful mapped) ⟨_, _, blankStore_working _ _⟩ (blankStore_index mapped.variable_lt)
    ?_).mpr (.inl (by decide))
  intro k before
  rw [Nat.zero_add]
  exact room k before

/-- Sixty-four samples of three bytes fill a frame, and the load at the last of
    them ends one byte behind it. -/
theorem three_byte_samples_overread :
    ∃ s, Holds (ramPayloadStorage simpleConfig) simpleConfig (oneSensor 3) 0 s
        (zeroSamples 3 64) ∧
      Sendable (oneSensor 3) FileTransfer.plainLink 0 ∧
      Lawful (ramPayloadStorage simpleConfig) simpleConfig (oneSensor 3) 0
        (fun r => ∃ status db, Working simpleConfig (oneSensor 3) r status db)
        (HasRoom (oneSensor 3) 0) ∧
      indexIs (ramPayloadStorage simpleConfig) simpleConfig (oneSensor 3) 0
        (blankStore simpleConfig (oneSensor 3)) 0 ∧
      (∀ k < 64, HasRoom (oneSensor 3) 0 k) ∧
      ¬ RoundTrip (standardHost .little) (ramPayloadStorage simpleConfig)
        (ramPayloadStorage simpleConfig) simpleConfig simpleConfig (oneSensor 3) 1
        FileTransfer.plainLink 0 s (blankStore simpleConfig (oneSensor 3)) (zeroSamples 3 64)
        (fun r => ∃ status db, Working simpleConfig (oneSensor 3) r status db)
        (HasRoom (oneSensor 3) 0) 0 64 0 := by
  have mapped := oneSensor_mapped (show 0 < 3 by decide) (by decide)
  have sendable := oneSensor_sendable (show 0 < 3 by decide) (by decide)
  have room : ∀ k < 64, HasRoom (oneSensor 3) 0 k := fun k before =>
    oneSensor_room (by decide) (by decide) (by omega)
  obtain ⟨s, holds⟩ := ram_holds mapped (zeroSamples_sizes 3 64) (by simpa [zeroSamples] using room)
  refine ⟨s, holds, sendable, ram_lawful mapped, blankStore_index mapped.variable_lt, room, ?_⟩
  rintro ⟨rc, packets, r', sent, received, -⟩
  have loads := loads_of_received (compatible_self _) sendable holds (by decide) (by decide) sent
    received
  exact absurd (loads 63 (by decide)) (by decide)

end TelemetryTransfer
