import SuchaiFlight.Library.Blocks
import SuchaiFlight.Library.ByteOrder
import SuchaiFlight.FileFrames
import SuchaiFlight.PayloadData

/-!
Payload telemetry: `tm_send_tel_from_to` of `cmdTM.c` packs samples into frames,
`com_receive_tm` of `taskCommunications.c` picks the command for a frame, and
`tm_parse_payload` adds its samples to the receiver. A packet is the memory of a
`com_frame_t` in the byte order of the host that wrote it.
-/
namespace TelemetryFrames
open StorageApi RepoData RepoCommand PayloadData FileFrames Blocks ByteMemory ByteOrder

def tmTypeStatus : UInt8 := 1
def tmTypeHelp : UInt8 := 2
def tmTypePayload : UInt8 := 10
def tmTypeFp : UInt8 := 105

/-- The byte order of a computer and the conversions of its CSP library. -/
structure Host where
  order : Endian
  hton16 : UInt16 → UInt16
  ntoh16 : UInt16 → UInt16
  hton32 : UInt32 → UInt32
  ntoh32 : UInt32 → UInt32
  ntoh16_hton16 : ∀ x, ntoh16 (hton16 x) = x
  ntoh32_hton32 : ∀ x, ntoh32 (hton32 x) = x

/-- The documented conversions: network order is big endian, so that a little
    endian host swaps bytes and a big endian one does nothing. -/
def standardHost (e : Endian) : Host where
  order := e
  hton16 x := if e = .little then swap16 x else x
  ntoh16 x := if e = .little then swap16 x else x
  hton32 x := if e = .little then swap32 x else x
  ntoh32 x := if e = .little then swap32 x else x
  ntoh16_hton16 x := by
    split
    · exact swap16_swap16 x
    · rfl
  ntoh32_hton32 x := by
    split
    · exact swap32_swap32 x
    · rfl

structure ComFrame where
  nframe : UInt16
  type : UInt8
  node : UInt8
  ndata : UInt32
  data : List UInt8
  size : data.length = comFrameMaxLen

theorem zeros_length : (List.replicate comFrameMaxLen (0 : UInt8)).length = comFrameMaxLen :=
  List.length_replicate

def image (e : Endian) (frame : ComFrame) : List UInt8 :=
  halfBytes e frame.nframe ++ [frame.type, frame.node] ++ wordBytes e frame.ndata ++ frame.data

def frameAt (e : Endian) (packet : List UInt8) : Option ComFrame :=
  match packet with
  | n₀ :: n₁ :: type :: node :: d₀ :: d₁ :: d₂ :: d₃ :: data =>
    if size : data.length = comFrameMaxLen then
      some ⟨bytesHalf e [n₀, n₁], type, node, bytesWord e [d₀, d₁, d₂, d₃], data, size⟩
    else none
  | _ => none

section Sender
variable {σ : Type} (host : Host) (S : PayloadStorage σ) (c : Config) (m : DataMap)
  (schCommNode : UInt8) (link : Link)

def overwrite (data : List UInt8) (offset : Nat) (bytes : List UInt8) : List UInt8 :=
  data.take offset ++ bytes ++ data.drop (offset + bytes.length)

/-- The inner loop, with the value of `ndata`. `sample k` is what
    `dat_get_recent_payload_sample` returns for the k-th sample; after an error
    the buffer is indeterminate. -/
def fillFrame (sample : Nat → Option (Except Int32 (List UInt8))) (payloadSize structsPerFrame : Nat)
    (nSamples : Int) (i : Nat) : Nat → Nat → List UInt8 → Option (Nat × List UInt8)
  | 0, _, data => some (structsPerFrame, data)
  | left + 1, j, data =>
    if nSamples ≤ (i * structsPerFrame + j : Nat) then some (j, data)
    else do
      let res ← sample (i * structsPerFrame + j)
      let buff ← res.toOption
      fillFrame sample payloadSize structsPerFrame nSamples i left (j + 1)
        (overwrite data (j * payloadSize) buff)

/-- One packet. The data is filled in place, so its length is checked where the
    frame is built. -/
def payloadPacket (sample : Nat → Option (Except Int32 (List UInt8))) (payload payloadSize
    structsPerFrame : Nat) (nSamples : Int) (i : Nat) : Option (List UInt8) := do
  let (ndata, data) ← fillFrame sample payloadSize structsPerFrame nSamples i structsPerFrame 0
    (List.replicate comFrameMaxLen 0)
  if size : (mapWords host.order host.hton32 data).length = comFrameMaxLen then
    return image host.order
      { nframe := host.hton16 (UInt16.ofNat i)
        type := tmTypePayload + UInt8.ofNat payload
        node := schCommNode
        ndata := host.hton32 (UInt32.ofNat ndata)
        data := mapWords host.order host.hton32 data
        size := size }
  else none

/-- The loop over the frames, with `rc_send` as a Boolean. -/
def sendFrames (sample : Nat → Option (Except Int32 (List UInt8))) (payload payloadSize
    structsPerFrame : Nat) (nSamples : Int) :
    Nat → Nat → Bool → Option (Bool × List (List UInt8))
  | 0, _, rcSend => some (rcSend, [])
  | left + 1, i, _ =>
    if !link.buffers i then some (false, [])
    else do
      let packet ← payloadPacket host schCommNode sample payload payloadSize structsPerFrame
        nSamples i
      if !link.sends i then return (false, [])
      else
        let (rcSend, packets) ← sendFrames sample payload payloadSize structsPerFrame nSamples left
          (i + 1) true
        return (rcSend, packet :: packets)

/-- Division rounds toward zero, so a small negative number of samples counts as
    one frame. -/
def frameCount (structsPerFrame : Nat) (nSamples : Int) : Int :=
  nSamples.tdiv structsPerFrame + if nSamples.tmod structsPerFrame ≠ 0 then 1 else 0

/-- The samples from `start` to before `stop`. A sample size of zero, or one
    that no frame can hold, is a division by zero, and the difference is an
    `int`. -/
def tmSendTelFromTo (start stop : Int) (payload : Nat) (s : σ) :
    Option (Int32 × List (List UInt8)) := do
  let payloadSize := m.size payload
  let structsPerFrame := comFrameMaxLen / payloadSize
  if m.lastSensor ≤ payload ∨ payloadSize = 0 ∨ structsPerFrame = 0 then none
  else if stop - start < -2147483648 ∨ 2147483647 < stop - start then none
  else
    let nSamples := stop - start
    let indexPay ← datGetSystemVar S.toStorage c s (m.sysIndex payload)
    if !link.connects then return (cmdError, [])
    else
      let sample := fun k : Nat => datGetRecentPayloadSample S c m s payload
        (nSamples + (indexPay.toInt - stop) - (k + 1))
      let (rcSend, packets) ← sendFrames host schCommNode link sample payload payloadSize
        structsPerFrame nSamples (frameCount structsPerFrame nSamples).toNat 0 false
      return (if link.closes && rcSend then cmdOk else cmdError, packets)

end Sender

section Receiver
variable {σ : Type} (host : Host) (S : PayloadStorage σ) (c : Config) (m : DataMap)

inductive TmCommand where
  | tmParseStatus (frame : ComFrame)
  | tmParseString (frame : ComFrame)
  | tmPrintFp (frame : ComFrame)
  | tmParsePayload (frame : ComFrame)

def comReceiveTm (packet : List UInt8) : Option (Option TmCommand) := do
  let frame ← frameAt host.order packet
  let frame : ComFrame :=
    { frame with nframe := host.ntoh16 frame.nframe, ndata := host.ntoh32 frame.ndata }
  if frame.type = tmTypeStatus then return some (.tmParseStatus frame)
  else if frame.type = tmTypeHelp then return some (.tmParseString frame)
  else if frame.type = tmTypeFp then return some (.tmPrintFp frame)
  else if tmTypePayload ≤ frame.type ∧ frame.type.toNat < tmTypePayload.toNat + m.lastSensor then
    return some (.tmParsePayload frame)
  else return none

/-- The loop over the samples of a frame, with the number of errors. -/
def parseSamples (payload : Nat) (data : List UInt8) : Nat → Nat → Nat → σ → Option (Nat × σ)
  | 0, _, errors, s => some (errors, s)
  | left + 1, j, errors, s => do
    let (rc, s) ← datAddPayloadSample S c m s (data.drop (j * m.size payload)) payload
    parseSamples payload data left (j + 1) (if rc = -1 then errors + 1 else errors) s

/-- A failed assertion stops the program. The product in it is a `uint32_t`. -/
def tmParsePayload (frame : ComFrame) (s : σ) : Option (Int32 × σ) :=
  if frame.type < tmTypePayload then none
  else
    let payload := frame.type.toNat - tmTypePayload.toNat
    if m.lastSensor ≤ payload then some (cmdSyntaxError, s)
    else
      let data := mapWords host.order host.ntoh32 frame.data
      if frame.ndata.toNat * m.size payload % 4294967296 ≤ comFrameMaxLen then do
        let (errors, s) ← parseSamples S c m payload data frame.ndata.toNat 0 0 s
        return (if 0 < errors then cmdError else cmdOk, s)
      else none

/-- The packets are taken in their order, and each payload command is executed
    before the next one. Other frames do not touch the samples. -/
def receiveAll : List (List UInt8) → σ → Option σ
  | [], s => some s
  | packet :: packets, s => do
    match ← comReceiveTm host m packet with
    | some (.tmParsePayload frame) =>
      let (_, s) ← tmParsePayload host S c m frame s
      receiveAll packets s
    | _ => receiveAll packets s

end Receiver

/-! The packets of a transfer whose calls all succeed. -/

section Packets
variable {host : Host} {schCommNode : UInt8} {link : Link} {size spf : Nat}

def packed (samples : List (List UInt8)) : List UInt8 := padded comFrameMaxLen 0 samples.flatten

theorem packed_length (samples : List (List UInt8)) :
    (packed samples).length = comFrameMaxLen := padded_length 0 _

theorem packed_whole (samples : List (List UInt8)) : 4 ∣ (packed samples).length := by
  rw [packed_length]
  decide

theorem overwrite_packed {samples : List (List UInt8)} {d : List UInt8}
    (sizes : ∀ d' ∈ samples, d'.length = size) (fits : (samples.length + 1) * size ≤ comFrameMaxLen)
    (here : d.length = size) :
    overwrite (packed samples) (samples.length * size) d = packed (samples ++ [d]) := by
  have len := flatten_length sizes
  rw [Nat.succ_mul] at fits
  have before : samples.flatten.take comFrameMaxLen = samples.flatten :=
    List.take_of_length_le (by omega)
  have after : (samples ++ [d]).flatten.take comFrameMaxLen = samples.flatten ++ d := by
    rw [List.flatten_append, List.flatten_singleton]
    exact List.take_of_length_le (by rw [List.length_append]; omega)
  have total : (samples ++ [d]).flatten.length = samples.flatten.length + size := by
    simp [here]
  unfold overwrite packed padded
  rw [before, after, total, ← len, List.take_left, here, List.drop_append, List.drop_replicate,
    List.drop_of_length_le (by omega), List.nil_append]
  congr 2
  omega

variable {sample : Nat → Option (Except Int32 (List UInt8))} {all : List (List UInt8)}

def Reads (sample : Nat → Option (Except Int32 (List UInt8))) (all : List (List UInt8)) : Prop :=
  ∀ k (bound : k < all.length), sample k = some (.ok all[k])

theorem block_sizes (sizes : ∀ d ∈ all, d.length = size) (i : Nat) :
    ∀ d ∈ block spf all i, d.length = size :=
  fun d mem => sizes d (List.mem_of_mem_drop (List.mem_of_mem_take mem))

theorem fillFrame_from (reads : Reads sample all) (sizes : ∀ d ∈ all, d.length = size)
    (fits : spf * size ≤ comFrameMaxLen) {i : Nat} :
    ∀ left j, left + j = spf → j ≤ (block spf all i).length →
      fillFrame sample size spf all.length i left j (packed ((block spf all i).take j)) =
        some ((block spf all i).length, packed (block spf all i)) := by
  intro left
  induction left with
  | zero =>
    intro j total within
    have full := block_length spf all i
    have whole : (block spf all i).take j = block spf all i := List.take_of_length_le (by omega)
    have count : spf = (block spf all i).length := by omega
    rw [fillFrame, whole, ← count]
  | succ left ih =>
    intro j total within
    have len := block_length spf all i
    have order : i * spf = spf * i := Nat.mul_comm i spf
    unfold fillFrame
    by_cases last : all.length ≤ i * spf + j
    · have count : j = (block spf all i).length := by omega
      rw [if_pos (by exact_mod_cast last)]
      nth_rewrite 2 [count]
      rw [List.take_length, ← count]
    · have inside : spf * i + j < all.length := by omega
      have next := block_take_succ (show j < spf by omega) inside
      have taken : ((block spf all i).take j).length = j := List.length_take_of_le within
      have room : (((block spf all i).take j).length + 1) * size ≤ comFrameMaxLen := by
        rw [taken]
        exact le_trans (Nat.mul_le_mul_right size (by omega)) fits
      have copied := overwrite_packed
        (fun d mem => block_sizes sizes i d (List.mem_of_mem_take mem)) room
        (sizes _ (List.getElem_mem inside))
      rw [taken, ← next] at copied
      have read : sample (i * spf + j) = some (.ok all[spf * i + j]) := by
        rw [order]
        exact reads _ inside
      rw [if_neg (by exact_mod_cast last)]
      simp only [read, Option.bind_eq_bind, Option.bind_some, Except.toOption, copied]
      exact ih (j + 1) (by omega) (by omega)

theorem fillFrame_eq (reads : Reads sample all) (sizes : ∀ d ∈ all, d.length = size)
    (fits : spf * size ≤ comFrameMaxLen) (i : Nat) :
    fillFrame sample size spf all.length i spf 0 (List.replicate comFrameMaxLen 0) =
      some ((block spf all i).length, packed (block spf all i)) :=
  fillFrame_from reads sizes fits spf 0 (Nat.add_zero spf) (Nat.zero_le _)

def packetOf (host : Host) (schCommNode : UInt8) (payload i : Nat) (samples : List (List UInt8)) :
    List UInt8 :=
  image host.order
    { nframe := host.hton16 (UInt16.ofNat i)
      type := tmTypePayload + UInt8.ofNat payload
      node := schCommNode
      ndata := host.hton32 (UInt32.ofNat samples.length)
      data := mapWords host.order host.hton32 (packed samples)
      size := by rw [mapWords_length _ _ (packed_whole samples), packed_length] }

theorem payloadPacket_eq (reads : Reads sample all) (sizes : ∀ d ∈ all, d.length = size)
    (fits : spf * size ≤ comFrameMaxLen) (payload i : Nat) :
    payloadPacket host schCommNode sample payload size spf all.length i =
      some (packetOf host schCommNode payload i (block spf all i)) := by
  have len : (mapWords host.order host.hton32 (packed (block spf all i))).length =
      comFrameMaxLen := by rw [mapWords_length _ _ (packed_whole _), packed_length]
  unfold payloadPacket
  rw [fillFrame_eq reads sizes fits i]
  simp only [Option.bind_eq_bind, Option.bind_some, len, dite_true]
  rfl

theorem sendFrames_eq (up : link.Up) (reads : Reads sample all)
    (sizes : ∀ d ∈ all, d.length = size) (fits : spf * size ≤ comFrameMaxLen) (payload : Nat) :
    ∀ left i rcSend,
      sendFrames host schCommNode link sample payload size spf all.length left i rcSend =
        some (if left = 0 then rcSend else true, (List.range' i left).map fun i =>
          packetOf host schCommNode payload i (block spf all i)) := by
  intro left
  induction left with
  | zero =>
    intro i rcSend
    simp [sendFrames]
  | succ left ih =>
    intro i rcSend
    unfold sendFrames
    simp [up.buffers i, up.sends i, payloadPacket_eq reads sizes fits payload i, ih,
      List.range'_succ]

end Packets

section Sent
variable {σ : Type} {S : PayloadStorage σ} {c : Config} {m : DataMap} {link : Link} {p : Nat} {s : σ}
  {stored : List (List UInt8)}

structure Holds (S : PayloadStorage σ) (c : Config) (m : DataMap) (p : Nat) (s : σ)
    (stored : List (List UInt8)) : Prop where
  index : indexIs S c m p s stored.length
  counted : stored.length < 2147483648
  samples : ∀ k (bound : k < stored.length), sampleAt S m p s k = some (.ok stored[k])
  sizes : ∀ d ∈ stored, d.length = m.size p

theorem Holds.of_appended {Good : σ → Prop} {room : Nat → Prop} {s₀ : σ}
    (lawful : Lawful S c m p Good room) (accepts : ∀ k < stored.length, room k)
    (sizes : ∀ d ∈ stored, d.length = m.size p)
    (appended : Appended S c m p Good room s₀ 0 stored s) : Holds S c m p s stored where
  index := by
    have index := appended.index
    rwa [Nat.zero_add] at index
  counted := by
    rcases Nat.eq_zero_or_pos stored.length with empty | some_sample
    · omega
    · have last := lawful.room_lt _ (accepts (stored.length - 1) (by omega))
      omega
  samples := fun k bound => by
    have sample := appended.stored k bound
    rwa [Nat.zero_add] at sample
  sizes := sizes

def selected (stored : List (List UInt8)) (start stop : Nat) : List (List UInt8) :=
  (stored.drop start).take (stop - start)

theorem selected_length {start stop : Nat} (upto : stop ≤ stored.length) :
    (selected stored start stop).length = stop - start := by
  simp only [selected, List.length_take, List.length_drop]
  omega

theorem frameCount_eq (spf n : Nat) : frameCount spf n = blockCount spf n := by
  have div : (n : Int).tdiv spf = ((n / spf : Nat) : Int) := rfl
  have rem : (n : Int).tmod spf = ((n % spf : Nat) : Int) := rfl
  unfold frameCount blockCount
  rw [div, rem]
  by_cases zero : n % spf = 0
  · simp [zero]
  · rw [if_pos (by exact_mod_cast zero), if_neg zero]
    omega

theorem selected_sizes (holds : Holds S c m p s stored) (start stop : Nat) :
    ∀ d ∈ selected stored start stop, d.length = m.size p :=
  fun d mem => holds.sizes d (List.mem_of_mem_drop (List.mem_of_mem_take mem))

theorem reads_selected (holds : Holds S c m p s stored) {start stop : Nat} (order : start ≤ stop)
    (upto : stop ≤ stored.length) :
    Reads (fun k : Nat => datGetRecentPayloadSample S c m s p
      ((stop : Int) - start + ((stored.length : Int) - stop) - (k + 1)))
      (selected stored start stop) := by
  intro k bound
  have inside : k < stop - start := by rwa [selected_length upto] at bound
  have index := holds.index
  have value : (Int32.ofNat stored.length).toInt = stored.length :=
    Int32.toInt_ofNat_of_lt holds.counted
  have place : (stored.length : Int) - 1 -
      ((stop : Int) - start + ((stored.length : Int) - stop) - (k + 1)) = (start + k : Nat) := by
    omega
  have item : (selected stored start stop)[k] = stored[start + k] := by simp [selected]
  unfold indexIs at index
  simp only [datGetRecentPayloadSample, index, Option.bind_eq_bind, Option.bind_some, value, place]
  rw [if_pos (Int.natCast_nonneg _), item]
  exact holds.samples (start + k) (by omega)

theorem tmSendTelFromTo_eq (up : link.Up) (known : p < m.lastSensor) (filled : 0 < m.size p)
    (fits : m.size p ≤ comFrameMaxLen) (holds : Holds S c m p s stored) {start stop : Nat}
    (order : start ≤ stop) (upto : stop ≤ stored.length) (host : Host) (schCommNode : UInt8) :
    ∃ rc, tmSendTelFromTo host S c m schCommNode link start stop p s =
      some (rc, (List.range (blockCount (comFrameMaxLen / m.size p) (stop - start))).map fun i =>
        packetOf host schCommNode p i
          (block (comFrameMaxLen / m.size p) (selected stored start stop) i)) := by
  have some_fit : comFrameMaxLen / m.size p ≠ 0 := by
    have pos := Nat.div_pos fits filled
    omega
  have index := holds.index
  have value : (Int32.ofNat stored.length).toInt = stored.length :=
    Int32.toInt_ofNat_of_lt holds.counted
  have count : (stop : Int) - start = ((selected stored start stop).length : Nat) := by
    rw [selected_length upto]
    omega
  have reads := reads_selected holds order upto
  have sizes := selected_sizes holds start stop
  have counted := holds.counted
  unfold indexIs at index
  unfold tmSendTelFromTo
  simp only
  rw [if_neg (by omega), if_neg (by omega)]
  simp only [index, Option.bind_eq_bind, Option.bind_some, up.connects, Bool.not_true,
    Bool.false_eq_true, if_false, value]
  rw [count] at reads ⊢
  rw [sendFrames_eq up reads sizes (Nat.div_mul_le_self _ _) p, frameCount_eq,
    selected_length upto, Int.toNat_natCast, List.range_eq_range']
  exact ⟨_, rfl⟩

end Sent

end TelemetryFrames
