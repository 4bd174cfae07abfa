import SuchaiFlight.TelemetryTransfer

/-!
Status telemetry: `tm_send_status` and `tm_parse_status` of `cmdTM.c` over
`_com_send_data` of `cmdCOM.c`, which cuts an array every 192 bytes. Only for
payload telemetry does it count the samples of each frame; all other frames
carry the number of elements of the whole array.
-/
namespace StatusTelemetry
open StorageApi RepoCommand PayloadData FileFrames TelemetryFrames TelemetryTransfer Blocks ByteMemory
open ByteOrder

structure DatSysVar where
  address : UInt16
  name : List UInt8
  type : UInt8
  status : UInt8
  value : UInt32
  deriving DecidableEq

structure StatusSchema where
  datStatusList : List DatSysVar
  datStatusLastAddress : Nat
  listed : ∀ var ∈ datStatusList, var.address.toNat < datStatusLastAddress
  distinct : (datStatusList.map DatSysVar.address).Nodup

def StatusSchema.datStatusLastVar (schema : StatusSchema) : Nat := schema.datStatusList.length

def datGetStatusVarDef (schema : StatusSchema) (address : UInt16) : DatSysVar :=
  let var : DatSysVar := ⟨0, [], 0, 0, 0⟩
  if address.toNat < schema.datStatusLastAddress then
    (schema.datStatusList.find? fun var => var.address = address).getD var
  else var

section Sender
variable (host : Host) (schCommNode : UInt8) (link : Link)

/-- `fresh i` is what the buffer of frame `i` holds when it is allocated. -/
def dataFrame (fresh : Nat → ComFrame) (i nframe ndata : Nat) (type : UInt8) (data : List UInt8) :
    ComFrame :=
  { nframe := host.hton16 (UInt16.ofNat nframe)
    type := type
    node := schCommNode
    ndata := host.hton32 (UInt32.ofNat ndata)
    data := data.take comFrameMaxLen ++ (fresh i).data.drop (data.take comFrameMaxLen).length
    size := by
      rw [List.length_append, List.length_drop, (fresh i).size, List.length_take]
      omega }

def sendDataLoop (fresh : Nat → ComFrame) (type : UInt8) (sizeData : Nat) :
    Nat → Nat → Nat → List UInt8 → Nat → Bool → Bool × List (List UInt8)
  | 0, _, _, _, _, rcSend => (rcSend, [])
  | passes + 1, i, nframe, data, nData, rcSend =>
    if data = [] then (rcSend, [])
    else if !link.buffers i then (false, [])
    else
      let sent := min data.length comFrameMaxLen
      let dataSent := if nData < comFrameMaxLen / sizeData then nData else sent / sizeData
      let ndata := if type = tmTypePayload then dataSent else nData
      let packet := image host.order (dataFrame host schCommNode fresh i nframe ndata type data)
      if !link.sends i then (false, [])
      else
        let (rcSend, packets) := sendDataLoop fresh type sizeData passes (i + 1) (nframe + 1)
          (data.drop sent) (if type = tmTypePayload then nData - dataSent else nData) true
        (rcSend, packet :: packets)

/-- A failed connection fails an assertion. An array of payload telemetry
    without elements, or with more elements than bytes, is a division by zero. -/
def comSendData (fresh : Nat → ComFrame) (data : List UInt8) (type : UInt8) (nData nFrame : Nat) :
    Option (Int32 × List (List UInt8)) :=
  if type = tmTypePayload ∧ nData = 0 then none
  else if !link.connects then none
  else
    let sizeData := if type = tmTypePayload then data.length / nData else data.length
    if sizeData = 0 ∧ data ≠ [] ∧ link.buffers 0 then none
    else
      let (rcSend, packets) := sendDataLoop host schCommNode link fresh type sizeData data.length 0
        nFrame data nData false
      some (if rcSend && link.closes then cmdOk else cmdError, packets)

def sysVarShort (address : UInt16) (value : UInt32) : List UInt8 :=
  halfBytes host.order (host.hton16 address) ++ wordBytes host.order (host.hton32 value)

def sysVarShortSize : Nat := 6

/-- `node` is what `sscanf` reads from the parameters, and `datGetStatusVar` the
    values of the variables. -/
def tmSendStatus (fresh : Nat → ComFrame) (schema : StatusSchema)
    (datGetStatusVar : UInt16 → UInt32) (node : Option Int32) :
    Option (Int32 × List (List UInt8)) :=
  match node with
  | none => some (cmdSyntaxError, [])
  | some _ =>
    let statusBuff := schema.datStatusList.map fun var =>
      sysVarShort host var.address (datGetStatusVar var.address)
    comSendData host schCommNode link fresh statusBuff.flatten tmTypeStatus schema.datStatusLastVar 0

end Sender

section Receiver
variable (host : Host) (m : DataMap) (schema : StatusSchema)

def tmParseStatus (frame : ComFrame) : Int32 × List DatSysVar :=
  if frame.type ≠ tmTypeStatus ∨ comFrameMaxLen / sysVarShortSize < frame.ndata.toNat then
    (cmdSyntaxError, [])
  else
    (cmdOk, (List.range frame.ndata.toNat).map fun i =>
      let record := (frame.data.drop (i * sysVarShortSize)).take sysVarShortSize
      let address := host.ntoh16 (bytesHalf host.order (record.take 2))
      let value := host.ntoh32 (bytesWord host.order (record.drop 2))
      { datGetStatusVarDef schema address with value := value })

def receiveStatus : List (List UInt8) → Option (List (Int32 × List DatSysVar))
  | [] => some []
  | packet :: packets =>
    match comReceiveTm host m packet with
    | some (some (.tmParseStatus frame)) =>
      (receiveStatus packets).map (tmParseStatus host schema frame :: ·)
    | _ => none

end Receiver

structure SameNetwork (sender receiver : Host) : Prop where
  half : ∀ x, receiver.ntoh16 (bytesHalf receiver.order (halfBytes sender.order (sender.hton16 x))) = x
  word : Compatible sender receiver

theorem sameNetwork_self (host : Host) : SameNetwork host host where
  half x := by rw [bytesHalf_halfBytes, host.ntoh16_hton16]
  word := compatible_self host

def RoundTrip (sender receiver : Host) (m : DataMap) (schCommNode : UInt8) (link : Link)
    (fresh : Nat → ComFrame) (schema : StatusSchema) (datGetStatusVar : UInt16 → UInt32)
    (node : Int32) : Prop :=
  ∃ rc packets answers,
    tmSendStatus sender schCommNode link fresh schema datGetStatusVar (some node) =
      some (rc, packets) ∧
    receiveStatus receiver m schema packets = some answers ∧
    (∀ answer ∈ answers, answer.1 = cmdOk) ∧
    (answers.flatMap Prod.snd).map (fun var => (var.address, var.value)) =
      schema.datStatusList.map fun var => (var.address, datGetStatusVar var.address)

/-! The frames that are sent. -/

section
variable {sender receiver : Host} {m : DataMap} {schCommNode : UInt8} {link : Link}
  {fresh : Nat → ComFrame} {schema : StatusSchema} {datGetStatusVar : UInt16 → UInt32}

def dataPackets (host : Host) (schCommNode : UInt8) (fresh : Nat → ComFrame) (type : UInt8)
    (nData i nframe : Nat) (data : List UInt8) : List (List UInt8) :=
  (List.range (blockCount comFrameMaxLen data.length)).map fun k =>
    image host.order (dataFrame host schCommNode fresh (i + k) (nframe + k) nData type
      (data.drop (comFrameMaxLen * k)))

theorem dataPackets_step (host : Host) (schCommNode : UInt8) (fresh : Nat → ComFrame) (type : UInt8)
    (nData i nframe : Nat) {data : List UInt8} (present : data ≠ []) :
    dataPackets host schCommNode fresh type nData i nframe data =
      image host.order (dataFrame host schCommNode fresh i nframe nData type data) ::
        dataPackets host schCommNode fresh type nData (i + 1) (nframe + 1)
          (data.drop comFrameMaxLen) := by
  have count : blockCount comFrameMaxLen data.length =
      blockCount comFrameMaxLen (data.drop comFrameMaxLen).length + 1 :=
    blockCount_drop (by decide) present
  simp only [dataPackets, count, List.range_succ_eq_map, List.map_cons, List.map_map, Nat.mul_zero,
    List.drop_zero, Nat.add_zero, List.drop_drop]
  congr 1
  apply List.map_congr_left
  intro k _
  have shift : comFrameMaxLen * (k + 1) = comFrameMaxLen + comFrameMaxLen * k := by
    rw [Nat.mul_succ, Nat.add_comm]
  simp only [Function.comp, Nat.succ_eq_add_one, shift, Nat.add_assoc, Nat.add_comm 1 k]

theorem sendDataLoop_up (up : link.Up) {type : UInt8} (other : type ≠ tmTypePayload)
    (sizeData : Nat) {passes i nframe nData : Nat} {data : List UInt8} {rcSend : Bool}
    (enough : data.length ≤ passes) :
    sendDataLoop sender schCommNode link fresh type sizeData passes i nframe data nData rcSend =
      (if data = [] then rcSend else true,
        dataPackets sender schCommNode fresh type nData i nframe data) := by
  induction passes generalizing i nframe data rcSend with
  | zero =>
    have none : data = [] := List.eq_nil_of_length_eq_zero (by omega)
    simp [none, sendDataLoop, dataPackets, blockCount]
  | succ passes ih =>
    by_cases none : data = []
    · simp [none, sendDataLoop, dataPackets, blockCount]
    · have pos : 0 < data.length := List.length_pos_of_ne_nil none
      have less : (data.drop comFrameMaxLen).length ≤ passes := by
        simp only [List.length_drop, comFrameMaxLen]
        omega
      have rest : data.drop (min data.length comFrameMaxLen) = data.drop comFrameMaxLen := by
        rcases Nat.le_total data.length comFrameMaxLen with short | long
        · rw [Nat.min_eq_left short, List.drop_length, List.drop_of_length_le short]
        · rw [Nat.min_eq_right long]
      rw [dataPackets_step sender schCommNode fresh type nData i nframe none]
      simp only [sendDataLoop, none, up.buffers, up.sends, other, if_false, rest, ih less,
        Bool.not_true, Bool.false_eq_true]
      simp

def statusBuff (host : Host) (schema : StatusSchema) (datGetStatusVar : UInt16 → UInt32) :
    List UInt8 :=
  (schema.datStatusList.map fun var =>
    sysVarShort host var.address (datGetStatusVar var.address)).flatten

theorem records_size (host : Host) (schema : StatusSchema) (datGetStatusVar : UInt16 → UInt32) :
    ∀ record ∈ schema.datStatusList.map fun var =>
      sysVarShort host var.address (datGetStatusVar var.address), record.length = sysVarShortSize := by
  intro record mem
  obtain ⟨var, -, rfl⟩ := List.mem_map.mp mem
  rw [sysVarShort, List.length_append, halfBytes_length, wordBytes_length, sysVarShortSize]

theorem statusBuff_length (host : Host) (schema : StatusSchema)
    (datGetStatusVar : UInt16 → UInt32) :
    (statusBuff host schema datGetStatusVar).length =
      schema.datStatusList.length * sysVarShortSize := by
  rw [statusBuff, flatten_length (records_size host schema datGetStatusVar), List.length_map]

theorem tmSendStatus_up (up : link.Up) (present : schema.datStatusList ≠ []) (node : Int32) :
    tmSendStatus sender schCommNode link fresh schema datGetStatusVar (some node) =
      some (cmdOk, dataPackets sender schCommNode fresh tmTypeStatus schema.datStatusLastVar 0 0
        (statusBuff sender schema datGetStatusVar)) := by
  have pos : 0 < schema.datStatusList.length := List.length_pos_of_ne_nil present
  have length := statusBuff_length sender schema datGetStatusVar
  have filled : (statusBuff sender schema datGetStatusVar).length ≠ 0 := by
    rw [length, sysVarShortSize]
    omega
  have some_data : statusBuff sender schema datGetStatusVar ≠ [] :=
    fun none => filled (by rw [none, List.length_nil])
  have other : tmTypeStatus ≠ tmTypePayload := by decide
  have buffer : (schema.datStatusList.map fun var =>
      sysVarShort sender var.address (datGetStatusVar var.address)).flatten =
      statusBuff sender schema datGetStatusVar := rfl
  simp only [tmSendStatus, buffer, comSendData, other, false_and, if_false, up.connects,
    Bool.not_true, Bool.false_eq_true, filled, sendDataLoop_up up other _ le_rfl, some_data,
    up.closes, Bool.and_self, if_true]

/-! The frames that are received. -/

theorem receive_statusPacket (agree : SameNetwork sender receiver) (i nframe n : Nat)
    (data : List UInt8) :
    ∃ frame, comReceiveTm receiver m (image sender.order
        (dataFrame sender schCommNode fresh i nframe n tmTypeStatus data)) =
        some (some (.tmParseStatus frame)) ∧
      frame.type = tmTypeStatus ∧ frame.ndata = UInt32.ofNat n ∧
      frame.data = data.take comFrameMaxLen ++
        (fresh i).data.drop (data.take comFrameMaxLen).length := by
  unfold comReceiveTm
  rw [frameAt_image]
  exact ⟨_, rfl, rfl, agree.word _, rfl⟩

theorem receiveStatus_cons {packet : List UInt8} {frame : ComFrame}
    (received : comReceiveTm receiver m packet = some (some (.tmParseStatus frame)))
    (packets : List (List UInt8)) :
    receiveStatus receiver m schema (packet :: packets) =
      (receiveStatus receiver m schema packets).map (tmParseStatus receiver schema frame :: ·) := by
  rw [receiveStatus, received]

theorem datGetStatusVarDef_address {address : UInt16}
    (known : ∃ var ∈ schema.datStatusList, var.address = address) :
    (datGetStatusVarDef schema address).address = address := by
  obtain ⟨var, mem, same⟩ := known
  have below : address.toNat < schema.datStatusLastAddress := same ▸ schema.listed var mem
  unfold datGetStatusVarDef
  rw [if_pos below]
  cases found : schema.datStatusList.find? fun var => var.address = address with
  | none => exact absurd same (by simpa using List.find?_eq_none.mp found var mem)
  | some other => simpa using List.find?_some found

theorem schema_length (schema : StatusSchema) : schema.datStatusList.length ≤ 65536 := by
  have distinct : ((schema.datStatusList.map DatSysVar.address).map UInt16.toNat).Nodup :=
    schema.distinct.map fun _ _ => UInt16.toNat_inj.mp
  have small : ((schema.datStatusList.map DatSysVar.address).map UInt16.toNat) ⊆
      List.range 65536 := by
    intro k mem
    obtain ⟨address, -, rfl⟩ := List.mem_map.mp mem
    exact List.mem_range.mpr address.toNat_lt
  have bound := (distinct.subperm small).length_le
  simpa using bound

/-! Whole transfers. -/

theorem parse_many {frame : ComFrame} {n : Nat} (ndata : frame.ndata = UInt32.ofNat n)
    (many : 32 < n) (small : n ≤ 65536) :
    tmParseStatus receiver schema frame = (cmdSyntaxError, []) := by
  have count : frame.ndata.toNat = n := by
    rw [ndata, UInt32.toNat_ofNat']
    omega
  have beyond : comFrameMaxLen / sysVarShortSize < frame.ndata.toNat := by
    rw [count]
    exact many
  rw [tmParseStatus, if_pos (.inr beyond)]

theorem parse_records (agree : SameNetwork sender receiver) {frame : ComFrame} {rest : List UInt8}
    (type : frame.type = tmTypeStatus)
    (ndata : frame.ndata = UInt32.ofNat schema.datStatusLastVar)
    (few : schema.datStatusList.length ≤ 32)
    (data : frame.data = statusBuff sender schema datGetStatusVar ++ rest) :
    ∃ printed, tmParseStatus receiver schema frame = (cmdOk, printed) ∧
      printed.map (fun var => (var.address, var.value)) =
        schema.datStatusList.map fun var => (var.address, datGetStatusVar var.address) := by
  have count : frame.ndata.toNat = schema.datStatusList.length := by
    rw [ndata, UInt32.toNat_ofNat', StatusSchema.datStatusLastVar]
    omega
  have within : ¬ (frame.type ≠ tmTypeStatus ∨
      comFrameMaxLen / sysVarShortSize < frame.ndata.toNat) := by
    rw [count]
    exact not_or.mpr ⟨not_not.mpr type, Nat.not_lt_of_le few⟩
  rw [tmParseStatus, if_neg within]
  refine ⟨_, rfl, ?_⟩
  rw [count, List.map_map]
  apply List.ext_getElem
  · rw [List.length_map, List.length_map, List.length_range]
  · intro i bound _
    rw [List.length_map, List.length_range] at bound
    have record : (frame.data.drop (i * sysVarShortSize)).take sysVarShortSize =
        sysVarShort sender schema.datStatusList[i].address
          (datGetStatusVar schema.datStatusList[i].address) := by
      rw [data, statusBuff, take_drop_flatten (records_size sender schema datGetStatusVar) rest i
        (by rwa [List.length_map]), List.getElem_map]
    have known : (datGetStatusVarDef schema schema.datStatusList[i].address).address =
        schema.datStatusList[i].address :=
      datGetStatusVarDef_address ⟨_, List.getElem_mem bound, rfl⟩
    have half := agree.half schema.datStatusList[i].address
    have word := agree.word (datGetStatusVar schema.datStatusList[i].address)
    have head : (sysVarShort sender schema.datStatusList[i].address
        (datGetStatusVar schema.datStatusList[i].address)).take 2 = _ :=
      List.take_left' (halfBytes_length _ _)
    have tail : (sysVarShort sender schema.datStatusList[i].address
        (datGetStatusVar schema.datStatusList[i].address)).drop 2 = _ :=
      List.drop_left' (halfBytes_length _ _)
    simp only [List.getElem_map, List.getElem_range, Function.comp, record, head, tail, half, word,
      known]

theorem receive_many (agree : SameNetwork sender receiver) {n : Nat} (many : 32 < n)
    (small : n ≤ 65536) (data : List UInt8) :
    receiveStatus receiver m schema (dataPackets sender schCommNode fresh tmTypeStatus n 0 0 data) =
      some (List.replicate (blockCount comFrameMaxLen data.length) (cmdSyntaxError, [])) := by
  have all (places : List Nat) : receiveStatus receiver m schema (places.map fun k =>
      image sender.order (dataFrame sender schCommNode fresh (0 + k) (0 + k) n tmTypeStatus
        (data.drop (comFrameMaxLen * k)))) =
      some (List.replicate places.length (cmdSyntaxError, [])) := by
    induction places with
    | nil => rfl
    | cons k places ih =>
      obtain ⟨frame, received, -, ndata, -⟩ : ∃ frame, comReceiveTm receiver m (image sender.order
          (dataFrame sender schCommNode fresh (0 + k) (0 + k) n tmTypeStatus
            (data.drop (comFrameMaxLen * k)))) = some (some (.tmParseStatus frame)) ∧ _ :=
        receive_statusPacket agree _ _ n _
      rw [List.map_cons, receiveStatus_cons received, ih, parse_many ndata many small]
      rfl
  rw [dataPackets, all, List.length_range]

theorem few_of_roundTrip (agree : SameNetwork sender receiver) (up : link.Up)
    (present : schema.datStatusList ≠ []) {node : Int32}
    (trip : RoundTrip sender receiver m schCommNode link fresh schema datGetStatusVar node) :
    schema.datStatusList.length ≤ 32 := by
  obtain ⟨rc, packets, answers, sent, answered, accepted, -⟩ := trip
  rw [tmSendStatus_up up present, Option.some.injEq, Prod.mk.injEq] at sent
  by_contra many
  have pos : 0 < blockCount comFrameMaxLen (statusBuff sender schema datGetStatusVar).length := by
    rw [statusBuff_length, lt_blockCount_iff (by decide)]
    unfold sysVarShortSize
    omega
  rw [← sent.2, StatusSchema.datStatusLastVar, receive_many agree (Nat.lt_of_not_le many) (schema_length schema),
    Option.some.injEq] at answered
  have refused := accepted (cmdSyntaxError, [])
    (answered ▸ List.mem_replicate.mpr ⟨Nat.ne_of_gt pos, rfl⟩)
  exact absurd refused (by decide)

/-- Status telemetry comes back as it was sent exactly when the schema has at
    most 32 variables, that is when one frame holds all of them. -/
theorem status_round_trip_iff (sender receiver : Host) (agree : SameNetwork sender receiver)
    (m : DataMap) (schCommNode : UInt8) (up : link.Up) (fresh : Nat → ComFrame)
    (schema : StatusSchema) (present : 1 ≤ schema.datStatusList.length)
    (datGetStatusVar : UInt16 → UInt32) (node : Int32) :
    RoundTrip sender receiver m schCommNode link fresh schema datGetStatusVar node ↔
      schema.datStatusList.length ≤ 32 := by
  have some_var : schema.datStatusList ≠ [] := List.ne_nil_of_length_pos present
  have sent : tmSendStatus sender schCommNode link fresh schema datGetStatusVar (some node) = _ :=
    tmSendStatus_up up some_var node
  constructor
  · exact few_of_roundTrip agree up some_var
  · intro few
    have length := statusBuff_length sender schema datGetStatusVar
    have filled : statusBuff sender schema datGetStatusVar ≠ [] := by
      apply List.ne_nil_of_length_pos
      rw [length]
      unfold sysVarShortSize
      omega
    have short : (statusBuff sender schema datGetStatusVar).length ≤ comFrameMaxLen := by
      rw [length]
      unfold sysVarShortSize comFrameMaxLen
      omega
    have rest : (statusBuff sender schema datGetStatusVar).drop comFrameMaxLen = [] :=
      List.drop_of_length_le short
    obtain ⟨frame, received, type, ndata, data⟩ : ∃ frame, comReceiveTm receiver m
        (image sender.order (dataFrame sender schCommNode fresh 0 0 schema.datStatusLastVar
          tmTypeStatus (statusBuff sender schema datGetStatusVar))) =
          some (some (.tmParseStatus frame)) ∧ _ :=
      receive_statusPacket agree 0 0 schema.datStatusLastVar _
    rw [List.take_of_length_le short] at data
    obtain ⟨printed, parsed, reported⟩ : ∃ printed, tmParseStatus receiver schema frame = _ ∧ _ :=
      parse_records agree type ndata few data
    rw [dataPackets_step _ _ _ _ _ _ _ filled, rest] at sent
    refine ⟨_, _, [(cmdOk, printed)], sent, ?_, ?_, ?_⟩
    · rw [receiveStatus_cons received, parsed]
      rfl
    · simp
    · simpa using reported

end

def numberedSchema (n : Nat) (small : n ≤ 65536) : StatusSchema where
  datStatusList := (List.range n).map fun i => ⟨UInt16.ofNat i, [], 117, 1, 0⟩
  datStatusLastAddress := n
  listed := by
    intro var mem
    obtain ⟨i, before, rfl⟩ := List.mem_map.mp mem
    have bound := List.mem_range.mp before
    rw [UInt16.toNat_ofNat', Nat.mod_eq_of_lt (by omega)]
    exact bound
  distinct := by
    rw [List.map_map]
    apply List.Nodup.map_on _ List.nodup_range
    intro i before j before' same
    have numbers := congrArg UInt16.toNat same
    have bound := List.mem_range.mp before
    have bound' := List.mem_range.mp before'
    simp only [Function.comp, UInt16.toNat_ofNat'] at numbers
    omega

def blankFrame : ComFrame := ⟨0, 0, 0, 0, List.replicate comFrameMaxLen 0, zeros_length⟩

theorem seventeen_variables_round_trip :
    RoundTrip (standardHost .little) (standardHost .little) (oneSensor 12) 1 FileTransfer.plainLink
      (fun _ => blankFrame) (numberedSchema 17 (by decide)) (fun address => address.toUInt32) 1 :=
  (status_round_trip_iff _ _ (sameNetwork_self _) _ 1 FileTransfer.plainLink_up _ _ (by decide) _
    1).mpr (by decide)

theorem many_variables_refused :
    ∃ packets, tmSendStatus (standardHost .little) 1 FileTransfer.plainLink (fun _ => blankFrame)
        (numberedSchema 33 (by decide)) (fun address => address.toUInt32) (some 1) =
        some (cmdOk, packets) ∧
      receiveStatus (standardHost .little) (oneSensor 12) (numberedSchema 33 (by decide)) packets =
        some [(cmdSyntaxError, []), (cmdSyntaxError, [])] ∧
      ¬ RoundTrip (standardHost .little) (standardHost .little) (oneSensor 12) 1
        FileTransfer.plainLink (fun _ => blankFrame) (numberedSchema 33 (by decide))
        (fun address => address.toUInt32) 1 := by
  have length : (numberedSchema 33 (by decide)).datStatusList.length = 33 := by simp [numberedSchema]
  have present : (numberedSchema 33 (by decide)).datStatusList ≠ [] :=
    List.ne_nil_of_length_pos (by omega)
  have agree := sameNetwork_self (standardHost .little)
  refine ⟨_, tmSendStatus_up FileTransfer.plainLink_up present 1, ?_, ?_⟩
  · have blocks : blockCount comFrameMaxLen (33 * sysVarShortSize) = 2 := by decide
    rw [StatusSchema.datStatusLastVar, length, receive_many agree (by decide) (by decide),
      statusBuff_length, length, blocks]
    rfl
  · intro trip
    have few := few_of_roundTrip agree FileTransfer.plainLink_up present trip
    omega

end StatusTelemetry
