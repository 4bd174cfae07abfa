import SuchaiFlight.Library.BufferPool
import SuchaiFlight.Library.Runs
import SuchaiFlight.FileReceiver
import SuchaiFlight.RamSamples
import SuchaiFlight.RemoteCommands
import SuchaiFlight.StatusVariables
import SuchaiFlight.TelemetryFrames
import Mathlib.Data.Fintype.Option

/-!
The loop of `taskCommunications.c`: the packets that arrive at the ports of the
node, the commands that they become, and the CSP buffers on the way. CSP frees a
buffer that it was handed; one that `csp_send` or `csp_sendto` refused stays
with the caller.
-/
namespace CommunicationsTask
open CStrings StorageApi RepoData RepoCommand Telecommands RemoteCommands FileFrames FileReceiver
open TelemetryFrames PayloadData ByteMemory ByteOrder StatusVariables BufferPools Runs SignedWord

def schTrxPortFile : UInt8 := 9
def schTrxPortRpt : UInt8 := 11
def schTrxPortCmd : UInt8 := 12
def schTrxPortDbg : UInt8 := 13
def schTrxPortDbgTm : UInt8 := 14
def schTrxPortTm : UInt8 := 15

/-- The settings of the task. `resend` tells whether `SCH_RESEND_TM_NODE` is defined. -/
structure CommConfig (c : Config) where
  schCommNode : UInt8
  resend : Bool
  datComCountTc : Nat
  datComLastTc : Nat
  countTc_lt : datComCountTc < c.datStatusLastAddress
  lastTc_lt : datComLastTc < c.datStatusLastAddress
  distinct : datComCountTc ≠ datComLastTc

/-- What `csp_read` returns, with the ends of the connection. `data` is the whole
    array of the CSP buffer, and the packet its first `length` bytes. -/
structure Packet (β : Type) where
  buffer : β
  dport : UInt8
  dst : UInt8
  data : List UInt8
  length : Nat
  size : data.length = schBuffMaxLen
  inside : length ≤ schBuffMaxLen

def Packet.received {β : Type} (p : Packet β) : List UInt8 := p.data.take p.length

/-- The results of the calls for one packet: `dat_get_time`, the copy of
    `csp_buffer_clone`, whether `csp_send` succeeds, and what `csp_sendto` returns.
    `logged` tells whether `LOGI` prints. -/
structure Results (β : Type) where
  time : Int32
  clone : Option β
  send : Bool
  sendto : Int32
  logged : Bool

section Handlers
variable {F : Type} (cmdList : Nat → CmdList F) (host : Host) (m : DataMap)

def tmParseStatusText : CString :=
  ⟨[116, 109, 95, 112, 97, 114, 115, 101, 95, 115, 116, 97, 116, 117, 115], by decide⟩
def tmParseStringText : CString :=
  ⟨[116, 109, 95, 112, 97, 114, 115, 101, 95, 115, 116, 114, 105, 110, 103], by decide⟩
def tmPrintFpText : CString := ⟨[116, 109, 95, 112, 114, 105, 110, 116, 95, 102, 112], by decide⟩
def tmParsePayloadText : CString :=
  ⟨[116, 109, 95, 112, 97, 114, 115, 101, 95, 112, 97, 121, 108, 111, 97, 100], by decide⟩
def tmParseFileText : CString :=
  ⟨[116, 109, 95, 112, 97, 114, 115, 101, 95, 102, 105, 108, 101], by decide⟩

def cmdAddParamsRaw (cmd : Option (Cmd F)) (params : List UInt8) : Option (Cmd F) :=
  cmd.map fun cmd => { cmd with params := some params }

def tmCommand : TmCommand → Option (Cmd F)
  | .tmParseStatus frame =>
    cmdAddParamsRaw (cmdGetStr cmdList tmParseStatusText) (image host.order frame)
  | .tmParseString frame =>
    cmdAddParamsRaw (cmdGetStr cmdList tmParseStringText) (image host.order frame)
  | .tmPrintFp frame => cmdAddParamsRaw (cmdGetStr cmdList tmPrintFpText) (image host.order frame)
  | .tmParsePayload frame =>
    cmdAddParamsRaw (cmdGetStr cmdList tmParsePayloadText) (image host.order frame)

def fileImage (e : Endian) (frame : ComFrameFile) : List UInt8 :=
  halfBytes e frame.nframe ++ [frame.type, frame.node] ++ halfBytes e frame.fileid ++
    halfBytes e frame.total ++ frame.data

def fileFrameAt (e : Endian) (packet : List UInt8) : Option ComFrameFile :=
  match packet with
  | n₀ :: n₁ :: type :: node :: i₀ :: i₁ :: t₀ :: t₁ :: data =>
    if size : data.length = comFrameMaxLen then
      some ⟨bytesHalf e [n₀, n₁], type, node, bytesHalf e [i₀, i₁], bytesHalf e [t₀, t₁], data,
        size⟩
    else none
  | _ => none

def csp (host : Host) : Csp := ⟨host.hton16, host.ntoh16, host.ntoh16_hton16⟩

def comReceiveCmd (room : Nat) (data : List UInt8) : Option (List (Cmd F)) :=
  if data.length < room then
    match stringAt (data ++ [0]) with
    | none => some []
    | some str => some (cmdBuildFromStr cmdList str).toList
  else none

def sizeofComFrame : Nat := 200

def data8Offset : Nat := 8

/-- What `%s` prints. A text that does not end in the buffer is read beyond it. -/
def printed (memory : List UInt8) : Option (List (Cmd F)) := (stringAt memory).map fun _ => []

/-- What the branch for a port gives to `cmd_send`. A packet that is shorter than
    a frame is read with what else is in its buffer. -/
def portCommands {β : Type} (schCommNode : UInt8) (p : Packet β) (logged : Bool) :
    Option (List (Cmd F)) :=
  if p.dport = schTrxPortFile then do
    let frame ← fileFrameAt host.order (p.data.take sizeofComFrame)
    match comReceiveFile (csp host) frame with
    | some frame =>
      return (cmdAddParamsRaw (cmdGetStr cmdList tmParseFileText)
        (fileImage host.order frame)).toList
    | none => return []
  else if p.dport = schTrxPortTc then comReceiveTc cmdList schBuffMaxLen p.received
  else if p.dport = schTrxPortRpt then
    if p.dst = schCommNode ∨ logged = false then some [] else printed p.data
  else if p.dport = schTrxPortCmd then comReceiveCmd cmdList schBuffMaxLen p.received
  else if p.dport = schTrxPortDbg then printed p.data
  else if p.dport = schTrxPortDbgTm then printed (p.data.drop data8Offset)
  else if p.dport = schTrxPortTm then do
    match ← comReceiveTm host m (p.data.take sizeofComFrame) with
    | some command => return (tmCommand cmdList host command).toList
    | none => return []
  else some []

end Handlers

section Loop
variable {β : Type} [DecidableEq β]

/-- A copy of `rep_ok_tmp` for the sender. `csp_send` fails without a packet. -/
def reply (r : Results β) (pool : Pool β) : Option (Pool β) :=
  match r.clone with
  | none => some pool
  | some repOk => do
    let pool ← take pool repOk
    if r.send then handOver pool repOk else some pool

/-- The copy of a telemetry packet for another node. Without a copy the
    assertion fails. -/
def resendTm (resend : Bool) (r : Results β) (pool : Pool β) : Option (Pool β) :=
  if resend then
    match r.clone with
    | none => none
    | some tmpPacket => do
      let pool ← take pool tmpPacket
      if r.sendto = -1 then release pool tmpPacket else handOver pool tmpPacket
  else some pool

def portBuffers {c : Config} (w : CommConfig c) (p : Packet β) (r : Results β) (pool : Pool β) :
    Option (Pool β) :=
  if p.dport = schTrxPortFile then release pool p.buffer
  else if p.dport = schTrxPortTc ∨ p.dport = schTrxPortCmd then do
    let pool ← reply r pool
    release pool p.buffer
  else if p.dport = schTrxPortRpt then
    if p.dst = w.schCommNode ∧ r.sendto = 0 then handOver pool p.buffer else release pool p.buffer
  else if p.dport = schTrxPortDbg ∨ p.dport = schTrxPortDbgTm then release pool p.buffer
  else if p.dport = schTrxPortTm then do
    let pool ← resendTm w.resend r pool
    release pool p.buffer
  else handOver pool p.buffer -- `csp_service_handler`

structure System (σ β F : Type) where
  store : σ
  pool : Pool β
  packets : List (Packet β × Results β)
  commands : List (Cmd F)

inductive Event (β : Type) where
  | packet (p : Packet β) (r : Results β)
  | cspTakes (b : β)
  | cspFrees (b : β)

variable {σ F : Type} (S : Storage σ) {c : Config} (w : CommConfig c) (m : DataMap) (host : Host)
  (cmdList : Nat → CmdList F)

def countPacket (s : σ) (time : Int32) : Option σ := do
  let count ← datGetSystemVar S c s w.datComCountTc
  let countTc ← checkedAdd count 1
  let (_, s) ← datSetSystemVar S c s w.datComCountTc countTc
  let (_, s) ← datSetSystemVar S c s w.datComLastTc time
  return s

def step (s : System σ β F) : Event β → Option (System σ β F)
  | .packet p r => do
    let pool ← claim s.pool p.buffer
    let store ← countPacket S w s.store r.time
    let pool ← portBuffers w p r pool
    let commands ← portCommands cmdList host m w.schCommNode p r.logged
    return { store := store
             pool := pool
             packets := s.packets ++ [(p, r)]
             commands := s.commands ++ commands }
  | .cspTakes b => (move .free .handed s.pool b).map fun pool => { s with pool := pool }
  | .cspFrees b => (move .handed .free s.pool b).map fun pool => { s with pool := pool }

/-- Before the loop the task has taken one buffer, `rep_ok_tmp`. -/
def start (store : σ) (repOkTmp : β) : System σ β F :=
  { store := store
    pool := Function.update (fun _ => .free) repOkTmp .held
    packets := []
    commands := [] }

def lost (x : Packet β × Results β) : Bool :=
  (x.1.dport = schTrxPortTc || x.1.dport = schTrxPortCmd) && x.2.clone.isSome && !x.2.send

end Loop

/-! What a packet does. -/

section Ledger
variable {β : Type} [DecidableEq β] [Fintype β] {pool : Pool β} {c : Config} {w : CommConfig c}

theorem reply_spec {r : Results β} (fresh : ∀ b, r.clone = some b → pool b = .free) :
    ∃ next, reply r pool = some next ∧ (∀ x, pool x = .held → next x = .held) ∧
      count .held next = count .held pool + (r.clone.isSome && !r.send).toNat := by
  cases copy : r.clone with
  | none => exact ⟨pool, by simp [reply, copy], fun _ held => held, by simp⟩
  | some b =>
    cases sent : r.send with
    | false =>
      obtain ⟨taken, took, -, keeps, counted⟩ := take_spec (fresh b copy)
      refine ⟨taken, ?_, fun x held => (keeps x held).2, ?_⟩
      · simp [reply, copy, sent, took]
      · simpa using counted
    | true =>
      obtain ⟨taken, next, took, gave, keeps, counted⟩ :=
        take_away (fresh b copy) (show Owner.handed ≠ .held by decide)
      refine ⟨next, ?_, keeps, ?_⟩
      · simp [reply, copy, sent, took, handOver, gave]
      · simpa using counted

theorem resendTm_spec {r : Results β} (fresh : ∀ b, r.clone = some b → pool b = .free)
    {resend : Bool} (copied : resend = true → r.clone.isSome) :
    ∃ next, resendTm resend r pool = some next ∧ (∀ x, pool x = .held → next x = .held) ∧
      count .held next = count .held pool := by
  cases resend with
  | false => exact ⟨pool, rfl, fun _ held => held, rfl⟩
  | true =>
    obtain ⟨b, copy⟩ := Option.isSome_iff_exists.mp (copied rfl)
    by_cases refused : r.sendto = -1
    · obtain ⟨taken, next, took, gave, keeps, counted⟩ :=
        take_away (fresh b copy) (show Owner.free ≠ .held by decide)
      exact ⟨next, by simp [resendTm, copy, refused, took, release, gave], keeps, counted⟩
    · obtain ⟨taken, next, took, gave, keeps, counted⟩ :=
        take_away (fresh b copy) (show Owner.handed ≠ .held by decide)
      exact ⟨next, by simp [resendTm, copy, refused, took, handOver, gave], keeps, counted⟩

theorem portBuffers_spec {p : Packet β} {r : Results β} (held : pool p.buffer = .held)
    (fresh : ∀ b, r.clone = some b → pool b = .free)
    (copied : w.resend = true → p.dport = schTrxPortTm → r.clone.isSome) :
    ∃ next, portBuffers w p r pool = some next ∧
      count .held next + 1 = count .held pool + (lost (p, r)).toNat := by
  have gives : ∀ {pool : Pool β} (target : Owner), target ≠ .held → pool p.buffer = .held →
      ∃ next, move .held target pool p.buffer = some next ∧
        count .held next + 1 = count .held pool := by
    intro pool target away held
    obtain ⟨next, gave, -, -, counts⟩ := move_total held target
    exact ⟨next, gave, by simpa [away] using counts .held⟩
  have kept : ∀ target : Owner, target ≠ .held → lost (p, r) = false →
      ∃ next, move .held target pool p.buffer = some next ∧
        count .held next + 1 = count .held pool + (lost (p, r)).toNat := by
    intro target away found
    obtain ⟨next, gave, counts⟩ := gives target away held
    exact ⟨next, gave, by simpa [found] using counts⟩
  by_cases answered : p.dport = schTrxPortTc ∨ p.dport = schTrxPortCmd
  · have noFile : p.dport ≠ schTrxPortFile := by
      rcases answered with port | port <;> rw [port] <;> decide
    obtain ⟨replied, done, still, counts⟩ := reply_spec fresh
    obtain ⟨next, gave, counts'⟩ := gives .free (by decide) (still _ held)
    refine ⟨next, ?_, ?_⟩
    · simp [portBuffers, noFile, answered, done, release, gave]
    · have ports : (decide (p.dport = schTrxPortTc) || decide (p.dport = schTrxPortCmd)) = true := by
        simpa using answered
      rw [counts', counts, lost]
      simp only [ports, Bool.true_and]
  · have found : lost (p, r) = false := by
      rw [not_or] at answered
      simp [lost, answered.1, answered.2]
    simp only [portBuffers, answered, ↓reduceIte]
    split
    · exact kept .free (by decide) found
    · split
      · split
        · exact kept .handed (by decide) found
        · exact kept .free (by decide) found
      · split
        · exact kept .free (by decide) found
        · split
          · rename_i port
            obtain ⟨sent, done, still, counts⟩ := resendTm_spec fresh fun on => copied on port
            obtain ⟨next, gave, counts'⟩ := gives .free (by decide) (still _ held)
            exact ⟨next, by simp [done, release, gave], by simp [counts', counts, found]⟩
          · exact kept .handed (by decide) found

variable {σ ρ F : Type} {S : Storage σ} {good : σ → Prop} {cell : σ → Nat → Option UInt32}
  {rest : σ → ρ} {write : σ → Nat → UInt32 → σ} {m : DataMap} {host : Host}
  {cmdList : Nat → CmdList F}

omit [DecidableEq β] [Fintype β] in
theorem countPacket_spec (laws : StatusLaws S c good cell rest write) {s : σ} (ok : good s)
    {counted : Int32} (counter : datGetSystemVar S c s w.datComCountTc = some counted)
    (below : counted.toInt < 2147483647) (time : Int32) :
    ∃ s', countPacket S w s time = some s' ∧ good s' ∧
      datGetSystemVar S c s' w.datComCountTc = some (counted + 1) ∧
      datGetSystemVar S c s' w.datComLastTc = some time := by
  obtain ⟨s₁, set₁, -, -, -⟩ := datSetSystemVar_spec laws ok w.countTc_lt (counted + 1)
  obtain ⟨ok₁, reads₁⟩ := datSetSystemVar_reads laws ok w.countTc_lt set₁
  obtain ⟨s₂, set₂, -, -, -⟩ := datSetSystemVar_spec laws ok₁ w.lastTc_lt time
  obtain ⟨ok₂, reads₂⟩ := datSetSystemVar_reads laws ok₁ w.lastTc_lt set₂
  refine ⟨s₂, ?_, ok₂, ?_, ?_⟩
  · have low := counted.le_toInt
    have sum : checkedAdd counted 1 = some (counted + 1) :=
      checkedAdd_inside (by simp; omega) (by simp; omega)
    simp [countPacket, counter, sum, set₁, set₂]
  · rw [reads₂ _ w.countTc_lt, if_neg w.distinct, reads₁ _ w.countTc_lt, if_pos rfl]
  · rw [reads₂ _ w.lastTc_lt, if_pos rfl]

/-- The handler stays inside of the buffer: a telecommand leaves room for its
    terminator, and a text that is printed ends in the buffer. -/
def Contained (schCommNode : UInt8) (p : Packet β) (logged : Bool) : Prop :=
  if p.dport = schTrxPortFile then True
  else if p.dport = schTrxPortTc then p.length < schBuffMaxLen
  else if p.dport = schTrxPortRpt then p.dst = schCommNode ∨ logged = false ∨ 0 ∈ p.data
  else if p.dport = schTrxPortCmd then p.length < schBuffMaxLen
  else if p.dport = schTrxPortDbg then 0 ∈ p.data
  else if p.dport = schTrxPortDbgTm then 0 ∈ p.data.drop data8Offset
  else True

theorem whole_split {packet : List UInt8} (size : packet.length = sizeofComFrame) :
    ∃ b₀ b₁ b₂ b₃ b₄ b₅ b₆ b₇ data, packet = b₀ :: b₁ :: b₂ :: b₃ :: b₄ :: b₅ :: b₆ :: b₇ :: data ∧
      data.length = comFrameMaxLen := by
  match packet with
  | b₀ :: b₁ :: b₂ :: b₃ :: b₄ :: b₅ :: b₆ :: b₇ :: data =>
    refine ⟨b₀, b₁, b₂, b₃, b₄, b₅, b₆, b₇, data, rfl, ?_⟩
    simp only [List.length_cons, sizeofComFrame] at size
    simp only [comFrameMaxLen]
    omega
  | [] | [_] | [_, _] | [_, _, _] | [_, _, _, _] | [_, _, _, _, _] | [_, _, _, _, _, _]
  | [_, _, _, _, _, _, _] => simp [sizeofComFrame] at size

theorem frameAt_whole (e : Endian) {packet : List UInt8} (size : packet.length = sizeofComFrame) :
    (frameAt e packet).isSome := by
  obtain ⟨b₀, b₁, b₂, b₃, b₄, b₅, b₆, b₇, data, rfl, rest⟩ := whole_split size
  simp [frameAt, rest]

theorem fileFrameAt_whole (e : Endian) {packet : List UInt8}
    (size : packet.length = sizeofComFrame) : (fileFrameAt e packet).isSome := by
  obtain ⟨b₀, b₁, b₂, b₃, b₄, b₅, b₆, b₇, data, rfl, rest⟩ := whole_split size
  simp [fileFrameAt, rest]

omit [DecidableEq β] [Fintype β] in
theorem whole_frame (p : Packet β) : (p.data.take sizeofComFrame).length = sizeofComFrame := by
  rw [List.length_take, p.size]
  rfl

theorem comReceiveTm_whole (host : Host) (m : DataMap) {packet : List UInt8}
    (size : packet.length = sizeofComFrame) : (comReceiveTm host m packet).isSome := by
  obtain ⟨frame, read⟩ := Option.isSome_iff_exists.mp (frameAt_whole host.order size)
  unfold comReceiveTm
  simp only [read, Option.bind_eq_bind, Option.bind_some]
  split_ifs <;> rfl

theorem printed_isSome_iff {memory : List UInt8} :
    (printed memory : Option (List (Cmd F))).isSome ↔ 0 ∈ memory := by
  by_cases nul : (0 : UInt8) ∈ memory <;> simp [printed, stringAt, nul]

omit [DecidableEq β] [Fintype β] in
theorem received_length (p : Packet β) : p.received.length = p.length := by
  rw [Packet.received, List.length_take, p.size]
  exact Nat.min_eq_left p.inside

theorem comReceiveTc_isSome_iff {room : Nat} {data : List UInt8} :
    (comReceiveTc cmdList room data).isSome ↔ data.length < room := by
  unfold comReceiveTc
  by_cases fits : data.length < room
  · rw [if_pos fits]
    split <;> simp [fits]
  · simp [fits]

theorem comReceiveCmd_isSome_iff {room : Nat} {data : List UInt8} :
    (comReceiveCmd cmdList room data).isSome ↔ data.length < room := by
  unfold comReceiveCmd
  by_cases fits : data.length < room
  · rw [if_pos fits]
    split <;> simp [fits]
  · simp [fits]

omit [DecidableEq β] [Fintype β] in
theorem portCommands_isSome_iff (cmdList : Nat → CmdList F) (host : Host) (m : DataMap)
    (schCommNode : UInt8) (p : Packet β) (logged : Bool) :
    (portCommands cmdList host m schCommNode p logged).isSome ↔
      Contained schCommNode p logged := by
  unfold portCommands Contained
  by_cases file : p.dport = schTrxPortFile
  · obtain ⟨frame, read⟩ :=
      Option.isSome_iff_exists.mp (fileFrameAt_whole host.order (whole_frame p))
    rw [if_pos file, if_pos file, read, iff_true, Option.bind_eq_bind, Option.bind_some]
    cases comReceiveFile (csp host) frame <;> rfl
  rw [if_neg file, if_neg file]
  by_cases tc : p.dport = schTrxPortTc
  · rw [if_pos tc, if_pos tc, comReceiveTc_isSome_iff, received_length]
  rw [if_neg tc, if_neg tc]
  by_cases rpt : p.dport = schTrxPortRpt
  · rw [if_pos rpt, if_pos rpt, ← or_assoc]
    by_cases quiet : p.dst = schCommNode ∨ logged = false
    · simp only [quiet, if_true, Option.isSome_some, true_or]
    · rw [if_neg quiet, printed_isSome_iff, or_iff_right quiet]
  rw [if_neg rpt, if_neg rpt]
  by_cases cmd : p.dport = schTrxPortCmd
  · rw [if_pos cmd, if_pos cmd, comReceiveCmd_isSome_iff, received_length]
  rw [if_neg cmd, if_neg cmd]
  by_cases dbg : p.dport = schTrxPortDbg
  · rw [if_pos dbg, if_pos dbg, printed_isSome_iff]
  rw [if_neg dbg, if_neg dbg]
  by_cases dbgTm : p.dport = schTrxPortDbgTm
  · rw [if_pos dbgTm, if_pos dbgTm, printed_isSome_iff]
  rw [if_neg dbgTm, if_neg dbgTm]
  by_cases tm : p.dport = schTrxPortTm
  · obtain ⟨command, read⟩ :=
      Option.isSome_iff_exists.mp (comReceiveTm_whole host m (whole_frame p))
    rw [if_pos tm, read, iff_true, Option.bind_eq_bind, Option.bind_some]
    cases command <;> rfl
  · rw [if_neg tm, iff_true]
    rfl

/-- What CSP guarantees: a packet arrives in a buffer of CSP's, and a copy is made
    in one that was free. The handler is defined and its assertion holds, and the
    counter is not the greatest `int` yet. -/
def Legit (S : Storage σ) (w : CommConfig c) (s : System σ β F) : Event β → Prop
  | .packet p r =>
    s.pool p.buffer = .handed ∧ (∀ b, r.clone = some b → s.pool b = .free) ∧
      (w.resend = true → p.dport = schTrxPortTm → r.clone.isSome) ∧
      Contained w.schCommNode p r.logged ∧
      ∀ counted, datGetSystemVar S c s.store w.datComCountTc = some counted →
        counted.toInt < 2147483647
  | .cspTakes b => s.pool b = .free
  | .cspFrees b => s.pool b = .handed

def allCommands (w : CommConfig c) (m : DataMap) (host : Host) (cmdList : Nat → CmdList F)
    (packets : List (Packet β × Results β)) : List (Cmd F) :=
  packets.flatMap fun x =>
    (portCommands cmdList host m w.schCommNode x.1 x.2.logged).getD []

structure Ledger (S : Storage σ) (good : σ → Prop) (w : CommConfig c) (m : DataMap) (host : Host)
    (cmdList : Nat → CmdList F) (counted : Int32) (s : System σ β F) : Prop where
  ok : good s.store
  counter : datGetSystemVar S c s.store w.datComCountTc =
    some (counted + Int32.ofNat s.packets.length)
  last : ∀ x, s.packets.getLast? = some x →
    datGetSystemVar S c s.store w.datComLastTc = some x.2.time
  held : count .held s.pool = 1 + s.packets.countP lost
  commands : s.commands = allCommands w m host cmdList s.packets

theorem Ledger.moved {counted : Int32} {s : System σ β F}
    (ledger : Ledger S good w m host cmdList counted s) {source target : Owner} {b : β}
    (owned : s.pool b = source) (off : source ≠ .held) (away : target ≠ .held) :
    ∃ next, move source target s.pool b = some next ∧
      Ledger S good w m host cmdList counted { s with pool := next } := by
  obtain ⟨next, moved, -, -, counts⟩ := move_total owned target
  refine ⟨next, moved, ledger.ok, ledger.counter, ledger.last, ?_, ledger.commands⟩
  have same := counts .held
  rw [if_neg off, if_neg away] at same
  exact same.trans ledger.held

theorem ledger_step (laws : StatusLaws S c good cell rest write) {counted : Int32}
    (s : System σ β F) (e : Event β) (ledger : Ledger S good w m host cmdList counted s)
    (legit : Legit S w s e) :
    ∃ t, step S w m host cmdList s e = some t ∧ Ledger S good w m host cmdList counted t := by
  cases e with
  | cspTakes b =>
    obtain ⟨next, moved, ledger⟩ :=
      ledger.moved legit (by decide) (show Owner.handed ≠ .held by decide)
    exact ⟨{ s with pool := next }, by simp only [step, moved, Option.map_some], ledger⟩
  | cspFrees b =>
    obtain ⟨next, moved, ledger⟩ :=
      ledger.moved legit (by decide) (show Owner.free ≠ .held by decide)
    exact ⟨{ s with pool := next }, by simp only [step, moved, Option.map_some], ledger⟩
  | packet p r =>
    obtain ⟨arrived, fresh, copied, contained, below⟩ := legit
    obtain ⟨claimed, claim_, now, others, counts⟩ := move_total arrived .held
    obtain ⟨store, counted', ok, counter, last⟩ :=
      countPacket_spec laws ledger.ok ledger.counter (below _ ledger.counter) r.time
    have fresh' : ∀ b, r.clone = some b → claimed b = .free := by
      intro b copy
      have free := fresh b copy
      rw [others b, free]
      rintro rfl
      rw [arrived] at free
      cases free
    obtain ⟨next, done, held⟩ := portBuffers_spec (w := w) now fresh' copied
    obtain ⟨commands, handled⟩ := Option.isSome_iff_exists.mp
      ((portCommands_isSome_iff cmdList host m w.schCommNode p r.logged).mpr contained)
    refine ⟨⟨store, next, s.packets ++ [(p, r)], s.commands ++ commands⟩, ?_, ok, ?_, ?_, ?_, ?_⟩
    · simp [step, claim, claim_, counted', done, handled]
    · rw [counter, List.length_append, List.length_singleton, Int32.ofNat_add, Int32.add_assoc]
      rfl
    · intro x mem
      rw [List.getLast?_concat] at mem
      cases mem
      exact last
    · have taken := counts .held
      have before := ledger.held
      rw [List.countP_append, List.countP_singleton]
      simp only [reduceCtorEq, ↓reduceIte, Nat.add_zero] at taken
      cases found : lost (p, r) <;> simp only [found, Bool.toNat_false, Bool.toNat_true] at held <;>
        simp <;> omega
    · rw [ledger.commands, allCommands, allCommands, List.flatMap_append]
      simp [handled]

theorem ledger_start {store : σ} {counted : Int32} (ok : good store)
    (counter : datGetSystemVar S c store w.datComCountTc = some counted) (repOkTmp : β) :
    Ledger S good w m host cmdList counted (start store repOkTmp) where
  ok := ok
  counter := by simpa [start] using counter
  last := by simp [start]
  held := by
    have moved : move .free .held (fun _ => .free) repOkTmp =
        some (Function.update (fun _ => .free) repOkTmp .held) := move_of_owner rfl
    have none_ : count .held (fun _ : β => Owner.free) = 0 := by simp [count]
    have counts := count_move moved .held
    rw [none_] at counts
    exact counts
  commands := rfl

def packetsOf (events : List (Event β)) : List (Packet β × Results β) :=
  events.filterMap fun
    | .packet p r => some (p, r)
    | _ => none

omit [Fintype β] in
theorem run_packets {s t : System σ β F} {events : List (Event β)}
    (reached : run (step S w m host cmdList) s events = some t) :
    t.packets = s.packets ++ packetsOf events := by
  induction events generalizing s with
  | nil =>
    cases reached
    simp [packetsOf]
  | cons e rest ih =>
    obtain ⟨next, stepped, later⟩ := Option.bind_eq_some_iff.mp reached
    rw [ih later]
    cases e with
    | packet p r =>
      simp only [step] at stepped
      obtain ⟨_, -, stepped⟩ := Option.bind_eq_some_iff.mp stepped
      obtain ⟨_, -, stepped⟩ := Option.bind_eq_some_iff.mp stepped
      obtain ⟨_, -, stepped⟩ := Option.bind_eq_some_iff.mp stepped
      obtain ⟨_, -, stepped⟩ := Option.bind_eq_some_iff.mp stepped
      cases stepped
      simp [packetsOf]
    | cspTakes b =>
      obtain ⟨_, -, rfl⟩ := Option.map_eq_some_iff.mp stepped
      rfl
    | cspFrees b =>
      obtain ⟨_, -, rfl⟩ := Option.map_eq_some_iff.mp stepped
      rfl

theorem ledger_run (laws : StatusLaws S c good cell rest write) {store : σ} {counted : Int32}
    (ok : good store) (counter : datGetSystemVar S c store w.datComCountTc = some counted)
    {repOkTmp : β} {events : List (Event β)}
    (legit : Along (step S w m host cmdList) (Legit S w) (start store repOkTmp) events) :
    ∃ s, run (step S w m host cmdList) (start store repOkTmp) events = some s ∧
      Ledger S good w m host cmdList counted s ∧ s.packets = packetsOf events := by
  obtain ⟨s, reached, ledger⟩ :=
    run_total_along (ledger_step laws) (ledger_start ok counter repOkTmp) legit
  exact ⟨s, reached, ledger, by simpa [start] using run_packets reached⟩

/-- Replies that could not be sent use up the pool: when all buffers but two have
    gone that way, a packet takes one of the two, `rep_ok_tmp` is the other, and no
    copy of it is ever made again. The node still executes telecommands, but it
    does not answer them. -/
theorem mute_after_lost_replies (laws : StatusLaws S c good cell rest write) {store : σ}
    {counted : Int32} (ok : good store)
    (counter : datGetSystemVar S c store w.datComCountTc = some counted) {repOkTmp : β}
    {events : List (Event β)} {s : System σ β F}
    (legit : Along (step S w m host cmdList) (Legit S w) (start store repOkTmp) events)
    (reached : run (step S w m host cmdList) (start store repOkTmp) events = some s)
    (gone : (packetsOf events).countP lost + 2 = Fintype.card β) {p : Packet β} {r : Results β}
    (arrives : Legit S w s (.packet p r)) : r.clone = none := by
  obtain ⟨s', reached', ledger, packets⟩ := ledger_run laws ok counter legit
  obtain rfl := Option.some.inj (reached.symm.trans reached')
  have held := ledger.held
  rw [packets] at held
  have owners := count_owners s.pool
  cases copy : r.clone with
  | none => rfl
  | some b =>
    have free := count_pos (arrives.2.1 b copy)
    have handed := count_pos arrives.1
    omega

end Ledger

/-! A packet for the telecommand port whose reply is lost. -/

section Example
open RamStorage RamFlightPlan RamSamples

theorem simpleCount_lt : 11 < simpleConfig.datStatusLastAddress := by decide
theorem simpleLast_lt : 12 < simpleConfig.datStatusLastAddress := by decide
theorem simpleCount_ne : 11 ≠ 12 := by decide

def simpleComm : CommConfig simpleConfig where
  schCommNode := 1
  resend := false
  datComCountTc := 11
  datComLastTc := 12
  countTc_lt := simpleCount_lt
  lastTc_lt := simpleLast_lt
  distinct := simpleCount_ne

abbrev Buffer := Option Bool

theorem pingMemory_length : (pingText.chars ++ List.replicate 252 0).length = schBuffMaxLen := by
  rw [List.length_append, List.length_replicate]
  rfl

theorem ping_inside : 4 ≤ schBuffMaxLen := by decide

def pingPacket : Packet Buffer where
  buffer := some true
  dport := schTrxPortTc
  dst := 1
  data := pingText.chars ++ List.replicate 252 0
  length := 4
  size := pingMemory_length
  inside := ping_inside

theorem pingPacket_contained : Contained 1 pingPacket true := by
  have tc : pingPacket.dport = schTrxPortTc := rfl
  have other : ¬ schTrxPortTc = schTrxPortFile := by decide
  rw [Contained, tc, if_neg other, if_pos rfl]
  decide

def lostPing : List (Event Buffer) :=
  [.cspTakes (some true), .packet pingPacket ⟨60, some (some false), false, 0, true⟩,
    .cspTakes (some true)]

def oneSample : DataMap := ⟨1, fun _ => 4, fun _ => 15⟩

def simpleStep : System RamStore Buffer Unit → Event Buffer →
    Option (System RamStore Buffer Unit) :=
  step (ramStorage simpleConfig) simpleComm oneSample (standardHost .little) twoNames

theorem lostPing_legit {store : RamStore}
    (counter : datGetSystemVar (ramStorage simpleConfig) simpleConfig store
      simpleComm.datComCountTc = some 0) :
    Along simpleStep (Legit (ramStorage simpleConfig) simpleComm) (start store (none : Buffer))
      lostPing := by
  refine along_cons.mpr ⟨rfl, fun t₁ taken => ?_⟩
  simp only [simpleStep, step] at taken
  obtain ⟨pool₁, moved, rfl⟩ := Option.map_eq_some_iff.mp taken
  obtain ⟨-, rfl⟩ := move_eq_some moved
  refine along_cons.mpr ⟨⟨rfl, ?_, nofun, pingPacket_contained, fun counted read => ?_⟩, fun t₂ served => ?_⟩
  · rintro b copy
    cases copy
    rfl
  · rw [Option.some.inj (read.symm.trans counter)]
    decide
  · simp only [simpleStep, step] at served
    obtain ⟨pool₂, claimed, served⟩ := Option.bind_eq_some_iff.mp served
    obtain ⟨store₂, -, served⟩ := Option.bind_eq_some_iff.mp served
    obtain ⟨pool₃, buffers, served⟩ := Option.bind_eq_some_iff.mp served
    obtain ⟨commands, -, served⟩ := Option.bind_eq_some_iff.mp served
    obtain ⟨-, rfl⟩ := move_eq_some claimed
    cases buffers
    cases served
    exact along_cons.mpr ⟨rfl, fun _ _ => along_nil _ _⟩

theorem simple_boot :
    ∃ store, datRepoInit simpleConfig 1 = some store ∧ (∃ status, Ready simpleConfig store status) ∧
      datGetSystemVar (ramStorage simpleConfig) simpleConfig store simpleComm.datComCountTc =
        some 0 := by
  obtain ⟨store, boot, ready, -, -, defaults⟩ := datRepoInit_defaults simpleConfig 1
  refine ⟨store, boot, ready, ?_⟩
  rw [datGetSystemVar_eq (ram_status simpleConfig) ready simpleComm.countTc_lt,
    defaults _ simpleComm.countTc_lt]
  rfl

theorem next_ping_mute :
    ∃ store s, datRepoInit simpleConfig 1 = some store ∧
      run simpleStep (start store (none : Buffer)) lostPing = some s ∧
      ∀ r, Legit (ramStorage simpleConfig) simpleComm s (.packet pingPacket r) →
        r.clone = none := by
  obtain ⟨store, boot, ready, counter⟩ := simple_boot
  obtain ⟨s, reached, -⟩ :=
    ledger_run (w := simpleComm) (ram_status simpleConfig) ready counter (lostPing_legit counter)
  refine ⟨store, s, boot, reached, fun r arrives => ?_⟩
  exact mute_after_lost_replies (ram_status simpleConfig) ready counter (lostPing_legit counter)
    reached (by decide) arrives

end Example
end CommunicationsTask
