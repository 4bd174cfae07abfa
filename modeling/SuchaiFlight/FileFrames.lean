import SuchaiFlight.Library.Blocks
import SuchaiFlight.Library.Decimal
import SuchaiFlight.RepoCommand

/-!
The frames of a file transfer: `com_send_file` and `com_send_file_parts` of
`cmdCOM.c`, and `tm_send_file_parts` of `cmdTM.c`. The CSP library is a
parameter: what the code uses of it is that the byte order functions are
inverse and that every call may fail.
-/
namespace FileFrames
open CStrings StorageApi RepoCommand Blocks

def comFrameMaxLen : Nat := 192

def tmTypeFileStart : UInt8 := 100
def tmTypeFileData : UInt8 := 101
def tmTypeFileEnd : UInt8 := 102
def tmTypeFilePart : UInt8 := 103

def fill : UInt8 := 0xAA

structure ComFrameFile where
  nframe : UInt16
  type : UInt8
  node : UInt8
  fileid : UInt16
  total : UInt16
  data : List UInt8
  size : data.length = comFrameMaxLen
  deriving DecidableEq

structure Csp where
  hton16 : UInt16 → UInt16
  ntoh16 : UInt16 → UInt16
  ntoh16_hton16 : ∀ x, ntoh16 (hton16 x) = x

/-- The outcomes of the calls of one transfer: `csp_connect`, `csp_buffer_get`
    and `csp_send` for each frame by its position, and `csp_close`. -/
structure Link where
  connects : Bool
  buffers : Nat → Bool
  sends : Nat → Bool
  closes : Bool

structure Link.Up (link : Link) : Prop where
  connects : link.connects
  buffers : ∀ k, link.buffers k
  sends : ∀ k, link.sends k
  closes : link.closes

section Sender
variable (csp : Csp) (schCommNode : UInt8) (link : Link)

def fileFrame (nframe : Int) (type : UInt8) (fileid : UInt16) (fileParts : Int)
    (data : List UInt8) : ComFrameFile :=
  { nframe := csp.hton16 (UInt16.ofInt nframe)
    type := type
    node := schCommNode
    fileid := csp.hton16 fileid
    total := csp.hton16 (UInt16.ofInt fileParts)
    data := padded comFrameMaxLen fill data
    size := padded_length fill data }

/-- The loop of `com_send_file_parts`, with `rc_send` as a Boolean. Every pass
    takes at least one byte, so the number of bytes bounds the passes. -/
def sendLoop (type : UInt8) (fileid : UInt16) (fileParts : Int) :
    Nat → Nat → Int → List UInt8 → Bool → Bool × List ComFrameFile
  | 0, _, _, _, rcSend => (rcSend, [])
  | passes + 1, sent, startPart, data, rcSend =>
    if data = [] then (rcSend, [])
    else if !link.buffers sent then (false, [])
    else if !link.sends sent then (false, [])
    else
      let frame := fileFrame csp schCommNode startPart type fileid fileParts data
      let (rcSend, frames) := sendLoop type fileid fileParts passes (sent + 1) (startPart + 1)
        (data.drop comFrameMaxLen) true
      (rcSend, frame :: frames)

/-- `connPrev` tells whether the caller passes an open connection, and `sent`
    how many frames it has sent over it. -/
def comSendFileParts (data : List UInt8) (fileId : UInt16) (startPart fileParts : Int)
    (type : UInt8) (connPrev : Bool) (sent : Nat) : Int32 × List ComFrameFile :=
  if !connPrev && !link.connects then (cmdError, [])
  else
    let (rcSend, frames) := sendLoop csp schCommNode link type fileId fileParts data.length sent
      startPart data false
    (if rcSend && (connPrev || link.closes) then cmdOk else cmdError, frames)

/-- A transfer with the id that `rand` gave. The byte counts are `int`
    variables; for data they cannot hold the result is `none`. -/
def comSendFile (name : CString) (data : List UInt8) (fileid : UInt16) :
    Option (Int32 × List ComFrameFile) :=
  let dataFrames := data.length / comFrameMaxLen
  let nDataBytes := data.length / comFrameMaxLen * comFrameMaxLen
  if 2147483648 ≤ nDataBytes then none
  else if !link.connects then some (cmdError, [])
  else
    let (rcSend, start) := comSendFileParts csp schCommNode link (name.chars ++ [0]) fileid 0
      (dataFrames + 1) tmTypeFileStart true 0
    let (rcSend, body) :=
      if rcSend ≠ 0 ∧ nDataBytes > 0 then
        comSendFileParts csp schCommNode link (data.take nDataBytes) fileid 1 (dataFrames + 1)
          tmTypeFileData true start.length
      else (rcSend, [])
    let (rcSend, tail) :=
      if rcSend ≠ 0 then
        comSendFileParts csp schCommNode link (data.drop nDataBytes) fileid (dataFrames + 1)
          (dataFrames + 1) tmTypeFileEnd true (start.length + body.length)
      else (rcSend, [])
    some (if rcSend = cmdOk && link.closes then cmdOk else cmdError, start ++ body ++ tail)

end Sender

/-! What is sent when every call succeeds. -/

section Frames
variable {csp : Csp} {schCommNode : UInt8} {link : Link}

def blockFrames (csp : Csp) (schCommNode type : UInt8) (fileid : UInt16) (startPart fileParts : Int)
    (data : List UInt8) : List ComFrameFile :=
  (List.range (blockCount comFrameMaxLen data.length)).map fun (i : Nat) =>
    fileFrame csp schCommNode (startPart + i) type fileid fileParts (block comFrameMaxLen data i)

theorem blockFrames_nil (type : UInt8) (fileid : UInt16) (startPart fileParts : Int) :
    blockFrames csp schCommNode type fileid startPart fileParts [] = [] := by
  simp [blockFrames, blockCount]

theorem padded_take (data : List UInt8) :
    padded comFrameMaxLen fill (data.take comFrameMaxLen) = padded comFrameMaxLen fill data := by
  simp only [padded, List.take_take, Nat.min_self, List.length_take]
  congr 2
  omega

theorem blockFrames_step (type : UInt8) (fileid : UInt16) (startPart fileParts : Int)
    {data : List UInt8} (present : data ≠ []) :
    blockFrames csp schCommNode type fileid startPart fileParts data =
      fileFrame csp schCommNode startPart type fileid fileParts data ::
        blockFrames csp schCommNode type fileid (startPart + 1) fileParts
          (data.drop comFrameMaxLen) := by
  have count : blockCount comFrameMaxLen data.length =
      blockCount comFrameMaxLen (data.drop comFrameMaxLen).length + 1 :=
    blockCount_drop (by decide) present
  have head : fileFrame csp schCommNode startPart type fileid fileParts
      (block comFrameMaxLen data 0) =
      fileFrame csp schCommNode startPart type fileid fileParts data := by
    simp [fileFrame, block, padded_take]
  simp only [blockFrames, count, List.range_succ_eq_map, List.map_cons, List.map_map]
  congr 1
  · simpa using head
  · apply List.map_congr_left
    intro i _
    simp only [Function.comp, block_drop]
    congr 1
    simp only [Nat.succ_eq_add_one, Int.natCast_add, Int.natCast_one]
    omega

theorem sendLoop_up (up : link.Up) (type : UInt8) (fileid : UInt16) (fileParts : Int)
    {passes sent : Nat} {startPart : Int} {data : List UInt8} {rcSend : Bool}
    (enough : data.length ≤ passes) :
    sendLoop csp schCommNode link type fileid fileParts passes sent startPart data rcSend =
      (if data = [] then rcSend else true,
        blockFrames csp schCommNode type fileid startPart fileParts data) := by
  induction passes generalizing sent startPart data rcSend with
  | zero =>
    have none : data = [] := List.eq_nil_of_length_eq_zero (by omega)
    simp [none, sendLoop, blockFrames_nil]
  | succ passes ih =>
    by_cases none : data = []
    · simp [none, sendLoop, blockFrames_nil]
    · have pos : 0 < data.length := List.length_pos_of_ne_nil none
      have less : (data.drop comFrameMaxLen).length ≤ passes := by
        simp only [List.length_drop, comFrameMaxLen]
        omega
      simp only [sendLoop, none, up.buffers, up.sends, ih less, ↓reduceIte, Bool.not_true,
        Bool.false_eq_true, blockFrames_step type fileid startPart fileParts none]
      simp

theorem comSendFileParts_up (up : link.Up) (type : UInt8) (fileid : UInt16)
    (startPart fileParts : Int) (connPrev : Bool) (sent : Nat) (data : List UInt8) :
    comSendFileParts csp schCommNode link data fileid startPart fileParts type connPrev sent =
      (if data = [] then cmdError else cmdOk,
        blockFrames csp schCommNode type fileid startPart fileParts data) := by
  simp only [comSendFileParts, up.connects, up.closes, sendLoop_up up type fileid fileParts le_rfl]
  by_cases none : data = [] <;> simp [none]

def startFrames (csp : Csp) (schCommNode : UInt8) (fileid : UInt16) (name : CString) (n : Nat) :
    List ComFrameFile :=
  blockFrames csp schCommNode tmTypeFileStart fileid 0 (n / comFrameMaxLen + 1 : Nat)
    (name.chars ++ [0])

/-- Frame number `i + 1` of a transfer: a `DATA` frame for each full block and
    an `END` frame for the bytes that are left. -/
def bodyFrame (csp : Csp) (schCommNode : UInt8) (fileid : UInt16) (data : List UInt8) (i : Nat) :
    ComFrameFile :=
  fileFrame csp schCommNode (i + 1 : Nat)
    (if i < data.length / comFrameMaxLen then tmTypeFileData else tmTypeFileEnd) fileid
    (data.length / comFrameMaxLen + 1 : Nat) (block comFrameMaxLen data i)

def bodyFrames (csp : Csp) (schCommNode : UInt8) (fileid : UInt16) (data : List UInt8) :
    List ComFrameFile :=
  (List.range (blockCount comFrameMaxLen data.length)).map (bodyFrame csp schCommNode fileid data)

def transferFrames (csp : Csp) (schCommNode : UInt8) (fileid : UInt16) (name : CString)
    (data : List UInt8) : List ComFrameFile :=
  startFrames csp schCommNode fileid name data.length ++ bodyFrames csp schCommNode fileid data

theorem block_take_full (data : List UInt8) {i : Nat} (full : i < data.length / comFrameMaxLen) :
    block comFrameMaxLen (data.take (data.length / comFrameMaxLen * comFrameMaxLen)) i =
      block comFrameMaxLen data i := by
  have room : comFrameMaxLen * i + comFrameMaxLen ≤
      data.length / comFrameMaxLen * comFrameMaxLen := by
    have := Nat.mul_le_mul_left comFrameMaxLen (Nat.succ_le_of_lt full)
    rw [Nat.mul_succ, Nat.mul_comm comFrameMaxLen (_ / _)] at this
    exact this
  simp only [block, List.drop_take, List.take_take]
  congr 1
  omega

theorem dataFrames_eq (fileid : UInt16) (data : List UInt8) :
    blockFrames csp schCommNode tmTypeFileData fileid 1 (data.length / comFrameMaxLen + 1 : Nat)
        (data.take (data.length / comFrameMaxLen * comFrameMaxLen)) =
      (List.range (data.length / comFrameMaxLen)).map (bodyFrame csp schCommNode fileid data) := by
  have length : (data.take (data.length / comFrameMaxLen * comFrameMaxLen)).length =
      data.length / comFrameMaxLen * comFrameMaxLen := by
    rw [List.length_take, Nat.min_eq_left (Nat.div_mul_le_self _ _)]
  have count : blockCount comFrameMaxLen (data.length / comFrameMaxLen * comFrameMaxLen) =
      data.length / comFrameMaxLen := by
    simp [blockCount, comFrameMaxLen]
  simp only [blockFrames, length, count]
  apply List.map_congr_left
  intro i mem
  have full : i < data.length / comFrameMaxLen := List.mem_range.mp mem
  simp only [bodyFrame, full, ↓reduceIte, block_take_full data full]
  congr 1
  omega

theorem endFrames_eq (fileid : UInt16) (data : List UInt8) :
    (List.range (data.length / comFrameMaxLen)).map (bodyFrame csp schCommNode fileid data) ++
        blockFrames csp schCommNode tmTypeFileEnd fileid (data.length / comFrameMaxLen + 1 : Nat)
          (data.length / comFrameMaxLen + 1 : Nat)
          (data.drop (data.length / comFrameMaxLen * comFrameMaxLen)) =
      bodyFrames csp schCommNode fileid data := by
  have length : (data.drop (data.length / comFrameMaxLen * comFrameMaxLen)).length =
      data.length % comFrameMaxLen := by
    rw [List.length_drop, ← Nat.mod_eq_sub_div_mul]
  have small := Nat.mod_lt data.length (show 0 < comFrameMaxLen by decide)
  simp only [bodyFrames, blockFrames, length]
  by_cases even : data.length % comFrameMaxLen = 0
  · simp [blockCount, even]
  · have one : blockCount comFrameMaxLen (data.length % comFrameMaxLen) = 1 := by
      simp [blockCount, Nat.mod_eq_of_lt small, Nat.div_eq_of_lt small, even]
    have last : blockCount comFrameMaxLen data.length = data.length / comFrameMaxLen + 1 := by
      simp [blockCount, even]
    rw [one, last, List.range_succ (n := data.length / comFrameMaxLen), List.map_append]
    simp [bodyFrame, block, Nat.mul_comm]

theorem comSendFile_up (up : link.Up) (name : CString) (fileid : UInt16) {data : List UInt8}
    (small : data.length / comFrameMaxLen * comFrameMaxLen < 2147483648) :
    ∃ rc, comSendFile csp schCommNode link name data fileid =
      some (rc, transferFrames csp schCommNode fileid name data) := by
  suffices frames : (comSendFile csp schCommNode link name data fileid).map Prod.snd =
      some (transferFrames csp schCommNode fileid name data) by
    obtain ⟨⟨rc, _⟩, sent, same⟩ := Option.map_eq_some_iff.mp frames
    exact ⟨rc, by rw [sent, ← same]⟩
  have fits : ¬ 2147483648 ≤ data.length / comFrameMaxLen * comFrameMaxLen := by omega
  rw [transferFrames, ← endFrames_eq, ← dataFrames_eq]
  by_cases none : data.length / comFrameMaxLen = 0
  · simp [comSendFile, up.connects, comSendFileParts_up up, none, startFrames, cmdOk,
      blockFrames_nil]
  · have pos : 0 < data.length / comFrameMaxLen * comFrameMaxLen :=
      Nat.mul_pos (Nat.pos_of_ne_zero none) (by decide)
    have present : data.take (data.length / comFrameMaxLen * comFrameMaxLen) ≠ [] := by
      intro empty
      have := congrArg List.length empty
      rw [List.length_take, Nat.min_eq_left (Nat.div_mul_le_self _ _), List.length_nil] at this
      omega
    simp [comSendFile, fits, up.connects, comSendFileParts_up up, pos, startFrames, cmdOk, present]

theorem bytes_lt_of_blockCount {n : Nat} (few : blockCount comFrameMaxLen n ≤ 65536) :
    n / comFrameMaxLen * comFrameMaxLen < 2147483648 := by
  have le : n / comFrameMaxLen ≤ blockCount comFrameMaxLen n := Nat.le_add_right _ _
  have := Nat.mul_le_mul_right comFrameMaxLen (le.trans few)
  simp only [comFrameMaxLen] at *
  omega

end Frames

end FileFrames
