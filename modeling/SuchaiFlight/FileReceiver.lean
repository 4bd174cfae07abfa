import SuchaiFlight.FileFrames
import Mathlib.Logic.Function.Basic

/-!
The receiver of file frames: `com_receive_file` of `taskCommunications.c` and
`tm_parse_file` of `cmdTM.c`, with the static variables of the latter and the
files it writes.
-/
namespace FileReceiver
open CStrings RepoCommand Blocks DecimalText FileFrames

abbrev Path := List UInt8

def bname : Path := [114, 101, 99, 118, 95, 102, 105, 108, 101, 115, 47]

def underscore : UInt8 := 95

def partSuffix : Path := [46, 112, 97, 114, 116]

/-- The file system around the regular files: which paths are directories, and
    for which paths `fopen` succeeds. -/
structure Environment where
  directory : Path → Bool
  opens : Path → Bool

structure Receiver where
  fname : Option Path
  lastId : Int
  lastFrame : Int
  files : Path → Option (List UInt8)

def initial (files : Path → Option (List UInt8)) : Receiver := ⟨none, 0, 0, files⟩

def accessible (env : Environment) (files : Path → Option (List UInt8)) (path : Path) : Bool :=
  env.directory path || (files path).isSome

def idname (fileid : UInt16) : Path := (decimal fileid.toNat ++ [underscore]).take 9

/-- The path that a `START` frame selects: the plain name, or the name with the
    file id before it when the plain one exists. -/
def startPath (env : Environment) (files : Path → Option (List UInt8)) (fileid : UInt16)
    (rname : Path) : Path :=
  if accessible env files (bname ++ rname) then bname ++ idname fileid ++ rname
  else bname ++ rname

def partPath (fileid nframe total : UInt16) : Path :=
  (bname ++ decimal fileid.toNat ++ [underscore] ++ decimal nframe.toNat ++ [underscore] ++
    decimal total.toNat ++ partSuffix).take (bname.length + 20 - 1)

def startFile (env : Environment) (frame : ComFrameFile) (rx : Receiver) : Option Receiver := do
  let rname ← stringAt frame.data
  some { rx with fname := some (startPath env rx.files frame.fileid rname.chars)
                 lastId := frame.fileid.toNat
                 lastFrame := frame.nframe.toNat }

def startPart (frame : ComFrameFile) (rx : Receiver) : Receiver :=
  { rx with fname := some (partPath frame.fileid frame.nframe frame.total)
            lastId := frame.fileid.toNat
            lastFrame := frame.nframe.toNat - 1 }

def written (frame : ComFrameFile) : List UInt8 :=
  if frame.type = tmTypeFileEnd ∨ (frame.type = tmTypeFilePart ∧ frame.nframe = frame.total) then
    trimmed fill frame.data
  else frame.data

def target (env : Environment) (frame : ComFrameFile) (rx : Receiver) : Option Path := do
  let fname ← rx.fname
  if rx.lastId ≠ frame.fileid.toNat ∨ rx.lastFrame ≠ frame.nframe.toNat - 1 then none
  else if env.opens fname then some fname
  else none

/-- Mode `wb` for a `PART` frame and `ab` for the others. -/
def writeFile (frame : ComFrameFile) (fname : Path) (rx : Receiver) : Receiver :=
  let old := if frame.type = tmTypeFilePart then [] else (rx.files fname).getD []
  { rx with lastId := frame.fileid.toNat
            lastFrame := frame.nframe.toNat
            files := Function.update rx.files fname (some (old ++ written frame)) }

def closeFile (frame : ComFrameFile) (rx : Receiver) : Receiver :=
  if frame.type = tmTypeFileEnd ∨ frame.type = tmTypeFilePart then
    { rx with fname := none, lastId := 0, lastFrame := 0 }
  else rx

def tmParseFile (env : Environment) (frame : ComFrameFile) (rx : Receiver) :
    Option (Int32 × Receiver) := do
  let rx ← if frame.type = tmTypeFileStart then startFile env frame rx else some rx
  let rx := if frame.type = tmTypeFilePart then startPart frame rx else rx
  if frame.type = tmTypeFileData ∨ frame.type = tmTypeFilePart ∨ frame.type = tmTypeFileEnd then
    match target env frame rx with
    | none => return (cmdError, rx)
    | some fname => return (cmdOk, closeFile frame (writeFile frame fname rx))
  else return (cmdOk, rx)

def comReceiveFile (csp : Csp) (frame : ComFrameFile) : Option ComFrameFile :=
  if tmTypeFileStart ≤ frame.type ∧ frame.type ≤ tmTypeFilePart then
    some { frame with nframe := csp.ntoh16 frame.nframe
                      total := csp.ntoh16 frame.total
                      fileid := csp.ntoh16 frame.fileid }
  else none

/-- A frame that arrives on the file port, with the result of the command it
    leads to. Other frame types lead to no command. -/
def receive (csp : Csp) (env : Environment) (rx : Receiver) (frame : ComFrameFile) :
    Option (Option Int32 × Receiver) :=
  match comReceiveFile csp frame with
  | none => some (none, rx)
  | some frame => (tmParseFile env frame rx).map fun (rc, rx) => (some rc, rx)

def deliver (csp : Csp) (env : Environment) (rx : Receiver) (frame : ComFrameFile) :
    Option Receiver :=
  (receive csp env rx frame).map Prod.snd

/-! What each frame of a transfer does. -/

section Frames
variable {csp : Csp} {env : Environment} {schCommNode : UInt8}

def hostOrder : Csp := ⟨id, id, fun _ => rfl⟩

theorem comReceiveFile_fileFrame (nframe fileParts : Int) {type : UInt8} (fileid : UInt16)
    (data : List UInt8) (known : tmTypeFileStart ≤ type ∧ type ≤ tmTypeFilePart) :
    comReceiveFile csp (fileFrame csp schCommNode nframe type fileid fileParts data) =
      some (fileFrame hostOrder schCommNode nframe type fileid fileParts data) := by
  simp [comReceiveFile, fileFrame, known, csp.ntoh16_hton16, hostOrder]

theorem padded_name (name : CString) (short : strlen name < comFrameMaxLen) :
    ∃ rest, padded comFrameMaxLen fill (name.chars ++ [0]) = name.chars ++ 0 :: rest := by
  have fits : (name.chars ++ [0]).length ≤ comFrameMaxLen := by
    simp only [List.length_append, List.length_singleton]
    exact short
  refine ⟨List.replicate (comFrameMaxLen - (name.chars ++ [0]).length) fill, ?_⟩
  simp [padded, List.take_of_length_le fits]

theorem receive_start (rx : Receiver) (name : CString) (short : strlen name < comFrameMaxLen)
    (fileid : UInt16) (fileParts : Int) :
    receive csp env rx
        (fileFrame csp schCommNode 0 tmTypeFileStart fileid fileParts (name.chars ++ [0])) =
      some (some cmdOk, { rx with fname := some (startPath env rx.files fileid name.chars)
                                  lastId := fileid.toNat
                                  lastFrame := 0 }) := by
  obtain ⟨rest, shape⟩ := padded_name name short
  have read : stringAt (padded comFrameMaxLen fill (name.chars ++ [0])) = some name := by
    rw [shape]
    exact stringAt_terminated name rest
  rw [receive, comReceiveFile_fileFrame _ _ _ _ (by decide)]
  simp [tmParseFile, fileFrame, startFile, read, tmTypeFileStart, tmTypeFilePart, tmTypeFileData,
    tmTypeFileEnd, hostOrder, UInt16.ofInt]

/-- A name of 192 characters or more leaves no terminator in its first frame. -/
theorem receive_start_long (rx : Receiver) (name : CString) (long : comFrameMaxLen ≤ strlen name)
    (fileid : UInt16) (fileParts : Int) :
    receive csp env rx (fileFrame csp schCommNode 0 tmTypeFileStart fileid fileParts
      (block comFrameMaxLen (name.chars ++ [0]) 0)) = none := by
  have text : block comFrameMaxLen (name.chars ++ [0]) 0 = name.chars.take comFrameMaxLen := by
    simp only [block, Nat.mul_zero, List.drop_zero]
    exact List.take_append_of_le_length long
  have full : (name.chars.take comFrameMaxLen).length = comFrameMaxLen := by
    rw [List.length_take]
    exact Nat.min_eq_left long
  have noNul : (0 : UInt8) ∉ padded comFrameMaxLen fill (name.chars.take comFrameMaxLen) := by
    rw [padded_of_length fill full]
    exact fun mem => name.noNul (List.mem_of_mem_take mem)
  rw [receive, comReceiveFile_fileFrame _ _ _ _ (by decide), text]
  simp [tmParseFile, fileFrame, startFile, stringAt, noNul]

theorem receive_body (rx : Receiver) (nframe fileParts : Int) {type : UInt8} (fileid : UInt16)
    (data : List UInt8) (body : type = tmTypeFileData ∨ type = tmTypeFileEnd) :
    let frame := fileFrame hostOrder schCommNode nframe type fileid fileParts data
    receive csp env rx (fileFrame csp schCommNode nframe type fileid fileParts data) =
      match target env frame rx with
      | none => some (some cmdError, rx)
      | some fname => some (some cmdOk, closeFile frame (writeFile frame fname rx)) := by
  have known : tmTypeFileStart ≤ type ∧ type ≤ tmTypeFilePart := by
    rcases body with rfl | rfl <;> decide
  have notStart : type ≠ tmTypeFileStart := by
    rcases body with rfl | rfl <;> decide
  have notPart : type ≠ tmTypeFilePart := by
    rcases body with rfl | rfl <;> decide
  have kind : (fileFrame hostOrder schCommNode nframe type fileid fileParts data).type = type := rfl
  simp only [receive, comReceiveFile_fileFrame _ _ _ _ known, tmParseFile, kind, notStart, notPart,
    false_or, body, ↓reduceIte, Option.bind_eq_bind, Option.bind_some]
  cases target env (fileFrame hostOrder schCommNode nframe type fileid fileParts data) rx <;> rfl

end Frames

end FileReceiver
