import SuchaiFlight.FileTransfer

/-!
Which transfers of `com_send_file` are complete. The `END` frame carries the
bytes after the last full frame, and `com_send_file_parts` without bytes sends
no frame and reports an error.
-/
namespace FileEnd
open CStrings StorageApi RepoCommand Blocks FileFrames FileReceiver FileTransfer

def label (csp : Csp) (frame : ComFrameFile) : UInt8 × Nat :=
  (frame.type, (csp.ntoh16 frame.nframe).toNat)

/-- A `START` frame, a `DATA` frame for each full block of `n` bytes and an
    `END` frame, with successive numbers. -/
def completeLabels (n : Nat) : List (UInt8 × Nat) :=
  (tmTypeFileStart, 0) ::
    (List.range (n / comFrameMaxLen)).map (fun i => (tmTypeFileData, i + 1)) ++
      [(tmTypeFileEnd, n / comFrameMaxLen + 1)]

def Complete (csp : Csp) (n : Nat) (result : Int32 × List ComFrameFile) : Prop :=
  result.1 = cmdOk ∧ result.2.map (label csp) = completeLabels n

variable {csp : Csp} {schCommNode : UInt8} {link : Link}

theorem label_fileFrame (k : Nat) (type : UInt8) (fileid : UInt16) (fileParts : Int)
    (data : List UInt8) :
    label csp (fileFrame csp schCommNode k type fileid fileParts data) = (type, k % 65536) := by
  simp only [label, fileFrame, csp.ntoh16_hton16, toNat_ofInt]

theorem labels_data (fileid : UInt16) {data : List UInt8}
    (few : data.length / comFrameMaxLen < 65535) :
    ((List.range (data.length / comFrameMaxLen)).map
        (bodyFrame csp schCommNode fileid data)).map (label csp) =
      (List.range (data.length / comFrameMaxLen)).map fun i => (tmTypeFileData, i + 1) := by
  rw [List.map_map]
  apply List.map_congr_left
  intro i mem
  have full : i < data.length / comFrameMaxLen := List.mem_range.mp mem
  have small : (i + 1) % 65536 = i + 1 := Nat.mod_eq_of_lt (by omega)
  simp only [Function.comp, bodyFrame, label_fileFrame, full, ↓reduceIte, small]

theorem bodyFrames_eq (fileid : UInt16) (data : List UInt8) :
    bodyFrames csp schCommNode fileid data =
      (List.range (data.length / comFrameMaxLen)).map (bodyFrame csp schCommNode fileid data) ++
        if data.length % comFrameMaxLen = 0 then []
        else [bodyFrame csp schCommNode fileid data (data.length / comFrameMaxLen)] := by
  unfold bodyFrames blockCount
  by_cases full : data.length % comFrameMaxLen = 0
  · simp [full]
  · simp [full, List.range_succ]

theorem label_endFrame (fileid : UInt16) {data : List UInt8}
    (few : data.length / comFrameMaxLen < 65535) :
    label csp (bodyFrame csp schCommNode fileid data (data.length / comFrameMaxLen)) =
      (tmTypeFileEnd, data.length / comFrameMaxLen + 1) := by
  have small : (data.length / comFrameMaxLen + 1) % 65536 = data.length / comFrameMaxLen + 1 :=
    Nat.mod_eq_of_lt (by omega)
  have last : ¬ data.length / comFrameMaxLen < data.length / comFrameMaxLen := Nat.lt_irrefl _
  simp only [bodyFrame, label_fileFrame, last, ↓reduceIte, small]

theorem labels_transferFrames {name : CString} (short : strlen name < comFrameMaxLen)
    (fileid : UInt16) {data : List UInt8} (few : data.length / comFrameMaxLen < 65535) :
    (transferFrames csp schCommNode fileid name data).map (label csp) =
      (tmTypeFileStart, 0) ::
        (List.range (data.length / comFrameMaxLen)).map (fun i => (tmTypeFileData, i + 1)) ++
          if data.length % comFrameMaxLen = 0 then []
          else [(tmTypeFileEnd, data.length / comFrameMaxLen + 1)] := by
  have start : label csp (fileFrame csp schCommNode (0 : Nat) tmTypeFileStart fileid
      (data.length / comFrameMaxLen + 1 : Nat) (name.chars ++ [0])) = (tmTypeFileStart, 0) :=
    label_fileFrame 0 tmTypeFileStart fileid _ _
  simp only [transferFrames, startFrames_short short, bodyFrames_eq, List.map_append,
    labels_data fileid few, List.map_singleton]
  by_cases full : data.length % comFrameMaxLen = 0
  · simpa [full] using start
  · simpa [full, label_endFrame fileid few] using start

/-- The last call of `com_send_file_parts` decides the return code. -/
theorem comSendFile_rc (up : link.Up) (name : CString) (fileid : UInt16) {data : List UInt8}
    (small : data.length / comFrameMaxLen * comFrameMaxLen < 2147483648) :
    comSendFile csp schCommNode link name data fileid =
      some (if data.length % comFrameMaxLen = 0 then cmdError else cmdOk,
        transferFrames csp schCommNode fileid name data) := by
  obtain ⟨rc, sent⟩ : ∃ rc, comSendFile csp schCommNode link name data fileid =
    some (rc, transferFrames csp schCommNode fileid name data) := comSendFile_up up name fileid small
  have fits : ¬ 2147483648 ≤ data.length / comFrameMaxLen * comFrameMaxLen := by omega
  have started : name.chars ++ [0] ≠ [] := by simp
  have left : data.drop (data.length / comFrameMaxLen * comFrameMaxLen) = [] ↔
      data.length % comFrameMaxLen = 0 := by
    rw [List.drop_eq_nil_iff, Nat.mod_eq_sub_div_mul]
    omega
  have code : (comSendFile csp schCommNode link name data fileid).map Prod.fst =
      some (if data.length % comFrameMaxLen = 0 then cmdError else cmdOk) := by
    by_cases blocks : data.length / comFrameMaxLen * comFrameMaxLen > 0
    · have taken : data.take (data.length / comFrameMaxLen * comFrameMaxLen) ≠ [] := by
        intro none
        have length := congrArg List.length none
        rw [List.length_take, Nat.min_eq_left (Nat.div_mul_le_self _ _), List.length_nil] at length
        omega
      simp only [comSendFile, fits, up.connects, up.closes, comSendFileParts_up up, started, blocks,
        taken, left, ↓reduceIte]
      by_cases full : data.length % comFrameMaxLen = 0 <;> simp [full, cmdOk, cmdError]
    · simp only [comSendFile, fits, up.connects, up.closes, comSendFileParts_up up, started, blocks,
        left, ↓reduceIte]
      by_cases full : data.length % comFrameMaxLen = 0 <;> simp [full, cmdOk, cmdError]
  rw [sent, Option.map_some, Option.some.injEq] at code
  rw [sent, ← code]

theorem comSendFile_labels (csp : Csp) (schCommNode : UInt8) (up : link.Up) {name : CString}
    (short : strlen name < comFrameMaxLen) (fileid : UInt16) {data : List UInt8}
    (few : data.length / comFrameMaxLen < 65535) :
    ∃ result, comSendFile csp schCommNode link name data fileid = some result ∧
      result.1 = (if data.length % comFrameMaxLen = 0 then cmdError else cmdOk) ∧
      result.2.map (label csp) = (tmTypeFileStart, 0) ::
        (List.range (data.length / comFrameMaxLen)).map (fun i => (tmTypeFileData, i + 1)) ++
          if data.length % comFrameMaxLen = 0 then []
          else [(tmTypeFileEnd, data.length / comFrameMaxLen + 1)] := by
  have small : data.length / comFrameMaxLen * comFrameMaxLen < 2147483648 := by
    unfold comFrameMaxLen at *
    omega
  exact ⟨_, comSendFile_rc up name fileid small, rfl, labels_transferFrames short fileid few⟩

theorem full_frames_not_ended (up : link.Up) {name : CString}
    (short : strlen name < comFrameMaxLen) (fileid : UInt16) {data : List UInt8}
    (few : data.length / comFrameMaxLen < 65535) (full : data.length % comFrameMaxLen = 0) :
    ∃ result, comSendFile csp schCommNode link name data fileid = some result ∧
      result.1 = cmdError ∧
      result.2.map (label csp) = (tmTypeFileStart, 0) ::
        (List.range (data.length / comFrameMaxLen)).map (fun i => (tmTypeFileData, i + 1)) := by
  obtain ⟨result, sent, rc, labels⟩ := comSendFile_labels csp schCommNode up short fileid few
  rw [if_pos full] at rc labels
  rw [List.append_nil] at labels
  exact ⟨result, sent, rc, labels⟩

theorem ended_of_tail (up : link.Up) {name : CString} (short : strlen name < comFrameMaxLen)
    (fileid : UInt16) {data : List UInt8} (few : data.length / comFrameMaxLen < 65535)
    (tail : data.length % comFrameMaxLen ≠ 0) :
    ∃ result, comSendFile csp schCommNode link name data fileid = some result ∧
      Complete csp data.length result := by
  obtain ⟨result, sent, rc, labels⟩ := comSendFile_labels csp schCommNode up short fileid few
  rw [if_neg tail] at rc labels
  exact ⟨result, sent, rc, labels⟩

/-- With every call successful a transfer is complete, that is reported as
    sent with its `END` frame, exactly when bytes are left after the full
    frames. -/
theorem transfer_complete_iff (csp : Csp) (schCommNode : UInt8) (up : link.Up) (name : CString)
    (short : strlen name ≤ 191) (fileid : UInt16) (data : List UInt8)
    (few : blockCount comFrameMaxLen data.length < 65535) :
    ∃ result, comSendFile csp schCommNode link name data fileid = some result ∧
      (Complete csp data.length result ↔ data.length % 192 ≠ 0) := by
  have named : strlen name < comFrameMaxLen := Nat.lt_succ_of_le short
  have blocks : data.length / comFrameMaxLen < 65535 :=
    Nat.lt_of_le_of_lt (Nat.le_add_right _ _) few
  by_cases full : data.length % comFrameMaxLen = 0
  · obtain ⟨result, sent, refused, -⟩ := full_frames_not_ended up named fileid blocks full
    have incomplete : ¬ Complete csp data.length result := by
      intro complete
      exact absurd (refused.symm.trans complete.1) (by decide)
    exact ⟨result, sent, fun complete => absurd complete incomplete, fun tail => absurd full tail⟩
  · obtain ⟨result, sent, complete⟩ := ended_of_tail up named fileid blocks full
    exact ⟨result, sent, fun _ => full, fun _ => complete⟩

theorem three_bytes_complete_iff :
    ∃ result, comSendFile hostOrder 1 plainLink nameA [1, 2, 3] 7 = some result ∧
      (Complete hostOrder 3 result ↔ 3 % 192 ≠ 0) :=
  transfer_complete_iff hostOrder 1 plainLink_up nameA (by decide) 7 [1, 2, 3] (by decide)

theorem full_frame_not_ended :
    (∃ result, comSendFile hostOrder 1 plainLink nameA (List.replicate 192 1) 7 = some result ∧
      result.2.map (label hostOrder) = [(tmTypeFileStart, 0), (tmTypeFileData, 1)] ∧
      ¬ Complete hostOrder 192 result) ∧
    ∃ result, comSendFile hostOrder 1 plainLink nameA [] 7 = some result ∧
      result.2.map (label hostOrder) = [(tmTypeFileStart, 0)] ∧
      ¬ Complete hostOrder 0 result := by
  have refused : cmdError ≠ cmdOk := by decide
  have length : (List.replicate 192 (1 : UInt8)).length = 192 := List.length_replicate
  constructor
  · have few : (List.replicate 192 (1 : UInt8)).length / comFrameMaxLen < 65535 := by
      rw [length]
      decide
    have full : (List.replicate 192 (1 : UInt8)).length % comFrameMaxLen = 0 := by
      rw [length]
      decide
    obtain ⟨result, sent, code, labels⟩ :
        ∃ result, comSendFile hostOrder 1 plainLink nameA (List.replicate 192 1) 7 = some result ∧
          result.1 = cmdError ∧ _ := full_frames_not_ended plainLink_up (by decide) 7 few full
    rw [length] at labels
    exact ⟨result, sent, labels, fun complete => refused (code.symm.trans complete.1)⟩
  · obtain ⟨result, sent, code, labels⟩ :
        ∃ result, comSendFile hostOrder 1 plainLink nameA [] 7 = some result ∧
          result.1 = cmdError ∧ _ :=
      full_frames_not_ended plainLink_up (by decide) 7 (by decide) (by decide)
    exact ⟨result, sent, labels, fun complete => refused (code.symm.trans complete.1)⟩

end FileEnd
