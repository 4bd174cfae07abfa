import SuchaiFlight.MergeReport
import SuchaiFlight.PartRequests
import SuchaiFlight.Library.LossyChannel
import Mathlib.Data.List.Dedup
import Mathlib.Data.List.Sort

/-!
Files fetched part by part. The ground requests parts with `tm_send_file_parts`,
the frames that answer are lost, repeated and reordered on the way, and
`tm_merge_file` reports what is missing and joins what has come.
-/
namespace PartExchange
open CStrings StorageApi RepoCommand Blocks Runs DecimalText TextScan FileFrames FileReceiver
open FileTransfer FileParts PartNames LossyChannel
open MergeReport (Warning Part Before Rising nameOf frameOf totalOf missingFrames)
open PartRequests (number OwnPart InRange Answered partsBetween)

structure PartRequest where
  link : Link
  heap : Bool
  fileId : Int32
  startFrame : Int32
  endFrame : Int32

/-- The requests of which every answer has the numbers of its parts. -/
structure PartRequest.Forward (request : PartRequest) : Prop where
  range : InRange request.startFrame request.endFrame
  start : 0 ≤ request.startFrame.toInt

section
variable (csp : Csp) (env : Environment) (schCommNode : UInt8)
  (stored : UInt16 → List UInt8)

/-- The file that the ground fetches under an id stays as it is. -/
def PartRequest.content (request : PartRequest) : List UInt8 :=
  stored (UInt16.ofInt request.fileId.toInt)

def answerParts (request : PartRequest) : Option (List ComFrameFile) :=
  (tmSendFileParts csp schCommNode request.link request.heap (some (request.content stored))
    request.fileId request.startFrame request.endFrame).map Prod.snd

def exchange : Session Receiver ComFrameFile → Event PartRequest →
    Option (Session Receiver ComFrameFile) :=
  step (answerParts csp schCommNode stored) (deliver csp env)

end

/-! The directory `recv_files`. -/

abbrev PartFile := UInt16 × Part

def dName (name : PartFile) : CString := nameOf name.1 name.2

def pathIn (name : PartFile) : Path := MergeReport.pathOf name.1 name.2

def Ahead (a b : PartFile) : Prop := a.1 < b.1 ∨ a.1 = b.1 ∧ Before a.2 b.2

instance : DecidableRel Ahead := fun _ _ => inferInstanceAs (Decidable (_ ∨ _))

structure Scanned (files : Path → Option (List UInt8)) (names : List PartFile) : Prop where
  sorted : names.Pairwise Ahead
  mem_iff : ∀ name, name ∈ names ↔ (files (pathIn name)).isSome

/-- The warnings, and the bytes that `cat` joins. Without a name to read from,
    `cat` waits for its input. -/
def tmMergeFile (files : Path → Option (List UInt8)) (names : List PartFile) (fileId : Int32) :
    Option (List Warning × List UInt8) := do
  let warnings ← missingFrames ((names.map dName).filter (filterFilePartName fileId))
  let found := names.filter fun name => fnmatch (findPattern fileId) (dName name).chars
  if found = [] then none
  else return (warnings, found.flatMap fun name => (files (pathIn name)).getD [])

/-! The frames that answer a request. -/

section Answers
variable {csp : Csp} {schCommNode : UInt8} {link : Link} {type : UInt8} {fileid : UInt16}
  {fileParts : Int} {data : List UInt8}

theorem sendLoop_prefix (passes sent : Nat) (startPart : Int) (data : List UInt8) (rcSend : Bool) :
    (sendLoop csp schCommNode link type fileid fileParts passes sent startPart data rcSend).2 <+:
      blockFrames csp schCommNode type fileid startPart fileParts data := by
  induction passes generalizing sent startPart data rcSend with
  | zero => exact List.nil_prefix
  | succ passes ih =>
    rw [sendLoop]
    by_cases none : data = []
    · rw [if_pos none]
      exact List.nil_prefix
    · rw [if_neg none, blockFrames_step type fileid startPart fileParts none]
      split
      · exact List.nil_prefix
      · split
        · exact List.nil_prefix
        · exact List.cons_prefix_cons.mpr ⟨rfl, ih _ _ _ _⟩

theorem comSendFileParts_prefix (startPart : Int) (connPrev : Bool) (sent : Nat)
    (data : List UInt8) :
    (comSendFileParts csp schCommNode link data fileid startPart fileParts type connPrev sent).2 <+:
      blockFrames csp schCommNode type fileid startPart fileParts data := by
  rw [comSendFileParts]
  split
  · exact List.nil_prefix
  · exact sendLoop_prefix data.length sent startPart data false

theorem tmSendFileParts_prefix (link : Link) (heap : Bool) {up : Link} (good : up.Up)
    {fileId startFrame endFrame rc : Int32} {frames : List ComFrameFile}
    (sent : tmSendFileParts csp schCommNode up true (some data) fileId startFrame endFrame =
      some (rc, frames)) :
    ∃ rc' frames', tmSendFileParts csp schCommNode link heap (some data) fileId startFrame
        endFrame = some (rc', frames') ∧ frames' <+: frames := by
  simp only [tmSendFileParts, Bool.not_true, Bool.false_or, decide_eq_true_eq,
    comSendFileParts_up good] at sent ⊢
  generalize (if endFrame < 0 then data.length
    else if data.length < sizeT ((Int32.ofInt (startFrame.toInt * comFrameMaxLen)).toInt +
        sizeT ((endFrame - startFrame).toInt * comFrameMaxLen)) then
      sizeT (data.length - (Int32.ofInt (startFrame.toInt * comFrameMaxLen)).toInt)
    else sizeT ((endFrame - startFrame).toInt * comFrameMaxLen)) = readBytes at sent ⊢
  split at sent
  · rename_i outside
    rw [if_pos outside]
    exact ⟨_, _, rfl, List.nil_prefix⟩
  · rename_i inside
    rw [if_neg inside]
    split at sent
    · rename_i large
      rw [if_pos (by simp [large])]
      exact ⟨_, _, rfl, List.nil_prefix⟩
    · rename_i small
      split at sent
      · cases sent
      · obtain ⟨rfl, rfl⟩ := Prod.mk.inj (Option.some.inj sent)
        split
        · exact ⟨_, _, rfl, List.nil_prefix⟩
        · exact ⟨_, _, rfl, comSendFileParts_prefix _ false 0 _⟩

theorem tmSendFileParts_shape {heap : Bool} {fileId startFrame endFrame rc : Int32}
    {frames : List ComFrameFile}
    (sent : tmSendFileParts csp schCommNode link heap (some data) fileId startFrame endFrame =
      some (rc, frames)) :
    ∃ first parts bytes, frames <+: blockFrames csp schCommNode tmTypeFilePart
      (UInt16.ofInt fileId.toInt) first parts bytes := by
  simp only [tmSendFileParts] at sent
  generalize (if endFrame < 0 then data.length
    else if data.length < sizeT ((Int32.ofInt (startFrame.toInt * comFrameMaxLen)).toInt +
        sizeT ((endFrame - startFrame).toInt * comFrameMaxLen)) then
      sizeT (data.length - (Int32.ofInt (startFrame.toInt * comFrameMaxLen)).toInt)
    else sizeT ((endFrame - startFrame).toInt * comFrameMaxLen)) = readBytes at sent
  have empty : ([] : List ComFrameFile) <+: blockFrames csp schCommNode tmTypeFilePart
      (UInt16.ofInt fileId.toInt) 0 0 [] := List.nil_prefix
  split at sent
  · obtain ⟨rfl, rfl⟩ := Prod.mk.inj (Option.some.inj sent)
    exact ⟨_, _, _, empty⟩
  · split at sent
    · obtain ⟨rfl, rfl⟩ := Prod.mk.inj (Option.some.inj sent)
      exact ⟨_, _, _, empty⟩
    · split at sent
      · cases sent
      · obtain ⟨rfl, rfl⟩ := Prod.mk.inj (Option.some.inj sent)
        exact ⟨_, _, _, comSendFileParts_prefix _ false 0 _⟩

theorem partFrame_of_own {nframe : Int} {bytes : List UInt8}
    (own : OwnPart csp data (fileFrame csp schCommNode nframe tmTypeFilePart fileid fileParts bytes)) :
    fileFrame csp schCommNode nframe tmTypeFilePart fileid fileParts bytes =
      partFrame csp schCommNode fileid data
        (number csp (fileFrame csp schCommNode nframe tmTypeFilePart fileid fileParts bytes)) := by
  have numbered : number csp (fileFrame csp schCommNode nframe tmTypeFilePart fileid fileParts
      bytes) = (UInt16.ofInt nframe).toNat := by
    rw [number, fileFrame, csp.ntoh16_hton16]
  have total := own.total
  have content := own.bytes
  rw [numbered] at content ⊢
  simp only [fileFrame, csp.ntoh16_hton16] at total content
  have parts : UInt16.ofInt fileParts =
      UInt16.ofInt ((blockCount comFrameMaxLen data.length - 1 : Nat) : Int) := by
    rw [ofInt_eq_ofNat, ← total, UInt16.ofNat_toNat]
  simp only [partFrame, fileFrame, ofInt_eq_ofNat, UInt16.ofNat_toNat, parts, content]

end Answers

section Requests
variable {csp : Csp} {schCommNode : UInt8} {stored : UInt16 → List UInt8}
  {request : PartRequest}

def parts (stored : UInt16 → List UInt8) (fileid : UInt16) : Nat :=
  blockCount comFrameMaxLen (stored fileid).length

def frameOfPart (csp : Csp) (schCommNode : UInt8) (stored : UInt16 → List UInt8)
    (fileid : UInt16) (k : Nat) : ComFrameFile :=
  partFrame csp schCommNode fileid (stored fileid) k

def Genuine (csp : Csp) (schCommNode : UInt8) (stored : UInt16 → List UInt8)
    (frame : ComFrameFile) : Prop :=
  ∃ fileid, ∃ k < parts stored fileid, frame = frameOfPart csp schCommNode stored fileid k

def Small (stored : UInt16 → List UInt8) : Prop :=
  ∀ fileid, (stored fileid).length < 65536 * 192

theorem Small.parts_le (small : Small stored) (fileid : UInt16) : parts stored fileid ≤ 65536 := by
  by_contra more
  have inside := (lt_blockCount_iff (show 0 < comFrameMaxLen by decide)).mp (Nat.lt_of_not_le more)
  have := small fileid
  unfold comFrameMaxLen at inside
  omega

theorem answerParts_genuine (csp : Csp) (schCommNode : UInt8) (small : Small stored) (forward : request.Forward) :
    ∃ frames, answerParts csp schCommNode stored request = some frames ∧
      ∀ frame ∈ frames, Genuine csp schCommNode stored frame := by
  have answered : PartRequests.Answered csp (request.content stored) request.startFrame.toInt
      request.endFrame.toInt (tmSendFileParts csp schCommNode plainLink true
        (some (request.content stored)) request.fileId request.startFrame request.endFrame) :=
    PartRequests.answered_of_nonneg plainLink_up (small _) forward.range forward.start
  obtain ⟨rc, whole, sent, own, -⟩ := answered
  obtain ⟨rc', frames, sent', cut⟩ :=
    tmSendFileParts_prefix request.link request.heap plainLink_up sent
  obtain ⟨first, total, bytes, shape⟩ := tmSendFileParts_shape sent'
  refine ⟨frames, by rw [answerParts, sent', Option.map_some], ?_⟩
  intro frame mem
  have owned := own frame (cut.subset mem)
  obtain ⟨i, -, rfl⟩ := List.mem_map.mp (shape.subset mem)
  exact ⟨_, _, owned.inFile, partFrame_of_own owned⟩

def again (link : Link) (fileId : Int32) (k : Int) : PartRequest :=
  ⟨link, true, fileId, Int32.ofInt k, Int32.ofInt (k + 1)⟩

theorem again_values {k : Nat} (small : k < 65536) :
    (Int32.ofInt (k : Int)).toInt = k ∧ (Int32.ofInt ((k : Int) + 1)).toInt = k + 1 :=
  ⟨Int32.toInt_ofInt_of_le (by omega) (by omega), Int32.toInt_ofInt_of_le (by omega) (by omega)⟩

theorem again_forward (link : Link) (fileId : Int32) {k : Nat} (small : k < 65536) :
    (again link fileId k).Forward := by
  obtain ⟨start, stop⟩ := again_values small
  refine ⟨⟨?_, ?_, ?_, ?_⟩, ?_⟩
  all_goals
    simp only [again, start, stop]
    omega

theorem partsBetween_one {data : List UInt8} {k : Nat}
    (inFile : k < blockCount comFrameMaxLen data.length) : partsBetween data k (k + 1) = [k] := by
  have one := PartRequests.filter_range (fun j : Nat => (k : Int) ≤ j ∧ (j : Int) < k + 1)
    (show k + 1 ≤ blockCount comFrameMaxLen data.length from inFile)
    (fun j _ => by omega)
  simpa [partsBetween] using one

theorem answerParts_again (small : Small stored) {link : Link} (up : link.Up) {fileId : Int32}
    {fileid : UInt16} (own : fileId.toInt = fileid.toNat) {k : Nat}
    (inFile : k < parts stored fileid) :
    answerParts csp schCommNode stored (again link fileId k) =
      some [frameOfPart csp schCommNode stored fileid k] := by
  have id_eq : UInt16.ofInt fileId.toInt = fileid := by
    rw [own, ofInt_eq_ofNat, UInt16.ofNat_toNat]
  have few := small.parts_le fileid
  obtain ⟨start, stop⟩ := again_values (show k < 65536 by omega)
  have forward := again_forward link fileId (show k < 65536 by omega)
  have answered : PartRequests.Answered csp (stored fileid) (Int32.ofInt (k : Int)).toInt
      (Int32.ofInt ((k : Int) + 1)).toInt (tmSendFileParts csp schCommNode link true
        (some (stored fileid)) fileId (Int32.ofInt k) (Int32.ofInt (k + 1))) :=
    PartRequests.answered_of_nonneg up (small fileid) forward.range forward.start
  obtain ⟨rc, frames, sent, owned, numbers⟩ := answered
  have numbers := numbers forward.start (by simp only [start, stop]; omega)
  simp only [start, stop, partsBetween_one inFile] at numbers
  obtain ⟨frame, rfl, number_eq⟩ := List.map_eq_singleton_iff.mp numbers
  obtain ⟨first, total, bytes, shape⟩ := tmSendFileParts_shape sent
  have mine := owned frame List.mem_cons_self
  obtain ⟨i, -, rfl⟩ := List.mem_map.mp (shape.subset List.mem_cons_self)
  have same := partFrame_of_own mine
  rw [number_eq, id_eq] at same
  rw [answerParts, PartRequest.content, again, id_eq]
  rw [sent, Option.map_some, id_eq, same]
  rfl

end Requests

/-! What the receiver keeps. -/

section Receiver
variable {csp : Csp} {env : Environment} {schCommNode : UInt8} {stored : UInt16 → List UInt8}
  {heard : List ComFrameFile} {rx rx' : Receiver} {fileid : UInt16} {k : Nat}

def Opens (env : Environment) (stored : UInt16 → List UInt8) : Prop :=
  ∀ fileid, ∀ k < parts stored fileid, env.opens (FileParts.pathOf fileid (stored fileid) k)

def nameOfPart (stored : UInt16 → List UInt8) (fileid : UInt16) (k : Nat) : PartFile :=
  (fileid, UInt16.ofNat k, UInt16.ofNat (parts stored fileid - 1))

theorem pathIn_nameOfPart (fileid : UInt16) (k : Nat) :
    pathIn (nameOfPart stored fileid k) = FileParts.pathOf fileid (stored fileid) k := rfl

theorem pathIn_injective {a b : PartFile} (same : pathIn a = pathIn b) : a = b := by
  obtain ⟨id_eq, frame_eq, total_eq⟩ := partPath_injective same
  exact Prod.ext id_eq (Prod.ext frame_eq total_eq)

theorem nameOfPart_injective {other : UInt16} {j : Nat} (small_k : k < 65536) (small_j : j < 65536)
    (same : nameOfPart stored fileid k = nameOfPart stored other j) : fileid = other ∧ k = j := by
  obtain ⟨rfl, frames⟩ := Prod.mk.inj same
  have number := congrArg UInt16.toNat (Prod.mk.inj frames).1
  rw [toNat_ofNat small_k, toNat_ofNat small_j] at number
  exact ⟨rfl, number⟩

theorem frameOfPart_injective {other : UInt16} {j : Nat} (small_k : k < 65536)
    (small_j : j < 65536) (same : frameOfPart csp schCommNode stored fileid k =
      frameOfPart csp schCommNode stored other j) : fileid = other ∧ k = j := by
  have ids := congrArg (fun frame => csp.ntoh16 frame.fileid) same
  simp only [frameOfPart, partFrame, fileFrame, csp.ntoh16_hton16] at ids
  subst ids
  exact ⟨rfl, partFrame_injective small_k small_j same⟩

/-- The directory holds the parts that were heard, and nothing else. -/
structure Collected (csp : Csp) (schCommNode : UInt8) (stored : UInt16 → List UInt8)
    (heard : List ComFrameFile) (rx : Receiver) : Prop where
  content : ∀ fileid, ∀ k < parts stored fileid, rx.files (pathIn (nameOfPart stored fileid k)) =
    if frameOfPart csp schCommNode stored fileid k ∈ heard then
      some (partContent (stored fileid) k)
    else none
  only : ∀ name, (rx.files (pathIn name)).isSome →
    ∃ fileid, ∃ k < parts stored fileid, name = nameOfPart stored fileid k

@[simp] theorem files_initial (files : Path → Option (List UInt8)) :
    (initial files).files = files := rfl

theorem collected_empty : Collected csp schCommNode stored [] (initial fun _ => none) :=
  ⟨fun _ _ _ => rfl, fun _ held => absurd held (by simp [initial])⟩

theorem Collected.deliver (collected : Collected csp schCommNode stored heard rx)
    (small : Small stored) (opens : Opens env stored) (inFile : k < parts stored fileid) :
    ∃ rx', FileReceiver.deliver csp env rx (frameOfPart csp schCommNode stored fileid k) =
        some rx' ∧
      Collected csp schCommNode stored
        (heard ++ [frameOfPart csp schCommNode stored fileid k]) rx' := by
  have few := small.parts_le
  refine ⟨_, deliver_part rx (few fileid) inFile (opens fileid k inFile), ?_, ?_⟩
  · intro other j bound
    have small_j := Nat.lt_of_lt_of_le bound (few other)
    have small_k := Nat.lt_of_lt_of_le inFile (few fileid)
    simp only [files_initial, ← pathIn_nameOfPart, Function.update_apply, List.mem_append,
      List.mem_singleton]
    by_cases here : pathIn (nameOfPart stored other j) = pathIn (nameOfPart stored fileid k)
    · obtain ⟨rfl, rfl⟩ := nameOfPart_injective small_j small_k (pathIn_injective here)
      rw [if_pos rfl, if_pos (.inr rfl)]
    · have apart : frameOfPart csp schCommNode stored other j ≠
          frameOfPart csp schCommNode stored fileid k := fun same => by
        obtain ⟨rfl, rfl⟩ := frameOfPart_injective small_j small_k same
        exact here rfl
      rw [if_neg here, collected.content other j bound]
      simp only [apart, or_false]
  · intro name held
    rw [files_initial, ← pathIn_nameOfPart, Function.update_apply] at held
    by_cases here : pathIn name = pathIn (nameOfPart stored fileid k)
    · exact ⟨fileid, k, inFile, pathIn_injective here⟩
    · rw [if_neg here] at held
      exact collected.only name held

theorem Collected.receive (collected : Collected csp schCommNode stored heard rx)
    (small : Small stored) (opens : Opens env stored) {frame : ComFrameFile}
    (genuine : Genuine csp schCommNode stored frame) :
    ∃ rx', FileReceiver.deliver csp env rx frame = some rx' ∧
      Collected csp schCommNode stored (heard ++ [frame]) rx' := by
  obtain ⟨fileid, k, inFile, rfl⟩ := genuine
  exact collected.deliver small opens inFile

theorem Collected.run (collected : Collected csp schCommNode stored heard rx)
    (small : Small stored) (opens : Opens env stored) {frames : List ComFrameFile}
    (genuine : ∀ frame ∈ frames, Genuine csp schCommNode stored frame)
    (reached : Runs.run (FileReceiver.deliver csp env) rx frames = some rx') :
    Collected csp schCommNode stored (heard ++ frames) rx' := by
  induction frames generalizing heard rx with
  | nil =>
    cases reached
    rwa [List.append_nil]
  | cons frame rest ih =>
    rw [List.forall_mem_cons] at genuine
    obtain ⟨next, first, later⟩ := Option.bind_eq_some_iff.mp reached
    obtain ⟨next', first', kept⟩ := collected.receive small opens genuine.1
    obtain rfl := Option.some.inj (first.symm.trans first')
    rw [List.append_cons]
    exact ih kept genuine.2 later

end Receiver

/-! The sorted directory. -/

section Directory
variable {files : Path → Option (List UInt8)} {names : List PartFile} {fileid : UInt16}
  {fileId : Int32}

def key (name : PartFile) : Nat :=
  (name.1.toNat * 65536 + name.2.1.toNat) * 65536 + name.2.2.toNat

theorem ahead_iff (a b : PartFile) : Ahead a b ↔ key a < key b := by
  obtain ⟨id, frame, total⟩ := a
  obtain ⟨id', frame', total'⟩ := b
  have := frame.toNat_lt
  have := total.toNat_lt
  have := frame'.toNat_lt
  have := total'.toNat_lt
  simp only [Ahead, Before, key, UInt16.lt_iff_toNat_lt, ← UInt16.toNat_inj]
  omega

theorem key_injective : Function.Injective key := by
  rintro ⟨id, frame, total⟩ ⟨id', frame', total'⟩ same
  have := frame.toNat_lt
  have := total.toNat_lt
  have := frame'.toNat_lt
  have := total'.toNat_lt
  simp only [key] at same
  simp only [Prod.mk.injEq, ← UInt16.toNat_inj]
  omega

instance : Std.Irrefl Ahead := ⟨fun a ahead => Nat.lt_irrefl _ ((ahead_iff a a).mp ahead)⟩

instance : Std.Antisymm Ahead :=
  ⟨fun a b one two => absurd ((ahead_iff a b).mp one) (Nat.lt_asymm ((ahead_iff b a).mp two))⟩

theorem sorted_names (l : List PartFile) :
    ∃ names : List PartFile, names.Pairwise Ahead ∧ ∀ name, name ∈ names ↔ name ∈ l := by
  refine ⟨l.dedup.mergeSort fun a b => key a ≤ key b, ?_, fun name => by simp⟩
  have ordered : (l.dedup.mergeSort fun a b => decide (key a ≤ key b)).Pairwise
      fun a b => decide (key a ≤ key b) :=
    List.pairwise_mergeSort (fun a b c => by simpa using Nat.le_trans)
      (fun a b => by simpa using Nat.le_total _ _) l.dedup
  have apart := (List.mergeSort_perm l.dedup fun a b => decide (key a ≤ key b)).nodup_iff.mpr
    l.nodup_dedup
  refine (ordered.and apart).imp fun {a b} ⟨le, ne⟩ => (ahead_iff a b).mpr ?_
  exact Nat.lt_of_le_of_ne (by simpa using le) fun same => ne (key_injective same)

theorem findPattern_own (own : fileId.toInt = fileid.toNat) (name : PartFile)
    (seen : fnmatch (findPattern fileId) (dName name).chars) : name.1 = fileid := by
  have plain : asterisk ∉ decimal fileid.toNat ++ [underscore] := by
    rw [List.mem_append, List.mem_singleton, not_or]
    exact ⟨star_not_mem_decimal _, by decide⟩
  rw [findPattern_eq own, fnmatch_between plain (by decide)] at seen
  obtain ⟨middle, text⟩ := seen
  have digits := congrArg (List.takeWhile digit) text
  have front : (dName name).chars = decimal name.1.toNat ++ underscore ::
      (decimal name.2.1.toNat ++ (underscore :: (decimal name.2.2.toNat ++
        (tailText (19 - strlen (PartNames.numbers name.1 name.2.1 name.2.2))).chars))) := by
    simp [dName, nameOf, partName, PartNames.numbers, underscoreText, oneChar, digitsText]
  rw [front, takeWhile_decimal _ (by decide), List.append_assoc, List.singleton_append,
    takeWhile_decimal _ (by decide)] at digits
  exact UInt16.toNat_inj.mp (decimal_injective digits)

def own (fileid : UInt16) (names : List PartFile) : List PartFile :=
  names.filter (·.1 = fileid)

theorem filter_scandir (same : fileId.toInt = fileid.toNat) :
    (names.map dName).filter (filterFilePartName fileId) = (own fileid names).map dName := by
  rw [List.filter_map, own]
  congr 1
  apply List.filter_congr
  intro name _
  rw [Function.comp_apply, Bool.eq_iff_iff, dName, nameOf, filterFilePartName_iff, same,
    decide_eq_true_eq, Nat.cast_inj, UInt16.toNat_inj]
  exact eq_comm

theorem filter_find (same : fileId.toInt = fileid.toNat)
    (short : ∀ name ∈ names, name.1 = fileid → ShortNumbers fileid name.2.1 name.2.2) :
    names.filter (fun name => fnmatch (findPattern fileId) (dName name).chars) =
      own fileid names := by
  apply List.filter_congr
  intro name mem
  rw [Bool.eq_iff_iff, decide_eq_true_eq]
  refine ⟨findPattern_own same name, fun mine => ?_⟩
  subst mine
  exact (findPattern_iff name.2.1 name.2.2 same).mpr (short name mem rfl)

end Directory

/-! The merge of what has come. -/

section Merge
variable {csp : Csp} {schCommNode : UInt8} {stored : UInt16 → List UInt8}
  {heard : List ComFrameFile} {rx : Receiver} {names : List PartFile} {fileid : UInt16}
  {fileId : Int32} {numbers : List Nat}

def arrived (csp : Csp) (schCommNode : UInt8) (stored : UInt16 → List UInt8)
    (heard : List ComFrameFile) (fileid : UInt16) : List Nat :=
  (List.range (parts stored fileid)).filter fun k =>
    frameOfPart csp schCommNode stored fileid k ∈ heard

theorem mem_arrived {k : Nat} : k ∈ arrived csp schCommNode stored heard fileid ↔
    k < parts stored fileid ∧ frameOfPart csp schCommNode stored fileid k ∈ heard := by
  simp [arrived]

theorem nameOfPart_ahead {j k : Nat} (less : j < k) (small : k < 65536) :
    Ahead (nameOfPart stored fileid j) (nameOfPart stored fileid k) := by
  refine .inr ⟨rfl, .inl ?_⟩
  rw [nameOfPart, nameOfPart, UInt16.lt_iff_toNat_lt, toNat_ofNat small,
    toNat_ofNat (Nat.lt_trans less small)]
  exact less

theorem arrived_sorted : (arrived csp schCommNode stored heard fileid).Pairwise (· < ·) :=
  List.pairwise_lt_range.filter _

theorem own_eq (collected : Collected csp schCommNode stored heard rx) (small : Small stored)
    (scanned : Scanned rx.files names) (fileid : UInt16) :
    own fileid names =
      (arrived csp schCommNode stored heard fileid).map (nameOfPart stored fileid) := by
  apply (scanned.sorted.filter _).eq_of_mem_iff
  · rw [List.pairwise_map]
    refine arrived_sorted.imp_of_mem fun {j k} _ mem less => nameOfPart_ahead less ?_
    exact Nat.lt_of_lt_of_le (mem_arrived.mp mem).1 (small.parts_le fileid)
  · intro name
    rw [List.mem_filter, scanned.mem_iff, decide_eq_true_eq, List.mem_map]
    constructor
    · rintro ⟨held, rfl⟩
      obtain ⟨id, k, inFile, rfl⟩ := collected.only name held
      refine ⟨k, mem_arrived.mpr ⟨inFile, ?_⟩, rfl⟩
      rw [collected.content id k inFile] at held
      by_contra never
      have never : frameOfPart csp schCommNode stored id k ∉ heard := never
      rw [if_neg never] at held
      cases held
    · rintro ⟨k, mem, rfl⟩
      obtain ⟨inFile, came⟩ := mem_arrived.mp mem
      refine ⟨?_, rfl⟩
      rw [collected.content fileid k inFile, if_pos came]
      rfl

theorem report_of_sorted (few : parts stored fileid ≤ 65536)
    (sorted : numbers.Pairwise (· < ·)) (inFile : ∀ k ∈ numbers, k < parts stored fileid)
    (present : numbers ≠ []) :
    ∃ warnings, missingFrames ((numbers.map (nameOfPart stored fileid)).map dName) =
        some warnings ∧ (MergeReport.numbers warnings).Nodup ∧
      ∀ i, i ∈ MergeReport.numbers warnings ↔
        ∃ k < parts stored fileid, k ∉ numbers ∧ i = (k : Int) := by
  obtain ⟨first, rest, rfl⟩ := List.exists_cons_of_ne_nil present
  have frame_eq : ∀ k ∈ first :: rest, frameOf (nameOfPart stored fileid k).2 = k := by
    intro k mem
    have := inFile k mem
    rw [frameOf, nameOfPart, toNat_ofNat (by omega)]
  have rising : Rising ((first :: rest).map fun k => (nameOfPart stored fileid k).2) := by
    rw [Rising, List.pairwise_map]
    refine sorted.imp_of_mem fun {j k} mem mem' less => ?_
    rw [frame_eq j mem, frame_eq k mem']
    exact Int.ofNat_lt.mpr less
  obtain ⟨warnings, reported, nodup, warned⟩ :=
    MergeReport.missingFrames_rising fileid (by rwa [List.map_cons] at rising)
  refine ⟨warnings, ?_, nodup, fun i => ?_⟩
  · rw [← reported]
    simp [dName, nameOfPart, Function.comp_def]
  · have last_mem : rest.getLastD first ∈ first :: rest := List.getLastD_mem_cons
    have last_eq : (rest.map fun k => (nameOfPart stored fileid k).2).getLastD
        (nameOfPart stored fileid first).2 = (nameOfPart stored fileid (rest.getLastD first)).2 := by
      rw [List.getLastD_eq_getLast?, List.getLastD_eq_getLast?, List.getLast?_map]
      cases rest.getLast? <;> rfl
    have last_lt := inFile _ last_mem
    have total_eq : totalOf (nameOfPart stored fileid (rest.getLastD first)).2 =
        (parts stored fileid - 1 : Nat) := by
      rw [totalOf, nameOfPart, toNat_ofNat (by omega)]
    rw [warned, last_eq, frame_eq _ last_mem, total_eq]
    have listed : (∀ q ∈ (nameOfPart stored fileid first).2 ::
        rest.map (fun k => (nameOfPart stored fileid k).2), frameOf q ≠ i) ↔
        ∀ k ∈ first :: rest, (k : Int) ≠ i := by
      rw [← List.map_cons (f := fun k => (nameOfPart stored fileid k).2), List.forall_mem_map]
      exact forall₂_congr fun k mem => by rw [frame_eq k mem]
    rw [listed]
    constructor
    · rintro ⟨other, low, high⟩
      refine ⟨i.toNat, by omega, fun mem => other _ mem (by omega), by omega⟩
    · rintro ⟨k, bound, missing, rfl⟩
      refine ⟨fun j mem same => missing ?_, by omega, by omega⟩
      rwa [← Int.ofNat_inj.mp same]

theorem tmMergeFile_arrived (collected : Collected csp schCommNode stored heard rx)
    (small : Small stored) (scanned : Scanned rx.files names)
    (same : fileId.toInt = fileid.toNat)
    (short : ∀ k < parts stored fileid,
      ShortNumbers fileid (UInt16.ofNat k) (UInt16.ofNat (parts stored fileid - 1)))
    (present : arrived csp schCommNode stored heard fileid ≠ []) :
    ∃ warnings, tmMergeFile rx.files names fileId = some (warnings,
        (arrived csp schCommNode stored heard fileid).flatMap (partContent (stored fileid))) ∧
      (MergeReport.numbers warnings).Nodup ∧
      ∀ i, i ∈ MergeReport.numbers warnings ↔ ∃ k < parts stored fileid,
        k ∉ arrived csp schCommNode stored heard fileid ∧ i = (k : Int) := by
  have mine := own_eq collected small scanned fileid
  have brief : ∀ name ∈ names, name.1 = fileid → ShortNumbers fileid name.2.1 name.2.2 := by
    rintro name mem rfl
    obtain ⟨id, k, inFile, rfl⟩ := collected.only name ((scanned.mem_iff name).mp mem)
    exact short k inFile
  obtain ⟨warnings, reported, nodup, warned⟩ := report_of_sorted (small.parts_le fileid)
    arrived_sorted (fun k mem => (mem_arrived.mp mem).1) present
  refine ⟨warnings, ?_, nodup, warned⟩
  have joined : ((arrived csp schCommNode stored heard fileid).map (nameOfPart stored fileid)).flatMap
      (fun name => (rx.files (pathIn name)).getD []) =
      (arrived csp schCommNode stored heard fileid).flatMap (partContent (stored fileid)) := by
    rw [List.flatMap_map]
    apply List.flatMap_congr
    intro k mem
    obtain ⟨inFile, came⟩ := mem_arrived.mp mem
    rw [collected.content fileid k inFile, if_pos came]
    rfl
  rw [tmMergeFile, filter_scandir same, filter_find same brief, mine, reported]
  simp only [Option.bind_eq_bind, Option.bind_some, List.map_eq_nil_iff, if_neg present, joined]
  rfl

theorem arrived_all (all : ∀ k < parts stored fileid,
      k ∈ arrived csp schCommNode stored heard fileid) :
    arrived csp schCommNode stored heard fileid = List.range (parts stored fileid) :=
  List.filter_eq_self.mpr fun k mem =>
    decide_eq_true (mem_arrived.mp (all k (List.mem_range.mp mem))).2

end Merge

/-! Whole exchanges. -/

section System
variable {csp : Csp} {env : Environment} {schCommNode : UInt8} {stored : UInt16 → List UInt8}
  {s : Session Receiver ComFrameFile} {events : List (Event PartRequest)} {fileid : UInt16}
  {fileId : Int32} {names : List PartFile}

def fetched (data : List UInt8) : List UInt8 :=
  data.take (comFrameMaxLen * (blockCount comFrameMaxLen data.length - 1)) ++
    trimmed fill (data.drop (comFrameMaxLen * (blockCount comFrameMaxLen data.length - 1)))

/-- The suffix of no name of the file is cut. -/
def ShortNames (stored : UInt16 → List UInt8) (fileid : UInt16) : Prop :=
  ∀ k < parts stored fileid,
    ShortNumbers fileid (UInt16.ofNat k) (UInt16.ofNat (parts stored fileid - 1))

theorem reached_collected (small : Small stored) (opens : Opens env stored)
    (forward : ∀ r, Event.call r ∈ events → r.Forward)
    (reached : run (exchange csp env schCommNode stored) (opening (initial fun _ => none)) events =
      some s) :
    Collected csp schCommNode stored s.heard s.receiver ∧
      (∀ frame ∈ s.air, Genuine csp schCommNode stored frame) ∧
      ∀ frame ∈ s.heard, Genuine csp schCommNode stored frame := by
  have kind : ∀ r frames, r.Forward → answerParts csp schCommNode stored r = some frames →
      ∀ frame ∈ frames, Genuine csp schCommNode stored frame := by
    intro r frames ahead sent
    obtain ⟨frames', sent', genuine⟩ := answerParts_genuine csp schCommNode small ahead
    obtain rfl := Option.some.inj (sent.symm.trans sent')
    exact genuine
  obtain ⟨accounted, flying, came⟩ := reached_heard kind forward reached
  exact ⟨collected_empty.run small opens came accounted, flying, came⟩

theorem exchange_goes (small : Small stored) (opens : Opens env stored)
    (collected : Collected csp schCommNode stored s.heard s.receiver)
    (flying : ∀ frame ∈ s.air, Genuine csp schCommNode stored frame) {event : Event PartRequest}
    (forward : ∀ r, event = .call r → r.Forward) (possible : Possible s event) :
    ∃ t, exchange csp env schCommNode stored s event = some t := by
  refine step_goes (R := PartRequest.Forward) (fun r ahead => ?_) (fun frame mem => ?_) forward
    possible
  · obtain ⟨frames, sent, -⟩ := answerParts_genuine csp schCommNode small ahead
    exact ⟨frames, sent⟩
  · obtain ⟨rx, taken, -⟩ := collected.receive small opens (flying frame mem)
    exact ⟨rx, taken⟩

def nameOfFrame (csp : Csp) (frame : ComFrameFile) : PartFile :=
  (csp.ntoh16 frame.fileid, csp.ntoh16 frame.nframe, csp.ntoh16 frame.total)

theorem nameOfFrame_part (csp : Csp) (fileid : UInt16) (k : Nat) :
    nameOfFrame csp (frameOfPart csp schCommNode stored fileid k) =
      nameOfPart stored fileid k := by
  simp only [nameOfFrame, frameOfPart, partFrame, fileFrame, csp.ntoh16_hton16, ofInt_eq_ofNat]
  rfl

theorem scanned_exists (collected : Collected csp schCommNode stored s.heard s.receiver)
    (genuine : ∀ frame ∈ s.heard, Genuine csp schCommNode stored frame) :
    ∃ names, Scanned s.receiver.files names := by
  obtain ⟨names, sorted, mem_iff⟩ := sorted_names (s.heard.map (nameOfFrame csp))
  refine ⟨names, sorted, fun name => ?_⟩
  rw [mem_iff, List.mem_map]
  constructor
  · rintro ⟨frame, mem, rfl⟩
    obtain ⟨fileid, k, inFile, rfl⟩ := genuine frame mem
    rw [nameOfFrame_part, collected.content fileid k inFile, if_pos mem]
    rfl
  · intro held
    obtain ⟨fileid, k, inFile, rfl⟩ := collected.only name held
    rw [collected.content fileid k inFile] at held
    by_cases came : frameOfPart csp schCommNode stored fileid k ∈ s.heard
    · exact ⟨_, came, nameOfFrame_part csp fileid k⟩
    · rw [if_neg came] at held
      cases held

theorem warnings_empty {warnings : List Warning} (none : ∀ i, i ∉ MergeReport.numbers warnings) :
    warnings = [] :=
  List.map_eq_nil_iff.mp (List.eq_nil_iff_forall_not_mem.mpr none)

theorem merged_whole (collected : Collected csp schCommNode stored s.heard s.receiver)
    (small : Small stored) (scanned : Scanned s.receiver.files names)
    (same : fileId.toInt = fileid.toNat) (short : ShortNames stored fileid)
    (present : 1 ≤ (stored fileid).length)
    (all : ∀ k < parts stored fileid, k ∈ arrived csp schCommNode stored s.heard fileid) :
    tmMergeFile s.receiver.files names fileId = some ([], fetched (stored fileid)) := by
  have whole := arrived_all all
  have some_part : arrived csp schCommNode stored s.heard fileid ≠ [] :=
    List.ne_nil_of_mem (all 0 (blockCount_pos present))
  obtain ⟨warnings, merged, -, warned⟩ := tmMergeFile_arrived collected small scanned same short
    some_part
  obtain rfl := warnings_empty fun i mem => by
    obtain ⟨k, bound, missing, -⟩ := (warned i).mp mem
    exact missing (all k bound)
  rw [merged, whole, parts, flatMap_partContent present]
  rfl

/-- However the frames of any requests are lost, repeated and reordered, and for
    several files at once: the receiver never stops, the report names exactly the
    parts that have not come, each once, the merge joins those that have in the
    order of their numbers, and it gives the file as soon as the report is empty. -/
theorem exchange_exact (csp : Csp) (env : Environment) (schCommNode : UInt8)
    (stored : UInt16 → List UInt8) (small : Small stored) (opens : Opens env stored)
    (events : List (Event PartRequest)) (forward : ∀ r, Event.call r ∈ events → r.Forward)
    (s : Session Receiver ComFrameFile)
    (reached : run (exchange csp env schCommNode stored) (opening (initial fun _ => none)) events =
      some s) :
    (∀ event, (∀ r, event = .call r → r.Forward) → Possible s event →
      ∃ t, exchange csp env schCommNode stored s event = some t) ∧
    (∃ names, Scanned s.receiver.files names) ∧
    ∀ names, Scanned s.receiver.files names → ∀ (fileId : Int32) (fileid : UInt16),
      fileId.toInt = fileid.toNat → ShortNames stored fileid →
      (∃ k < parts stored fileid, frameOfPart csp schCommNode stored fileid k ∈ s.heard) →
      ∃ warnings merged, tmMergeFile s.receiver.files names fileId = some (warnings, merged) ∧
        (MergeReport.numbers warnings).Nodup ∧
        (∀ i, i ∈ MergeReport.numbers warnings ↔ ∃ k < parts stored fileid,
          frameOfPart csp schCommNode stored fileid k ∉ s.heard ∧ i = (k : Int)) ∧
        merged = ((List.range (parts stored fileid)).filter fun k =>
          frameOfPart csp schCommNode stored fileid k ∈ s.heard).flatMap
            (partContent (stored fileid)) ∧
        (warnings = [] → merged = fetched (stored fileid)) := by
  obtain ⟨collected, flying, heard⟩ := reached_collected small opens forward reached
  refine ⟨fun event ahead possible => exchange_goes small opens collected flying ahead possible,
    scanned_exists collected heard, ?_⟩
  intro names scanned fileId fileid same short ⟨k, inFile, came⟩
  have present : arrived csp schCommNode stored s.heard fileid ≠ [] :=
    List.ne_nil_of_mem (mem_arrived.mpr ⟨inFile, came⟩)
  obtain ⟨warnings, merged, nodup, warned⟩ := tmMergeFile_arrived collected small scanned same short
    present
  refine ⟨warnings, _, merged, nodup, fun i => ?_, rfl, fun silent => ?_⟩
  · rw [warned]
    refine exists_congr fun j => and_congr_right fun bound => and_congr_left fun _ => ?_
    rw [mem_arrived]
    simp only [bound, true_and]
  · have all : ∀ j < parts stored fileid, j ∈ arrived csp schCommNode stored s.heard fileid := by
      intro j bound
      by_contra missing
      have named := (warned (j : Int)).mpr ⟨j, bound, missing, rfl⟩
      rw [silent] at named
      cases named
    have nonempty : 1 ≤ (stored fileid).length := by
      have := (lt_blockCount_iff (show 0 < comFrameMaxLen by decide)).mp inFile
      omega
    rw [arrived_all all, parts, flatMap_partContent nonempty]
    rfl

/-! The operator asks again for what is missing. -/

def retry (link : Link) (fileId : Int32) (flying : Nat) (warnings : List Warning) :
    List (Event PartRequest) :=
  warnings.flatMap fun warning => [.call (again link fileId warning.frame), .deliver flying]

theorem run_retry (small : Small stored) (opens : Opens env stored) {link : Link} (up : link.Up)
    (same : fileId.toInt = fileid.toNat) {warnings : List Warning}
    (inFile : ∀ warning ∈ warnings, ∃ k < parts stored fileid, warning.frame = (k : Int))
    (collected : Collected csp schCommNode stored s.heard s.receiver) :
    ∃ t, run (exchange csp env schCommNode stored) s
        (retry link fileId s.air.length warnings) = some t ∧
      t.air = s.air ∧ Collected csp schCommNode stored t.heard t.receiver ∧
      (∀ frame ∈ s.heard, frame ∈ t.heard) ∧
      ∀ warning ∈ warnings, ∀ k : Nat, warning.frame = (k : Int) →
        frameOfPart csp schCommNode stored fileid k ∈ t.heard := by
  induction warnings generalizing s with
  | nil => exact ⟨s, rfl, rfl, collected, fun _ mem => mem, nofun⟩
  | cons warning rest ih =>
    rw [List.forall_mem_cons] at inFile
    obtain ⟨⟨k, bound, frame_eq⟩, others⟩ := inFile
    obtain ⟨rx, taken, kept⟩ := collected.deliver small opens bound
    have asked : run (exchange csp env schCommNode stored) s
        [.call (again link fileId warning.frame), .deliver s.air.length] = some _ :=
      call_deliver (frame_eq ▸ answerParts_again small up same bound) taken
    obtain ⟨t, further, air, collected', more, heard⟩ := ih (s := ⟨rx, s.air, _⟩) others kept
    refine ⟨t, run_trans asked further, air, collected',
      fun frame mem => more frame (List.mem_append_left _ mem), ?_⟩
    rw [List.forall_mem_cons]
    refine ⟨fun j frame_eq' => ?_, heard⟩
    obtain rfl := Int.ofNat_inj.mp (frame_eq'.symm.trans frame_eq)
    exact more _ (List.mem_append_right _ List.mem_cons_self)

theorem retry_forward {link : Link} {flying : Nat} {warnings : List Warning}
    (inFile : ∀ warning ∈ warnings, ∃ k < 65536, warning.frame = ((k : Nat) : Int))
    (r : PartRequest) (mem : Event.call r ∈ retry link fileId flying warnings) : r.Forward := by
  obtain ⟨warning, listed, here⟩ := List.mem_flatMap.mp mem
  obtain ⟨k, bound, frame_eq⟩ := inFile warning listed
  simp only [List.mem_cons, Event.call.injEq, reduceCtorEq, List.not_mem_nil, or_false] at here
  subst here
  rw [frame_eq]
  exact again_forward link fileId bound

/-- From every state of an exchange in which a part of the file has come, one
    round of requests for the numbers of the report, of which the answers arrive,
    makes the next merge complete: it warns about nothing and gives the file. -/
theorem exchange_completes (csp : Csp) (env : Environment) (schCommNode : UInt8)
    (stored : UInt16 → List UInt8) (small : Small stored) (opens : Opens env stored)
    (events : List (Event PartRequest)) (forward : ∀ r, Event.call r ∈ events → r.Forward)
    (s : Session Receiver ComFrameFile)
    (reached : run (exchange csp env schCommNode stored) (opening (initial fun _ => none)) events =
      some s) (names : List PartFile) (scanned : Scanned s.receiver.files names) (fileId : Int32)
    (fileid : UInt16) (same : fileId.toInt = fileid.toNat) (short : ShortNames stored fileid)
    (started : ∃ k < parts stored fileid,
      frameOfPart csp schCommNode stored fileid k ∈ s.heard) (link : Link) (up : link.Up) :
    ∃ warnings merged t, tmMergeFile s.receiver.files names fileId = some (warnings, merged) ∧
      run (exchange csp env schCommNode stored) s (retry link fileId s.air.length warnings) =
        some t ∧ t.air = s.air ∧ (∃ names', Scanned t.receiver.files names') ∧
      ∀ names', Scanned t.receiver.files names' →
        tmMergeFile t.receiver.files names' fileId = some ([], fetched (stored fileid)) := by
  obtain ⟨collected, -, -⟩ := reached_collected small opens forward reached
  obtain ⟨k, inFile, came⟩ := started
  have present : arrived csp schCommNode stored s.heard fileid ≠ [] :=
    List.ne_nil_of_mem (mem_arrived.mpr ⟨inFile, came⟩)
  obtain ⟨warnings, merged, -, warned⟩ := tmMergeFile_arrived collected small scanned same short
    present
  have named : ∀ warning ∈ warnings, ∃ k < parts stored fileid, warning.frame = (k : Int) := by
    intro warning mem
    obtain ⟨k, bound, -, frame_eq⟩ := (warned warning.frame).mp (List.mem_map_of_mem mem)
    exact ⟨k, bound, frame_eq⟩
  obtain ⟨t, asked, air, collected', more, heard⟩ := run_retry small opens up same named collected
  have forward' : ∀ r, Event.call r ∈ events ++ retry link fileId s.air.length warnings →
      r.Forward := by
    intro r mem
    rcases List.mem_append.mp mem with before | now
    · exact forward r before
    · refine retry_forward (fun warning listed => ?_) r now
      obtain ⟨k, bound, frame_eq⟩ := named warning listed
      exact ⟨k, Nat.lt_of_lt_of_le bound (small.parts_le fileid), frame_eq⟩
  obtain ⟨-, -, genuine⟩ := reached_collected small opens forward' (run_trans reached asked)
  refine ⟨warnings, _, t, merged, asked, air, scanned_exists collected' genuine,
    fun names' scanned' => ?_⟩
  have nonempty : 1 ≤ (stored fileid).length := by
    have := (lt_blockCount_iff (show 0 < comFrameMaxLen by decide)).mp inFile
    omega
  refine merged_whole collected' small scanned' same short nonempty fun j bound => ?_
  refine mem_arrived.mpr ⟨bound, ?_⟩
  by_cases before : frameOfPart csp schCommNode stored fileid j ∈ s.heard
  · exact more _ before
  · have missing : j ∉ arrived csp schCommNode stored s.heard fileid := fun mem =>
      before (mem_arrived.mp mem).2
    obtain ⟨warning, mem, frame_eq⟩ :=
      List.mem_map.mp ((warned (j : Int)).mpr ⟨j, bound, missing, rfl⟩)
    exact heard warning mem j frame_eq

end System

/-! A file of two parts. -/

section Witness

def twoParts (fileid : UInt16) : List UInt8 := if fileid = 5 then List.replicate 193 7 else []

theorem twoParts_length (fileid : UInt16) :
    (twoParts fileid).length = if fileid = 5 then 193 else 0 := by
  unfold twoParts
  split
  · exact List.length_replicate
  · rfl

theorem twoParts_small : Small twoParts := by
  intro fileid
  rw [twoParts_length]
  split <;> omega

theorem twoParts_opens : Opens plainEnvironment twoParts := fun _ _ _ => rfl

theorem twoParts_parts : parts twoParts 5 = 2 := by
  rw [parts, twoParts_length, if_pos rfl]
  rfl

theorem twoParts_short : ShortNames twoParts 5 := by
  intro k bound
  rw [twoParts_parts] at bound ⊢
  unfold ShortNumbers
  interval_cases k <;> decide

def onlySecond : List (Event PartRequest) := [.call (again plainLink 5 1), .deliver 0]

theorem onlySecond_forward : ∀ r, Event.call r ∈ onlySecond → r.Forward := by
  intro r mem
  simp only [onlySecond, List.mem_cons, Event.call.injEq, reduceCtorEq, List.not_mem_nil,
    or_false] at mem
  subst mem
  exact again_forward plainLink 5 (k := 1) (by decide)

theorem onlySecond_reached :
    ∃ rx, run (exchange hostOrder plainEnvironment 1 twoParts) (opening (initial fun _ => none))
      onlySecond = some ⟨rx, [], [frameOfPart hostOrder 1 twoParts 5 1]⟩ := by
  have bound : 1 < parts twoParts 5 := by
    rw [twoParts_parts]
    decide
  have empty : Collected hostOrder 1 twoParts [] (initial fun _ => none) := collected_empty
  obtain ⟨rx, taken, -⟩ := empty.deliver twoParts_small twoParts_opens bound
  exact ⟨rx, call_deliver (s := opening (initial fun _ => none))
    (answerParts_again twoParts_small plainLink_up (by decide) bound) taken⟩

theorem first_part_reported :
    ∃ files names warnings merged, Scanned files names ∧
      tmMergeFile files names 5 = some (warnings, merged) ∧ 0 ∈ MergeReport.numbers warnings := by
  obtain ⟨rx, reached⟩ := onlySecond_reached
  obtain ⟨-, ⟨names, scanned⟩, merges⟩ := exchange_exact hostOrder plainEnvironment 1 twoParts
    twoParts_small twoParts_opens onlySecond onlySecond_forward _ reached
  obtain ⟨warnings, merged, result, -, warned, -⟩ := merges names scanned 5 5 (by decide)
    twoParts_short ⟨1, by rw [twoParts_parts]; decide, List.mem_cons_self⟩
  refine ⟨rx.files, names, warnings, merged, scanned, result, (warned 0).mpr ?_⟩
  refine ⟨0, by rw [twoParts_parts]; decide, ?_, rfl⟩
  rw [List.mem_singleton]
  intro same
  exact absurd (frameOfPart_injective (by decide) (by decide) same).2 (by decide)

theorem two_parts_completed :
    ∃ files names, Scanned files names ∧
      tmMergeFile files names 5 = some ([], fetched (twoParts 5)) := by
  obtain ⟨rx, reached⟩ := onlySecond_reached
  obtain ⟨collected, -, genuine⟩ :=
    reached_collected twoParts_small twoParts_opens onlySecond_forward reached
  obtain ⟨names, scanned⟩ := scanned_exists collected genuine
  obtain ⟨-, -, t, -, -, -, ⟨names', scanned'⟩, complete⟩ := exchange_completes hostOrder
    plainEnvironment 1 twoParts twoParts_small twoParts_opens onlySecond onlySecond_forward _ reached
    names scanned 5 5 (by decide) twoParts_short
    ⟨1, by rw [twoParts_parts]; decide, List.mem_cons_self⟩ plainLink plainLink_up
  exact ⟨t.receiver.files, names', scanned', complete names' scanned'⟩

end Witness

end PartExchange
