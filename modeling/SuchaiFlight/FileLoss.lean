import SuchaiFlight.FileTransfer

/-!
One transfer of `com_send_file` over a link that loses and reorders frames. A
delivery is a list of frame numbers without repetition; number 0 is the `START`
frame.
-/
namespace FileLoss
open CStrings RepoCommand Blocks Runs FileFrames FileReceiver FileTransfer

variable {csp : Csp} {env : Environment} {schCommNode : UInt8} {link : Link}

structure Delivery where
  rx : Receiver
  last : Option Nat

def deliverNumber (csp : Csp) (env : Environment) (frames : List ComFrameFile) (d : Delivery)
    (i : Nat) : Option Delivery := do
  let frame ← frames[i]?
  let (rc, rx) ← receive csp env d.rx frame
  some { rx := rx, last := if rc = some cmdOk then some i else d.last }

def Successor : Option Nat → Nat → Prop
  | none, i => i = 0
  | some j, i => i = j + 1

/-- Whatever has been delivered, the file is absent or holds the contents of the
    first `k` frames, and every further frame that is not the successor of the
    last accepted one is answered `CMD_ERROR` without any change. -/
def Intact (csp : Csp) (env : Environment) (files : Path → Option (List UInt8))
    (frames : List ComFrameFile) (path : Path) (data : List UInt8) : Prop :=
  ∀ order : List Nat, order.Nodup → (∀ i ∈ order, i < frames.length) →
    ∃ d, run (deliverNumber csp env frames) ⟨initial files, none⟩ order = some d ∧
      (d.rx.files path = none ∨
        ∃ k ≤ blockCount comFrameMaxLen data.length,
          d.rx.files path = some (data.take (comFrameMaxLen * k))) ∧
      ∀ i frame, frames[i]? = some frame → i ∉ order → ¬ Successor d.last i →
        receive csp env d.rx frame = some (some cmdError, d.rx)

theorem deliverNumber_ok {frames : List ComFrameFile} {d : Delivery} {i : Nat}
    {frame : ComFrameFile} {rx : Receiver} (sent : frames[i]? = some frame)
    (answer : receive csp env d.rx frame = some (some cmdOk, rx)) :
    deliverNumber csp env frames d i = some ⟨rx, some i⟩ := by
  simp [deliverNumber, sent, answer]

theorem deliverNumber_error {frames : List ComFrameFile} {d : Delivery} {i : Nat}
    {frame : ComFrameFile} {rx : Receiver} (sent : frames[i]? = some frame)
    (answer : receive csp env d.rx frame = some (some cmdError, rx)) :
    deliverNumber csp env frames d i = some ⟨rx, d.last⟩ := by
  simp [deliverNumber, sent, answer, cmdOk, cmdError]

theorem transferFrames_zero {name : CString} (short : strlen name < comFrameMaxLen)
    (fileid : UInt16) (data : List UInt8) :
    (transferFrames csp schCommNode fileid name data)[0]? =
      some (fileFrame csp schCommNode 0 tmTypeFileStart fileid
        (data.length / comFrameMaxLen + 1 : Nat) (name.chars ++ [0])) := by
  rw [transferFrames, startFrames_short short]
  rfl

theorem transferFrames_succ {name : CString} (short : strlen name < comFrameMaxLen)
    (fileid : UInt16) (data : List UInt8) (i : Nat) :
    (transferFrames csp schCommNode fileid name data)[i + 1]? =
      if i < blockCount comFrameMaxLen data.length then
        some (bodyFrame csp schCommNode fileid data i)
      else none := by
  rw [transferFrames, startFrames_short short]
  simp only [List.singleton_append, List.getElem?_cons_succ, bodyFrames, List.getElem?_map]
  split
  · rename_i lt
    simp [List.getElem?_range lt]
  · rename_i ge
    have none : (List.range (blockCount comFrameMaxLen data.length))[i]? = none := by
      simp only [List.getElem?_eq_none_iff, List.length_range]
      omega
    simp [none]

theorem transferFrames_length {name : CString} (short : strlen name < comFrameMaxLen)
    (fileid : UInt16) (data : List UInt8) :
    (transferFrames csp schCommNode fileid name data).length =
      blockCount comFrameMaxLen data.length + 1 := by
  rw [transferFrames, startFrames_short short]
  simp [bodyFrames]

/-! The states that a delivery can reach. -/

inductive Stage (files : Path → Option (List UInt8)) (path : Path) (fileid : UInt16)
    (data : List UInt8) : List Nat → Delivery → Prop where
  | waiting {done : List Nat} (early : 0 ∉ done) :
      Stage files path fileid data done ⟨initial files, none⟩
  | receiving {done : List Nat} {rx : Receiver} {k : Nat} (started : 0 ∈ done)
      (expecting : Expecting rx path fileid k) (full : k ≤ data.length / comFrameMaxLen)
      (content : rx.files = grown files path data k) :
      Stage files path fileid data done ⟨rx, some k⟩
  | closed {done : List Nat} {rx : Receiver} (started : 0 ∈ done) (closed : rx.fname = none)
      (tail : data.length % comFrameMaxLen ≠ 0)
      (small : blockCount comFrameMaxLen data.length < 65536)
      (content : rx.files = appended files path (received data)) :
      Stage files path fileid data done ⟨rx, some (blockCount comFrameMaxLen data.length)⟩

section Stages
variable {files : Path → Option (List UInt8)} {name : CString} {fileid : UInt16} {data : List UInt8}

theorem receive_closed {rx : Receiver} (closed : rx.fname = none) (fileid : UInt16)
    (data : List UInt8) (i : Nat) :
    receive csp env rx (bodyFrame csp schCommNode fileid data i) = some (some cmdError, rx) := by
  rw [bodyFrame, receive_body rx _ _ _ _ (bodyFrame_type data i)]
  simp [target, closed]

theorem Stage.rejects {path : Path} {done : List Nat} {d : Delivery}
    (stage : Stage files path fileid data done d) (short : strlen name < comFrameMaxLen)
    (opens : env.opens path) (few : blockCount comFrameMaxLen data.length ≤ 65536) {i : Nat}
    {frame : ComFrameFile}
    (sent : (transferFrames csp schCommNode fileid name data)[i]? = some frame) (new : i ∉ done)
    (gap : ¬ Successor d.last i) : receive csp env d.rx frame = some (some cmdError, d.rx) := by
  cases i with
  | zero =>
    cases stage with
    | waiting early => exact absurd rfl gap
    | receiving started => exact absurd started new
    | closed started => exact absurd started new
  | succ i =>
    rw [transferFrames_succ short] at sent
    split at sent
    · rename_i lt
      cases sent
      cases stage with
      | waiting early => exact receive_closed rfl fileid data i
      | receiving started expecting full content =>
        rename_i rx k
        have wrong : ¬ k + 1 = (i + 1) % 65536 := by
          simp only [Successor] at gap
          omega
        rw [receive_bodyFrame expecting opens, if_neg wrong]
      | closed started closed tail content => exact receive_closed closed fileid data i
    · cases sent

/-- The frame after the last accepted one. Number 65536 does not fit its field
    and is rejected. -/
theorem stage_next {path : Path} {done : List Nat} {rx : Receiver} {k : Nat}
    (short : strlen name < comFrameMaxLen) (opens : env.opens path) (started : 0 ∈ done)
    (expecting : Expecting rx path fileid k) (full : k ≤ data.length / comFrameMaxLen)
    (content : rx.files = grown files path data k)
    (within : k < blockCount comFrameMaxLen data.length) :
    ∃ d', deliverNumber csp env (transferFrames csp schCommNode fileid name data) ⟨rx, some k⟩
        (k + 1) = some d' ∧ Stage files path fileid data (done ++ [k + 1]) d' := by
  have sent : (transferFrames csp schCommNode fileid name data)[k + 1]? =
      some (bodyFrame csp schCommNode fileid data k) := by
    rw [transferFrames_succ short, if_pos within]
  have stays : 0 ∈ done ++ [k + 1] := List.mem_append_left _ started
  by_cases next : k + 1 = (k + 1) % 65536
  · have answer : receive csp env rx (bodyFrame csp schCommNode fileid data k) =
        some (some cmdOk, accepted rx path fileid data k) := by
      rw [receive_bodyFrame expecting opens, if_pos next]
    refine ⟨_, deliverNumber_ok sent answer, ?_⟩
    by_cases more : k < data.length / comFrameMaxLen
    · exact .receiving stays (expecting_accepted path fileid more (by omega)) more
        (accepted_data content fileid more)
    · have last : k = data.length / comFrameMaxLen := by omega
      subst last
      have tail : data.length % comFrameMaxLen ≠ 0 := by
        intro none
        simp [blockCount, none] at within
      have count : blockCount comFrameMaxLen data.length = data.length / comFrameMaxLen + 1 := by
        simp [blockCount, tail]
      rw [← count]
      exact .closed (count ▸ stays) (by simp [accepted]) tail (by omega)
        (accepted_end content fileid)
  · have answer : receive csp env rx (bodyFrame csp schCommNode fileid data k) =
        some (some cmdError, rx) := by
      rw [receive_bodyFrame expecting opens, if_neg next]
    exact ⟨_, deliverNumber_error sent answer, .receiving stays expecting full content⟩

theorem Stage.step {path : Path} {done : List Nat} {d : Delivery}
    (stage : Stage files path fileid data done d)
    (path_eq : startPath env files fileid name.chars = path) (short : strlen name < comFrameMaxLen)
    (opens : env.opens path) (few : blockCount comFrameMaxLen data.length ≤ 65536) {i : Nat}
    (bound : i < (transferFrames csp schCommNode fileid name data).length) (new : i ∉ done) :
    ∃ d', deliverNumber csp env (transferFrames csp schCommNode fileid name data) d i = some d' ∧
      Stage files path fileid data (done ++ [i]) d' := by
  obtain ⟨frame, sent⟩ : ∃ frame, (transferFrames csp schCommNode fileid name data)[i]? =
      some frame := ⟨_, List.getElem?_eq_getElem bound⟩
  rw [transferFrames_length short] at bound
  by_cases next : Successor d.last i
  · cases stage with
    | waiting early =>
      have zero : i = 0 := next
      subst zero
      refine ⟨⟨_, some 0⟩, deliverNumber_ok (transferFrames_zero short fileid data)
        (receive_start _ name short fileid _), ?_⟩
      exact .receiving (by simp) ⟨congrArg some path_eq, rfl, rfl⟩ (Nat.zero_le _) rfl
    | receiving started expecting full content =>
      rename_i rx k
      have eq : i = k + 1 := next
      subst eq
      exact stage_next short opens started expecting full content (by omega)
    | closed started closed tail small content =>
      have eq : i = blockCount comFrameMaxLen data.length + 1 := next
      omega
  · have rejected := stage.rejects short opens few sent new next
    have same : deliverNumber csp env (transferFrames csp schCommNode fileid name data) d i =
        some d := by
      simp [deliverNumber, sent, rejected, cmdOk, cmdError]
    refine ⟨d, same, ?_⟩
    cases stage with
    | waiting early =>
      refine .waiting ?_
      have other : i ≠ 0 := next
      simp [early, other.symm]
    | receiving started expecting full content =>
      exact .receiving (List.mem_append_left _ started) expecting full content
    | closed started closed tail small content =>
      exact .closed (List.mem_append_left _ started) closed tail small content

theorem stage_run {path : Path} (path_eq : startPath env files fileid name.chars = path)
    (short : strlen name < comFrameMaxLen) (opens : env.opens path)
    (few : blockCount comFrameMaxLen data.length ≤ 65536) {order : List Nat}
    (once : order.Nodup)
    (bound : ∀ i ∈ order, i < (transferFrames csp schCommNode fileid name data).length) :
    ∃ d, run (deliverNumber csp env (transferFrames csp schCommNode fileid name data))
        ⟨initial files, none⟩ order = some d ∧ Stage files path fileid data order d := by
  induction order using List.reverseRecOn with
  | nil => exact ⟨_, rfl, .waiting (by simp)⟩
  | append_singleton done i ih =>
    obtain ⟨d, reached, stage⟩ := ih (List.Nodup.of_append_left once)
      (fun j mem => bound j (List.mem_append_left _ mem))
    have new : i ∉ done := by
      have := List.disjoint_of_nodup_append once
      exact fun mem => this mem (by simp)
    obtain ⟨d', stepped, next⟩ := stage.step path_eq short opens few (bound i (by simp)) new
    exact ⟨d', run_trans reached (run_single stepped), next⟩

def tailBytes (data : List UInt8) : List UInt8 :=
  data.drop (comFrameMaxLen * (data.length / comFrameMaxLen))

/-- The tail is written whole or not at all: there is none, it does not end in
    the fill byte, it consists of it, or its frame has the number 65536. -/
def TailSafe (data : List UInt8) : Prop :=
  data.length % comFrameMaxLen = 0 ∨ data.getLast? ≠ some fill ∨
    (∀ b ∈ tailBytes data, b = fill) ∨ blockCount comFrameMaxLen data.length = 65536

theorem appended_self {path : Path} (fresh : files path = none) (bytes : List UInt8) :
    appended files path bytes path = some bytes := by
  simp [appended, fresh]

theorem Stage.content {path : Path} {done : List Nat} {d : Delivery}
    (stage : Stage files path fileid data done d) (fresh : files path = none)
    (safe : TailSafe data) :
    d.rx.files path = none ∨
      ∃ k ≤ blockCount comFrameMaxLen data.length,
        d.rx.files path = some (data.take (comFrameMaxLen * k)) := by
  cases stage with
  | waiting early => exact .inl fresh
  | receiving started expecting full content =>
    rename_i rx k
    rw [content]
    by_cases zero : k = 0
    · exact .inl (by simp [grown, zero, fresh])
    · refine .inr ⟨k, full.trans (Nat.le_add_right _ _), ?_⟩
      simp [grown, zero, appended_self fresh]
  | closed started closed tail small content =>
    refine .inr ?_
    simp only [content, appended_self fresh, Option.some.injEq]
    rcases safe with none | last | all | huge
    · exact absurd none tail
    · refine ⟨_, le_refl _, ?_⟩
      rw [(received_eq_iff data).mpr (.inr last), List.take_of_length_le]
      by_contra shorter
      have more := (lt_blockCount_iff (show 0 < comFrameMaxLen by decide)).mpr
        (Nat.lt_of_not_le shorter)
      exact absurd more (lt_irrefl _)
    · refine ⟨data.length / comFrameMaxLen, Nat.le_add_right _ _, ?_⟩
      have none := (trimmed_eq_nil_iff fill (tailBytes data)).mpr all
      rw [tailBytes] at none
      rw [received, none, List.append_nil]
    · omega

theorem intact_of_safe {path : Path} (path_eq : startPath env files fileid name.chars = path)
    (fresh : files path = none) (short : strlen name < comFrameMaxLen) (opens : env.opens path)
    (few : blockCount comFrameMaxLen data.length ≤ 65536) (safe : TailSafe data) :
    Intact csp env files (transferFrames csp schCommNode fileid name data) path data := by
  intro order once bound
  obtain ⟨d, reached, stage⟩ := stage_run path_eq short opens few once bound
  refine ⟨d, reached, stage.content fresh safe, ?_⟩
  intro i frame sent new gap
  exact stage.rejects short opens few sent new gap

/-! The ways in which a transfer is not safe. -/

theorem short_of_intact {path : Path}
    (intact : Intact csp env files (transferFrames csp schCommNode fileid name data) path data) :
    strlen name < comFrameMaxLen := by
  by_contra long
  obtain ⟨rest, head⟩ := transferFrames_head csp schCommNode fileid name data
  have first : (transferFrames csp schCommNode fileid name data)[0]? =
      some (fileFrame csp schCommNode 0 tmTypeFileStart fileid
        (data.length / comFrameMaxLen + 1 : Nat) (block comFrameMaxLen (name.chars ++ [0]) 0)) := by
    rw [head]
    rfl
  have bound : 0 < (transferFrames csp schCommNode fileid name data).length :=
    (List.getElem?_eq_some_iff.mp first).1
  obtain ⟨d, reached, -⟩ := intact [0] (by simp) (by simpa using bound)
  have undefined : receive csp env (initial files) (fileFrame csp schCommNode 0 tmTypeFileStart
      fileid (data.length / comFrameMaxLen + 1 : Nat) (block comFrameMaxLen (name.chars ++ [0]) 0)) =
      none := receive_start_long _ name (by omega) fileid _
  have stuck : deliverNumber csp env (transferFrames csp schCommNode fileid name data)
      ⟨initial files, none⟩ 0 = none := by
    simp only [deliverNumber, first, undefined, Option.bind_eq_bind, Option.bind_some,
      Option.bind_none]
  simp [run, stuck] at reached

/-- Frame 65537 carries the number 1 and is taken for the first one. -/
theorem few_of_intact {path : Path} (path_eq : startPath env files fileid name.chars = path)
    (short : strlen name < comFrameMaxLen) (opens : env.opens path)
    (intact : Intact csp env files (transferFrames csp schCommNode fileid name data) path data) :
    blockCount comFrameMaxLen data.length ≤ 65536 := by
  by_contra many
  have sent : (transferFrames csp schCommNode fileid name data)[65537]? =
      some (bodyFrame csp schCommNode fileid data 65536) := by
    rw [transferFrames_succ short, if_pos (by omega)]
  have opened : deliverNumber csp env (transferFrames csp schCommNode fileid name data)
      ⟨initial files, none⟩ 0 = some ⟨started env (initial files) name fileid, some 0⟩ :=
    deliverNumber_ok (transferFrames_zero short fileid data) (receive_start _ name short fileid _)
  have expecting : Expecting (started env (initial files) name fileid) path fileid 0 :=
    path_eq ▸ expecting_started (initial files) name fileid
  have bound : 0 < (transferFrames csp schCommNode fileid name data).length := by
    rw [transferFrames_length short]
    omega
  obtain ⟨d, reached, -, rejects⟩ := intact [0] (by simp) (by simpa using bound)
  rw [run_single opened] at reached
  cases reached
  have answer := rejects 65537 _ sent (by simp) (by simp [Successor])
  rw [receive_bodyFrame expecting opens, if_pos (by decide)] at answer
  simp [cmdOk, cmdError] at answer

theorem run_deliverNumber {frames : List ComFrameFile} {frameOf : Nat → ComFrameFile}
    {order : List Nat} {d : Delivery} {rx : Receiver}
    (sent : ∀ i ∈ order, frames[i]? = some (frameOf i))
    (reached : run (deliver csp env) d.rx (order.map frameOf) = some rx) :
    ∃ last, run (deliverNumber csp env frames) d order = some ⟨rx, last⟩ := by
  induction order generalizing d with
  | nil =>
    cases reached
    exact ⟨d.last, rfl⟩
  | cons i rest ih =>
    obtain ⟨next, first, later⟩ := Option.bind_eq_some_iff.mp reached
    obtain ⟨⟨rc, rx₁⟩, answer, rfl⟩ := Option.map_eq_some_iff.mp first
    have stepped : deliverNumber csp env frames d i =
        some ⟨rx₁, if rc = some cmdOk then some i else d.last⟩ := by
      simp [deliverNumber, sent i (by simp), answer]
    obtain ⟨last, reached⟩ := ih (d := ⟨rx₁, if rc = some cmdOk then some i else d.last⟩)
      (fun j mem => sent j (List.mem_cons_of_mem i mem)) later
    exact ⟨last, run_cons stepped reached⟩

theorem received_ne_take (ends : data.getLast? = some fill)
    (mixed : ∃ b ∈ tailBytes data, b ≠ fill) (k : Nat) :
    received data ≠ data.take (comFrameMaxLen * k) := by
  have cut : trimmed fill (tailBytes data) ≠ [] := by
    obtain ⟨b, mem, ne⟩ := mixed
    intro none
    exact ne ((trimmed_eq_nil_iff _ _).mp none b mem)
  have pos := List.length_pos_of_ne_nil cut
  unfold tailBytes at pos
  have present : data.length % comFrameMaxLen ≠ 0 := by
    intro full
    have le := (trimmed_isPrefix_self fill (tailBytes data)).length_le
    have := Nat.div_add_mod data.length comFrameMaxLen
    rw [tailBytes, List.length_drop] at le
    omega
  have low : comFrameMaxLen * (data.length / comFrameMaxLen) < (received data).length := by
    have := Nat.mul_div_le data.length comFrameMaxLen
    rw [received, List.length_append, List.length_take]
    omega
  have high : (received data).length < data.length := by
    have changed : received data ≠ data := by
      rw [Ne, received_eq_iff]
      rintro (full | last)
      · exact present full
      · exact last ends
    have whole := (received_isPrefix_data data).length_le
    exact Nat.lt_of_le_of_ne whole fun eq => changed ((received_isPrefix_data data).eq_of_length eq)
  intro same
  have length := congrArg List.length same
  rw [List.length_take] at length
  exact min_mul_ne (by decide) low high k length.symm

theorem run_in_order (csp : Csp) (schCommNode : UInt8) {path : Path}
    (path_eq : startPath env files fileid name.chars = path) (fresh : files path = none)
    (short : strlen name < comFrameMaxLen) (opens : env.opens path)
    (few : blockCount comFrameMaxLen data.length < 65536) (present : data ≠ []) :
    ∃ rx last, run (deliverNumber csp env (transferFrames csp schCommNode fileid name data))
        ⟨initial files, none⟩ (List.range (blockCount comFrameMaxLen data.length + 1)) =
          some ⟨rx, last⟩ ∧
      rx.files path = some (received data) := by
  let frameOf : Nat → ComFrameFile
    | 0 => fileFrame csp schCommNode 0 tmTypeFileStart fileid
        (data.length / comFrameMaxLen + 1 : Nat) (name.chars ++ [0])
    | i + 1 => bodyFrame csp schCommNode fileid data i
  have inOrder : (List.range (blockCount comFrameMaxLen data.length + 1)).map frameOf =
      transferFrames csp schCommNode fileid name data := by
    rw [transferFrames, startFrames_short short, List.range_succ_eq_map, List.map_cons,
      List.map_map]
    rfl
  have sent : ∀ i ∈ List.range (blockCount comFrameMaxLen data.length + 1),
      (transferFrames csp schCommNode fileid name data)[i]? = some (frameOf i) := by
    intro i mem
    cases i with
    | zero => exact transferFrames_zero short fileid data
    | succ i =>
      rw [List.mem_range] at mem
      rw [transferFrames_succ short, if_pos (by omega)]
  obtain ⟨rx, reached, content⟩ := run_transfer csp schCommNode (initial files) short fileid
    present few (by subst path_eq; exact opens)
  rw [← inOrder] at reached
  obtain ⟨last, delivered⟩ := run_deliverNumber (d := ⟨initial files, none⟩) sent reached
  refine ⟨rx, last, delivered, ?_⟩
  rw [content]
  subst path_eq
  exact appended_self fresh _

theorem safe_of_intact {path : Path} (path_eq : startPath env files fileid name.chars = path)
    (fresh : files path = none) (short : strlen name < comFrameMaxLen) (opens : env.opens path)
    (few : blockCount comFrameMaxLen data.length ≤ 65536)
    (intact : Intact csp env files (transferFrames csp schCommNode fileid name data) path data) :
    TailSafe data := by
  by_contra wrong
  simp only [TailSafe, not_or, not_not, not_forall] at wrong
  obtain ⟨tail, ends, ⟨b, mem, ne⟩, notLast⟩ := wrong
  have present : data ≠ [] := by
    rintro rfl
    simp at tail
  obtain ⟨rx, last, delivered, whole⟩ := run_in_order csp schCommNode path_eq fresh short
    opens (by omega) present
  obtain ⟨d, run_eq, holds, -⟩ := intact (List.range (blockCount comFrameMaxLen data.length + 1))
    List.nodup_range (by simp [transferFrames_length short])
  rw [delivered] at run_eq
  cases run_eq
  rcases holds with absent | ⟨k, -, same⟩
  · rw [whole] at absent
    cases absent
  · rw [whole, Option.some.injEq] at same
    exact received_ne_take ends ⟨b, mem, ne⟩ k same

end Stages

/-- Lost and reordered frames leave the file intact exactly when the name fits
    its frame, the frame numbers fit their field, and the tail is safe. -/
theorem lossy_transfer_intact_iff (up : link.Up) (files : Path → Option (List UInt8))
    (name : CString) (data : List UInt8) (fileid : UInt16)
    (absent : accessible env files (bname ++ name.chars) = false)
    (opens : env.opens (bname ++ name.chars)) :
    (∃ rc frames, comSendFile csp schCommNode link name data fileid = some (rc, frames) ∧
        Intact csp env files frames (bname ++ name.chars) data) ↔
      strlen name ≤ 191 ∧ blockCount comFrameMaxLen data.length ≤ 65536 ∧ TailSafe data := by
  have path_eq : startPath env files fileid name.chars = bname ++ name.chars := by
    simp [startPath, absent]
  have fresh : files (bname ++ name.chars) = none := fresh_of_absent absent
  constructor
  · rintro ⟨rc, frames, sent, intact⟩
    have small : data.length / comFrameMaxLen * comFrameMaxLen < 2147483648 := by
      by_contra large
      simp [comSendFile, Nat.le_of_not_lt large] at sent
    obtain ⟨rc₁, sent₁⟩ := comSendFile_up up name fileid small
    rw [sent₁] at sent
    cases sent
    have short := short_of_intact intact
    have few := few_of_intact path_eq short opens intact
    exact ⟨Nat.le_of_lt_succ short, few, safe_of_intact path_eq fresh short opens few intact⟩
  · rintro ⟨short, few, safe⟩
    obtain ⟨rc, sent⟩ := comSendFile_up up name fileid (bytes_lt_of_blockCount few)
    exact ⟨rc, _, sent,
      intact_of_safe path_eq fresh (Nat.lt_succ_of_le short) opens few safe⟩

theorem three_bytes_intact_iff :
    (∃ rc frames, comSendFile hostOrder 1 plainLink nameA [1, 2, 3] 7 = some (rc, frames) ∧
        Intact hostOrder plainEnvironment (fun _ => none) frames (bname ++ nameA.chars) [1, 2, 3]) ↔
      strlen nameA ≤ 191 ∧ blockCount comFrameMaxLen ([1, 2, 3] : List UInt8).length ≤ 65536 ∧
        TailSafe [1, 2, 3] :=
  lossy_transfer_intact_iff plainLink_up (fun _ => none) nameA [1, 2, 3] 7 rfl rfl

def zerosAndOne (n : Nat) : List UInt8 := List.replicate n 0 ++ [1]

theorem zerosAndOne_length (n : Nat) : (zerosAndOne n).length = n + 1 := by
  simp [zerosAndOne]

theorem long_file_not_intact :
    ¬ ∃ rc frames,
      comSendFile hostOrder 1 plainLink nameA (zerosAndOne 12582912) 7 = some (rc, frames) ∧
        Intact hostOrder plainEnvironment (fun _ => none) frames (bname ++ nameA.chars)
          (zerosAndOne 12582912) := by
  rintro ⟨rc, frames, sent, intact⟩
  have small : (zerosAndOne 12582912).length / comFrameMaxLen * comFrameMaxLen < 2147483648 := by
    rw [zerosAndOne_length]
    decide
  obtain ⟨rc₁, sent₁⟩ := comSendFile_up plainLink_up nameA 7 small
  rw [sent₁] at sent
  cases sent
  have short : strlen nameA < comFrameMaxLen := by decide
  have path_eq : startPath plainEnvironment (fun _ => none) 7 nameA.chars = bname ++ nameA.chars :=
    rfl
  have few := few_of_intact path_eq short rfl intact
  rw [zerosAndOne_length] at few
  exact absurd few (by decide)

end FileLoss
