import SuchaiFlight.FileReceiver
import SuchaiFlight.Library.Runs

/-!
A whole transfer of `com_send_file`, delivered to `tm_parse_file` in order. The
last frame carries no length, so the receiver removes every trailing fill byte,
those of the data included.
-/
namespace FileTransfer
open CStrings RepoCommand Blocks Runs FileFrames FileReceiver

variable {csp : Csp} {env : Environment} {schCommNode : UInt8} {link : Link}

structure Expecting (rx : Receiver) (path : Path) (fileid : UInt16) (k : Nat) : Prop where
  fname : rx.fname = some path
  lastId : rx.lastId = fileid.toNat
  lastFrame : rx.lastFrame = k

def appended (files : Path → Option (List UInt8)) (path : Path) (bytes : List UInt8) :
    Path → Option (List UInt8) :=
  Function.update files path (some ((files path).getD [] ++ bytes))

theorem toNat_ofInt (n : Nat) : (UInt16.ofInt (n : Int)).toNat = n % 65536 := by
  simp only [UInt16.ofInt, UInt16.toNat_ofNat']
  omega

/-- Among the frames of its transfer a receiver accepts those whose number is
    the next one modulo the size of the field. -/
theorem target_eq {rx : Receiver} {path : Path} {fileid : UInt16} {k : Nat}
    (expecting : Expecting rx path fileid k) (opens : env.opens path) (i : Nat) (type : UInt8)
    (fileParts : Int) (data : List UInt8) :
    target env (fileFrame hostOrder schCommNode (i + 1 : Nat) type fileid fileParts data) rx =
      if k + 1 = (i + 1) % 65536 then some path else none := by
  have same : (k : Int) = ((i + 1) % 65536 : Nat) - 1 ↔ k + 1 = (i + 1) % 65536 := by omega
  simp only [target, expecting.fname, expecting.lastId, expecting.lastFrame, fileFrame,
    hostOrder, id, toNat_ofInt, ne_eq, same, not_true_eq_false, false_or]
  by_cases next : k + 1 = (i + 1) % 65536 <;> simp [next, opens]

def accepted (rx : Receiver) (path : Path) (fileid : UInt16) (data : List UInt8) (i : Nat) :
    Receiver :=
  if i < data.length / comFrameMaxLen then
    { fname := some path
      lastId := fileid.toNat
      lastFrame := ((i + 1) % 65536 : Nat)
      files := appended rx.files path (block comFrameMaxLen data i) }
  else
    { fname := none
      lastId := 0
      lastFrame := 0
      files := appended rx.files path (trimmed fill (block comFrameMaxLen data i)) }

theorem block_full {data : List UInt8} {i : Nat} (full : i < data.length / comFrameMaxLen) :
    (block comFrameMaxLen data i).length = comFrameMaxLen := by
  have := Nat.mul_le_mul_left comFrameMaxLen (Nat.succ_le_of_lt full)
  rw [Nat.mul_succ] at this
  have := Nat.mul_div_le data.length comFrameMaxLen
  rw [block, List.length_take, List.length_drop]
  omega

theorem write_bodyFrame {rx : Receiver} {path : Path} {fileid : UInt16} {k : Nat}
    (expecting : Expecting rx path fileid k) (data : List UInt8) (i : Nat) :
    closeFile (bodyFrame hostOrder schCommNode fileid data i)
        (writeFile (bodyFrame hostOrder schCommNode fileid data i) path rx) =
      accepted rx path fileid data i := by
  by_cases full : i < data.length / comFrameMaxLen
  · have text := padded_of_length fill (block_full full)
    have notEnd : tmTypeFileData ≠ tmTypeFileEnd := by decide
    have notPart : tmTypeFileData ≠ tmTypeFilePart := by decide
    simp only [closeFile, writeFile, written, bodyFrame, fileFrame, accepted, appended, full, text,
      expecting.fname, notEnd, notPart, false_or, false_and, ↓reduceIte, hostOrder, id, toNat_ofInt]
  · have text := trimmed_padded fill (block_length_le comFrameMaxLen data i)
    have notPart : tmTypeFileEnd ≠ tmTypeFilePart := by decide
    simp only [closeFile, writeFile, written, bodyFrame, fileFrame, accepted, appended, full, text,
      notPart, true_or, ↓reduceIte]

theorem bodyFrame_type (data : List UInt8) (i : Nat) :
    (if i < data.length / comFrameMaxLen then tmTypeFileData else tmTypeFileEnd) = tmTypeFileData ∨
      (if i < data.length / comFrameMaxLen then tmTypeFileData else tmTypeFileEnd) =
        tmTypeFileEnd := by
  split <;> simp

theorem receive_bodyFrame {rx : Receiver} {path : Path} {fileid : UInt16} {k : Nat}
    (expecting : Expecting rx path fileid k) (opens : env.opens path) (data : List UInt8) (i : Nat) :
    receive csp env rx (bodyFrame csp schCommNode fileid data i) =
      if k + 1 = (i + 1) % 65536 then some (some cmdOk, accepted rx path fileid data i)
      else some (some cmdError, rx) := by
  rw [bodyFrame, receive_body rx _ _ _ _ (bodyFrame_type data i), target_eq expecting opens]
  by_cases next : k + 1 = (i + 1) % 65536
  · simp only [next, ↓reduceIte]
    rw [← write_bodyFrame expecting data i]
    rfl
  · simp only [next, ↓reduceIte]

/-! Delivery in order. -/

theorem appended_appended (files : Path → Option (List UInt8)) (path : Path)
    (first second : List UInt8) :
    appended (appended files path first) path second = appended files path (first ++ second) := by
  simp [appended]

theorem deliver_bodyFrame {rx : Receiver} {path : Path} {fileid : UInt16} {i : Nat}
    (expecting : Expecting rx path fileid i) (opens : env.opens path) (data : List UInt8)
    (small : i + 1 < 65536) :
    deliver csp env rx (bodyFrame csp schCommNode fileid data i) =
      some (accepted rx path fileid data i) := by
  simp [deliver, receive_bodyFrame expecting opens, Nat.mod_eq_of_lt small]

def grown (files : Path → Option (List UInt8)) (path : Path) (data : List UInt8) (k : Nat) :
    Path → Option (List UInt8) :=
  if k = 0 then files else appended files path (data.take (comFrameMaxLen * k))

/-- What a complete transfer leaves in the file: the bytes that fill no frame
    lose their trailing fill bytes. -/
def received (data : List UInt8) : List UInt8 :=
  data.take (comFrameMaxLen * (data.length / comFrameMaxLen)) ++
    trimmed fill (data.drop (comFrameMaxLen * (data.length / comFrameMaxLen)))

theorem appended_grown (files : Path → Option (List UInt8)) (path : Path) (data : List UInt8)
    (k : Nat) (bytes : List UInt8) :
    appended (grown files path data k) path bytes =
      appended files path (data.take (comFrameMaxLen * k) ++ bytes) := by
  unfold grown
  split
  · rename_i zero
    simp [zero]
  · exact appended_appended files path _ _

theorem accepted_data {rx : Receiver} {files : Path → Option (List UInt8)} {path : Path}
    {data : List UInt8} {k : Nat} (content : rx.files = grown files path data k) (fileid : UInt16)
    (more : k < data.length / comFrameMaxLen) :
    (accepted rx path fileid data k).files = grown files path data (k + 1) := by
  simp only [accepted, more, ↓reduceIte, content, appended_grown, take_append_block]
  rw [grown, if_neg (Nat.succ_ne_zero k)]

theorem accepted_end {rx : Receiver} {files : Path → Option (List UInt8)} {path : Path}
    {data : List UInt8} (content : rx.files = grown files path data (data.length / comFrameMaxLen))
    (fileid : UInt16) :
    (accepted rx path fileid data (data.length / comFrameMaxLen)).files =
      appended files path (received data) := by
  have last : block comFrameMaxLen data (data.length / comFrameMaxLen) =
      data.drop (comFrameMaxLen * (data.length / comFrameMaxLen)) :=
    block_last (Nat.le_of_lt (Nat.lt_mul_div_succ _ (by decide)))
  simp only [accepted, Nat.lt_irrefl, ↓reduceIte, content, appended_grown, last, received]

theorem received_isPrefix_data (data : List UInt8) : received data <+: data := by
  have cut := trimmed_isPrefix_self fill (data.drop (comFrameMaxLen * (data.length / comFrameMaxLen)))
  simpa [received] using (List.prefix_append_right_inj
    (data.take (comFrameMaxLen * (data.length / comFrameMaxLen)))).mpr cut

theorem received_of_full {data : List UInt8} (full : data.length % comFrameMaxLen = 0) :
    received data = data := by
  have all : comFrameMaxLen * (data.length / comFrameMaxLen) = data.length :=
    Nat.mul_div_cancel' (Nat.dvd_of_mod_eq_zero full)
  simp [received, all, trimmed]

theorem grown_full (files : Path → Option (List UInt8)) (path : Path) {data : List UInt8}
    (present : data ≠ []) (full : data.length % comFrameMaxLen = 0) :
    grown files path data (data.length / comFrameMaxLen) =
      appended files path (received data) := by
  have all : comFrameMaxLen * (data.length / comFrameMaxLen) = data.length :=
    Nat.mul_div_cancel' (Nat.dvd_of_mod_eq_zero full)
  have pos : data.length / comFrameMaxLen ≠ 0 := by
    intro zero
    rw [zero, Nat.mul_zero] at all
    exact present (List.eq_nil_of_length_eq_zero all.symm)
  rw [grown, if_neg pos, all, received_of_full full, List.take_length]

theorem expecting_accepted {rx : Receiver} (path : Path) (fileid : UInt16) {data : List UInt8}
    {k : Nat} (more : k < data.length / comFrameMaxLen) (small : k + 1 < 65536) :
    Expecting (accepted rx path fileid data k) path fileid (k + 1) := by
  constructor <;> simp [accepted, more, Nat.mod_eq_of_lt small]

theorem run_data (csp : Csp) (schCommNode : UInt8) {rx : Receiver} {path : Path} {fileid : UInt16}
    (expecting : Expecting rx path fileid 0) (opens : env.opens path) {data : List UInt8} {k : Nat}
    (full : k ≤ data.length / comFrameMaxLen) (small : k < 65536) :
    ∃ rx', run (deliver csp env) rx
        ((List.range k).map (bodyFrame csp schCommNode fileid data)) = some rx' ∧
      Expecting rx' path fileid k ∧ rx'.files = grown rx.files path data k := by
  induction k with
  | zero => exact ⟨rx, rfl, expecting, by simp [grown]⟩
  | succ k ih =>
    obtain ⟨before, reached, expects, files⟩ := ih (by omega) (by omega)
    have stepped : deliver csp env before (bodyFrame csp schCommNode fileid data k) =
        some (accepted before path fileid data k) := deliver_bodyFrame expects opens data small
    refine ⟨accepted before path fileid data k, ?_, expecting_accepted path fileid full small,
      accepted_data files fileid full⟩
    rw [List.range_succ, List.map_append]
    exact run_trans reached (run_single stepped)

theorem run_body (csp : Csp) (schCommNode : UInt8) {rx : Receiver} {path : Path} {fileid : UInt16}
    (expecting : Expecting rx path fileid 0) (opens : env.opens path) {data : List UInt8}
    (present : data ≠ []) (small : blockCount comFrameMaxLen data.length < 65536) :
    ∃ rx', run (deliver csp env) rx (bodyFrames csp schCommNode fileid data) = some rx' ∧
      rx'.files = appended rx.files path (received data) := by
  have le : data.length / comFrameMaxLen ≤ blockCount comFrameMaxLen data.length :=
    Nat.le_add_right _ _
  obtain ⟨before, reached, expects, files⟩ := run_data csp schCommNode expecting opens
    (le_refl (data.length / comFrameMaxLen)) (by omega)
  by_cases full : data.length % comFrameMaxLen = 0
  · have count : blockCount comFrameMaxLen data.length = data.length / comFrameMaxLen := by
      simp [blockCount, full]
    refine ⟨before, by rw [bodyFrames, count]; exact reached, ?_⟩
    rw [files, grown_full rx.files path present full]
  · have count : blockCount comFrameMaxLen data.length = data.length / comFrameMaxLen + 1 := by
      simp [blockCount, full]
    have stepped : deliver csp env before
        (bodyFrame csp schCommNode fileid data (data.length / comFrameMaxLen)) =
        some (accepted before path fileid data (data.length / comFrameMaxLen)) :=
      deliver_bodyFrame expects opens data (by omega)
    refine ⟨accepted before path fileid data (data.length / comFrameMaxLen), ?_,
      accepted_end files fileid⟩
    rw [bodyFrames, count, List.range_succ, List.map_append]
    exact run_trans reached (run_single stepped)

theorem startFrames_short {name : CString} (short : strlen name < comFrameMaxLen) (fileid : UInt16)
    (n : Nat) :
    startFrames csp schCommNode fileid name n =
      [fileFrame csp schCommNode 0 tmTypeFileStart fileid (n / comFrameMaxLen + 1 : Nat)
        (name.chars ++ [0])] := by
  have length : (name.chars ++ [0]).length = strlen name + 1 := by simp [strlen]
  have fits : (name.chars ++ [0]).length ≤ comFrameMaxLen := by omega
  have one : blockCount comFrameMaxLen (name.chars ++ [0]).length = 1 :=
    blockCount_one (by decide) (by omega) fits
  rw [startFrames, blockFrames, one]
  simp [List.range_succ, block, List.take_of_length_le fits]

theorem transferFrames_head (csp : Csp) (schCommNode : UInt8) (fileid : UInt16) (name : CString)
    (data : List UInt8) :
    ∃ rest, transferFrames csp schCommNode fileid name data =
      fileFrame csp schCommNode 0 tmTypeFileStart fileid (data.length / comFrameMaxLen + 1 : Nat)
        (block comFrameMaxLen (name.chars ++ [0]) 0) :: rest := by
  have pos : 0 < blockCount comFrameMaxLen (name.chars ++ [0]).length := by
    rw [lt_blockCount_iff (by decide)]
    simp
  obtain ⟨count, eq⟩ := Nat.exists_eq_succ_of_ne_zero (Nat.ne_of_gt pos)
  rw [transferFrames, startFrames, blockFrames, eq, List.range_succ_eq_map]
  exact ⟨_, rfl⟩

def started (env : Environment) (rx : Receiver) (name : CString) (fileid : UInt16) : Receiver :=
  { rx with fname := some (startPath env rx.files fileid name.chars)
            lastId := fileid.toNat
            lastFrame := 0 }

theorem expecting_started (rx : Receiver) (name : CString) (fileid : UInt16) :
    Expecting (started env rx name fileid) (startPath env rx.files fileid name.chars) fileid 0 :=
  ⟨rfl, rfl, rfl⟩

theorem run_transferFrames (rx : Receiver) {name : CString} (short : strlen name < comFrameMaxLen)
    (fileid : UInt16) (data : List UInt8) :
    run (deliver csp env) rx (transferFrames csp schCommNode fileid name data) =
      run (deliver csp env) (started env rx name fileid)
        (bodyFrames csp schCommNode fileid data) := by
  have opened : deliver csp env rx (fileFrame csp schCommNode 0 tmTypeFileStart fileid
      (data.length / comFrameMaxLen + 1 : Nat) (name.chars ++ [0])) =
      some (started env rx name fileid) := by
    rw [deliver, receive_start rx name short]
    rfl
  rw [transferFrames, startFrames_short short, run_append, run_single opened, Option.bind_some]

theorem run_transfer (csp : Csp) (schCommNode : UInt8) (rx : Receiver) {name : CString}
    (short : strlen name < comFrameMaxLen) (fileid : UInt16) {data : List UInt8} (present : data ≠ [])
    (small : blockCount comFrameMaxLen data.length < 65536)
    (opens : env.opens (startPath env rx.files fileid name.chars)) :
    ∃ rx', run (deliver csp env) rx (transferFrames csp schCommNode fileid name data) = some rx' ∧
      rx'.files = appended rx.files (startPath env rx.files fileid name.chars) (received data) := by
  obtain ⟨rx', reached, files⟩ := run_body csp schCommNode (expecting_started rx name fileid)
    opens present small
  exact ⟨rx', (run_transferFrames rx short fileid data).trans reached, files⟩

/-! The round trip. -/

theorem received_eq_iff (data : List UInt8) :
    received data = data ↔
      data.length % comFrameMaxLen = 0 ∨ data.getLast? ≠ some fill := by
  by_cases full : data.length % comFrameMaxLen = 0
  · simp [received_of_full full, full]
  · have shorter : comFrameMaxLen * (data.length / comFrameMaxLen) < data.length := by
      have := Nat.div_add_mod data.length comFrameMaxLen
      omega
    have split : received data = data ↔
        trimmed fill (data.drop (comFrameMaxLen * (data.length / comFrameMaxLen))) =
          data.drop (comFrameMaxLen * (data.length / comFrameMaxLen)) := by
      rw [received]
      nth_rewrite 5 [← List.take_append_drop (comFrameMaxLen * (data.length / comFrameMaxLen)) data]
      exact List.append_right_inj _
    rw [split, trimmed_eq_self_iff, List.getLast?_drop, if_neg (by omega)]
    simp [full]

theorem fresh_of_absent {files : Path → Option (List UInt8)} {path : Path}
    (absent : accessible env files path = false) : files path = none := by
  simp only [accessible, Bool.or_eq_false_iff, Option.isSome_eq_false_iff,
    Option.isNone_iff_eq_none] at absent
  exact absent.2

/-- A file arrives as it was sent exactly when it fills its frames or its last
    byte is not the fill byte. -/
theorem file_round_trip_iff (up : link.Up) (rx : Receiver) {name : CString}
    (short : strlen name ≤ 191) (absent : accessible env rx.files (bname ++ name.chars) = false)
    (opens : env.opens (bname ++ name.chars)) {data : List UInt8} (present : 1 ≤ data.length)
    (small : blockCount comFrameMaxLen data.length < 65535) (fileid : UInt16) :
    (∃ rc frames rx', comSendFile csp schCommNode link name data fileid = some (rc, frames) ∧
        run (deliver csp env) rx frames = some rx' ∧
        rx'.files (bname ++ name.chars) = some data) ↔
      data.length % comFrameMaxLen = 0 ∨ data.getLast? ≠ some fill := by
  have path : startPath env rx.files fileid name.chars = bname ++ name.chars := by
    simp [startPath, absent]
  have fresh : rx.files (bname ++ name.chars) = none := fresh_of_absent absent
  have notEmpty : data ≠ [] := List.ne_nil_of_length_pos present
  obtain ⟨rx', reached, files⟩ := run_transfer csp schCommNode rx (Nat.lt_succ_of_le short)
    fileid notEmpty (by omega) (by rw [path]; exact opens)
  obtain ⟨rc, sent⟩ : ∃ rc, comSendFile csp schCommNode link name data fileid =
      some (rc, transferFrames csp schCommNode fileid name data) :=
    comSendFile_up up name fileid (bytes_lt_of_blockCount (by omega))
  have content : rx'.files (bname ++ name.chars) = some (received data) := by
    rw [files, path]
    simp [appended, fresh]
  rw [← received_eq_iff]
  constructor
  · rintro ⟨rc₁, frames, rx₁, sent₁, reached₁, content₁⟩
    rw [sent] at sent₁
    cases sent₁
    rw [reached] at reached₁
    cases reached₁
    exact Option.some.inj (content.symm.trans content₁)
  · intro same
    exact ⟨rc, _, rx', sent, reached, by rw [content, same]⟩

def plainLink : Link := ⟨true, fun _ => true, fun _ => true, true⟩

def plainEnvironment : Environment := ⟨fun _ => false, fun _ => true⟩

def nameA : CString := ⟨[97], by decide⟩

theorem plainLink_up : plainLink.Up := ⟨rfl, fun _ => rfl, fun _ => rfl, rfl⟩

theorem short_file_round_trip :
    (∃ rc frames rx', comSendFile hostOrder 1 plainLink nameA [1, 2, 3] 7 = some (rc, frames) ∧
        run (deliver hostOrder plainEnvironment) (initial fun _ => none) frames = some rx' ∧
        rx'.files (bname ++ nameA.chars) = some [1, 2, 3]) ↔
      [1, 2, 3].length % comFrameMaxLen = 0 ∨ ([1, 2, 3] : List UInt8).getLast? ≠ some fill :=
  file_round_trip_iff plainLink_up (initial fun _ => none) (by decide) rfl rfl (by decide)
    (by decide) 7

theorem fill_byte_lost :
    ∃ rc frames rx', comSendFile hostOrder 1 plainLink nameA [0xAA] 7 = some (rc, frames) ∧
      run (deliver hostOrder plainEnvironment) (initial fun _ => none) frames = some rx' ∧
      rx'.files (bname ++ nameA.chars) ≠ some [0xAA] :=
  ⟨_, _, _, rfl, rfl, by decide⟩

end FileTransfer
