import SuchaiFlight.FileFrames
import SuchaiFlight.FlightPlanCommands
import SuchaiFlight.Telecommands

/-!
Commands for another node: a console line `<node>: <command>` (`taskConsole.c`),
`com_send_cmd` and `com_send_tc` (`cmdCOM.c`), and the telecommand port at the
other end (`taskCommunications.c`).
-/
namespace RemoteCommands
open CStrings TextScan DecimalText StorageApi RepoCommand Telecommands FlightPlanCommands FileFrames

def schBuffMaxLen : Nat := 256
def schTrxPortTc : UInt8 := 10

def cut (n : Nat) (s : CString) : CString :=
  ⟨s.chars.take n, fun nul => s.noNul (List.mem_of_mem_take nul)⟩

def exitText : CString := ⟨[47, 101, 120, 105, 116], by decide⟩

def obcExitText : CString := ⟨[111, 98, 99, 95, 101, 120, 105, 116], by decide⟩

def comSendCmdText : CString :=
  ⟨[99, 111, 109, 95, 115, 101, 110, 100, 95, 99, 109, 100], by decide⟩

def colon : UInt8 := 58

/-- `console_read` on a line of the terminal, with the `len` that `taskConsole`
    passes. Without a colon `sscanf` returns 1 as well, and `next` stays 0. -/
def consoleRead (line : CString) : Option CString :=
  let len := schBuffMaxLen - 1
  let buffer := cut (len - 1) line
  if exitText.chars.isPrefixOf buffer.chars then some (cut (len - 1) obcExitText)
  else
    match sscanf [.int, .char colon, .space, .count] buffer with
    | [.int node] => (intOf node).map fun _ => buffer
    | [.int node, .count next] => do
      let node ← intOf node
      if next < len ∧ next ≠ 0 then
        let tmpBuff := cut (len - next) (after next buffer)
        return cut (len - 1) (rendered comSendCmdText (decimalText node.toInt ++ (blank ++ tmpBuff)))
      else return buffer
    | _ => some buffer

structure Transaction where
  node : UInt8
  port : UInt8
  data : List UInt8
  deriving DecidableEq

def comSendFmt : List Directive := [.int, .space, .count]

/-- The body that `com_send_cmd` and `com_send_tc_frame` share: a buffer of
    `size` zeros takes up to `limit` bytes. `transact` gives the result of
    `csp_transaction` and the byte of the reply. -/
def sendText (size limit : Nat) (transact : Transaction → Int32 × UInt8) (fmt : List Directive)
    (params : Option CString) (nparams : Nat) : Option (Int32 × Option Transaction) :=
  match params with
  | none => some (cmdSyntaxError, none)
  | some params =>
    let items := sscanf fmt params
    if assigned items + 1 ≠ nparams then some (cmdSyntaxError, none)
    else
      match items with
      | [.int node, .count next] =>
        if 1 < next then do
          let node ← intOf node
          let msg ← stringAt (charArray limit (after next params) ++ List.replicate (size - limit) 0)
          let sent : Transaction := ⟨node.toUInt32.toUInt8, schTrxPortTc, msg.chars⟩
          let (rc, rep) := transact sent
          return (if 0 < rc ∧ rep = 200 then cmdOk else cmdError, some sent)
        else some (cmdSyntaxError, none)
      | _ => none

/-- The text fills `msg` when it is long enough, and has no terminator then. -/
def comSendCmd := sendText schCmdMaxStrParams schCmdMaxStrParams

def comSendTcFrame := sendText comFrameMaxLen (comFrameMaxLen - 1)

/-! The texts between the two ends. -/

@[simp] theorem chars_cut (n : Nat) (s : CString) : (cut n s).chars = s.chars.take n := rfl

theorem cut_short {n : Nat} {s : CString} (short : strlen s ≤ n) : cut n s = s :=
  CString.ext (List.take_of_length_le short)

theorem strlen_append (s t : CString) : strlen (s ++ t) = strlen s + strlen t := by
  simp [strlen]

def remoteLine (node : Int) (frame : CString) : CString :=
  decimalText node ++ (oneChar colon (by decide) ++ (blank ++ frame))

def remoteParams (node : Int) (frame : CString) : CString := decimalText node ++ (blank ++ frame)

theorem decimalText_chars {i : Int} {b : UInt8} (mem : b ∈ (decimalText i).chars) :
    b = minus ∨ digit b := by
  unfold decimalText decimalInt at mem
  split at mem
  · rcases List.mem_cons.mp mem with sign | more
    · exact .inl sign
    · exact .inr (digit_of_mem_decimal more)
  · exact .inr (digit_of_mem_decimal mem)

theorem decimalText_no_exit (i : Int) (t : CString) :
    exitText.chars.isPrefixOf (decimalText i ++ t).chars = false := by
  have filled := decimalText_ne_nil i
  cases text : (decimalText i).chars with
  | nil => exact absurd text filled
  | cons b rest =>
    have other : b ≠ 47 := by
      rintro rfl
      rcases decimalText_chars (i := i) (by rw [text]; exact List.mem_cons_self) with sign | isDigit
      · cases sign
      · cases isDigit
    rw [chars_append, text]
    simp [exitText, List.isPrefixOf, Ne.symm other]

theorem intOf_toInt {node : Int} (low : -2147483648 ≤ node) (high : node < 2147483648) :
    ∃ n : Int32, intOf node = some n ∧ n.toInt = node := by
  refine ⟨Int32.ofInt node, if_pos ⟨low, high⟩, ?_⟩
  rw [Int32.toInt_ofInt_of_le (by simpa using low) (by simpa using high)]

theorem sscanf_remoteLine (node : Int) {frame : CString} (start : Stops isSpace frame) :
    sscanf [.int, .char colon, .space, .count] (remoteLine node frame) =
      [.int node, .count (strlen (decimalText node) + 2)] := by
  have colonStops : Stops digit (oneChar colon (by decide) ++ (blank ++ frame)) :=
    stops_append (List.cons_ne_nil _ _) (by decide)
  have position : strlen (remoteLine node frame) - strlen frame = strlen (decimalText node) + 2 := by
    simp only [remoteLine, strlen_append]
    simp only [strlen, oneChar, blank, List.length_singleton]
    omega
  unfold sscanf
  conv_lhs => arg 3; unfold remoteLine
  rw [scanFrom_int _ _ _ colonStops, scanFrom_char, scanFrom_space _ _ start]
  simp only [scanFrom, position]

theorem sscanf_remoteParams (node : Int) {frame : CString} (start : Stops isSpace frame) :
    sscanf comSendFmt (remoteParams node frame) =
      [.int node, .count (strlen (decimalText node) + 1)] := by
  have position :
      strlen (remoteParams node frame) - strlen frame = strlen (decimalText node) + 1 := by
    simp only [remoteParams, strlen_append]
    simp only [strlen, blank, List.length_singleton]
    omega
  unfold sscanf
  conv_lhs => arg 3; unfold remoteParams
  rw [comSendFmt, scanFrom_int _ _ _ (blank_stops_digit frame), scanFrom_space _ _ start]
  simp only [scanFrom, position]

theorem after_remoteParams (node : Int) (frame : CString) :
    after (strlen (decimalText node) + 1) (remoteParams node frame) = frame := by
  have split : remoteParams node frame = (decimalText node ++ blank) ++ frame :=
    (append_assoc _ _ _).symm
  have len : strlen (decimalText node) + 1 = strlen (decimalText node ++ blank) := by
    rw [strlen_append]
    rfl
  rw [split, len, after_append]

theorem after_remoteLine (node : Int) (frame : CString) :
    after (strlen (decimalText node) + 2) (remoteLine node frame) = frame := by
  have split : remoteLine node frame =
      (decimalText node ++ (oneChar colon (by decide) ++ blank)) ++ frame := by
    simp only [remoteLine, append_assoc]
  have len : strlen (decimalText node) + 2 =
      strlen (decimalText node ++ (oneChar colon (by decide) ++ blank)) := by
    simp only [strlen_append]
    rfl
  rw [split, len, after_append]

theorem decimalText_pos (i : Int) : 0 < strlen (decimalText i) :=
  List.length_pos_of_ne_nil (decimalText_ne_nil i)

theorem sendText_remoteParams {size limit : Nat} (transact : Transaction → Int32 × UInt8)
    {node : Int} {n : Int32} (known : intOf node = some n) {frame : CString}
    (start : Stops isSpace frame) (room : limit < size ∨ strlen frame < limit) :
    sendText size limit transact comSendFmt (some (remoteParams node frame)) 2 =
      let sent : Transaction := ⟨n.toUInt32.toUInt8, schTrxPortTc, frame.chars.take limit⟩
      some (if 0 < (transact sent).1 ∧ (transact sent).2 = 200 then cmdOk else cmdError,
        some sent) := by
  have pos := decimalText_pos node
  have text : stringAt (charArray limit frame ++ List.replicate (size - limit) 0) =
      some (cut limit frame) := by
    by_cases short : strlen frame < limit
    · rw [stringAt_charArray limit frame _ short, cut_short (by omega)]
    · obtain ⟨k, more⟩ : ∃ k, size - limit = k + 1 := ⟨size - limit - 1, by omega⟩
      have full : charArray limit frame = (cut limit frame).chars := by
        have none_ : limit - strlen frame = 0 := by omega
        simp [charArray, none_]
      rw [full, more, List.replicate_succ]
      exact stringAt_terminated (cut limit frame) _
  have several : 1 < strlen (decimalText node) + 1 := by omega
  simp only [sendText, sscanf_remoteParams node start, after_remoteParams, known, text]
  simp only [assigned, several, ↓reduceIte]
  rfl

theorem consoleRead_remoteLine {node : Int} (low : -2147483648 ≤ node) (high : node < 2147483648)
    {frame : CString} (start : Stops isSpace frame)
    (short : strlen (decimalText node) + strlen frame ≤ 240) :
    consoleRead (remoteLine node frame) = some (rendered comSendCmdText (remoteParams node frame)) := by
  obtain ⟨n, known, same⟩ := intOf_toInt low high
  have pos := decimalText_pos node
  have lineLength : strlen (remoteLine node frame) = strlen (decimalText node) + strlen frame + 2 := by
    simp only [remoteLine, strlen_append]
    simp only [strlen, oneChar, blank, List.length_singleton]
    omega
  have whole : cut 254 (remoteLine node frame) = remoteLine node frame := cut_short (by omega)
  have noExit : exitText.chars.isPrefixOf (remoteLine node frame).chars = false :=
    decimalText_no_exit node _
  have rest : cut (255 - (strlen (decimalText node) + 2)) frame = frame := cut_short (by omega)
  have sent : strlen (rendered comSendCmdText (remoteParams node frame)) ≤ 254 := by
    simp only [rendered, remoteParams, strlen_append]
    simp only [strlen, blank, comSendCmdText, List.length_cons, List.length_nil] at short ⊢
    omega
  have inside : strlen (decimalText node) + 2 < 255 ∧ strlen (decimalText node) + 2 ≠ 0 := by omega
  simp only [consoleRead, schBuffMaxLen, Nat.reduceSub, whole, noExit, Bool.false_eq_true,
    ↓reduceIte, sscanf_remoteLine node start, known, after_remoteLine, rest, same,
    Option.bind_eq_bind, Option.bind_some]
  rw [if_pos inside]
  exact congrArg some (cut_short sent)

/-- A line `<node>: <frame>` at the console of one node gives the node it names
    the commands that this would build at its own console from the parts of the
    frame between semicolons. -/
theorem remote_line_exact {F : Type} {ground : Nat → CmdList F} (named : Named ground)
    (ready : Registered ground comSendCmdText) (remote : Nat → CmdList F)
    (transact : Transaction → Int32 × UInt8) (node : Int) (low : -2147483648 ≤ node)
    (high : node < 2147483648) (frame : CString) (start : Stops isSpace frame)
    (short : strlen (decimalText node) + strlen frame ≤ 240) :
    ∃ buffer params rc sent,
      consoleRead (remoteLine node frame) = some buffer ∧
        cmdBuildFromStr ground buffer = commandOf ground comSendCmdText params ∧
        comSendCmd transact comSendFmt (some params) 2 = some (rc, some sent) ∧
        (rc = cmdOk ↔ 0 < (transact sent).1 ∧ (transact sent).2 = 200) ∧
        sent.node = (Int32.ofInt node).toUInt32.toUInt8 ∧ sent.port = schTrxPortTc ∧
        comReceiveTc remote schBuffMaxLen sent.data =
          some ((segments semicolon frame).filterMap (cmdBuildFromStr remote)) := by
  have known : intOf node = some (Int32.ofInt node) := if_pos ⟨low, high⟩
  have word : Word comSendCmdText := ready.word named (spaceless_of_all (by decide))
  have fits : strlen (remoteParams node frame) ≤ schCmdMaxStrParams := by
    simp only [remoteParams, strlen_append, schCmdMaxStrParams]
    simp only [strlen, blank, List.length_singleton] at short ⊢
    omega
  have params : Stops isSpace (remoteParams node frame) := decimalText_stops node _
  have room : schCmdMaxStrParams < schCmdMaxStrParams ∨ strlen frame < schCmdMaxStrParams := by
    simp only [schCmdMaxStrParams]
    omega
  have whole : frame.chars.take schCmdMaxStrParams = frame.chars :=
    List.take_of_length_le (by
      simp only [strlen] at short
      simp only [schCmdMaxStrParams]
      omega)
  refine ⟨_, remoteParams node frame, _, _, consoleRead_remoteLine low high start short,
    cmdBuildFromStr_rendered ground word params fits,
    sendText_remoteParams transact known start room, ?_, rfl, rfl, ?_⟩
  · rw [whole]
    split
    · rename_i acknowledged
      exact iff_of_true rfl acknowledged
    · rename_i refused
      exact iff_of_false (by decide) refused
  · have below : strlen frame < schBuffMaxLen := by
      simp only [schBuffMaxLen]
      omega
    rw [whole, comReceiveTc_eq, if_pos below]

def onlySend (_ : Nat) : CmdList Unit := ⟨2, noText, comSendCmdText, ()⟩

theorem onlySend_named : Named onlySend := fun _ _ => (by decide : comSendCmdText.chars ≠ [])

theorem remote_ping_exact :
    ∃ buffer params rc sent,
      consoleRead (remoteLine 10 (rendered pingText ⟨[53], by decide⟩)) = some buffer ∧
        cmdBuildFromStr onlySend buffer = commandOf onlySend comSendCmdText params ∧
        comSendCmd (fun _ => (1, 200)) comSendFmt (some params) 2 = some (rc, some sent) ∧
        comReceiveTc twoNames schBuffMaxLen sent.data =
          some ((segments semicolon (rendered pingText ⟨[53], by decide⟩)).filterMap
            (cmdBuildFromStr twoNames)) := by
  obtain ⟨buffer, params, rc, sent, read, built, result, -, -, -, received⟩ :=
    remote_line_exact onlySend_named ⟨0, by decide, rfl⟩ twoNames (fun _ => (1, 200)) 10
      (by decide) (by decide) (rendered pingText ⟨[53], by decide⟩) (by decide) (by decide)
  exact ⟨buffer, params, rc, sent, read, built, result, received⟩

/-- `com_send_tc` sends the first 191 bytes of a frame, whether or not it has
    more, and reports success all the same: the receiver has the whole frame
    exactly when it is no longer than that. -/
theorem tc_frame_cut {F : Type} (remote : Nat → CmdList F)
    (transact : Transaction → Int32 × UInt8) (node : Int) (low : -2147483648 ≤ node)
    (high : node < 2147483648) (frame : CString) (start : Stops isSpace frame) :
    ∃ rc sent,
      comSendTcFrame transact comSendFmt (some (remoteParams node frame)) 2 =
          some (rc, some sent) ∧
        (rc = cmdOk ↔ 0 < (transact sent).1 ∧ (transact sent).2 = 200) ∧
        sent.data = (cut 191 frame).chars ∧
        comReceiveTc remote schBuffMaxLen sent.data =
          some ((segments semicolon (cut 191 frame)).filterMap (cmdBuildFromStr remote)) ∧
        (sent.data = frame.chars ↔ strlen frame ≤ 191) := by
  have known : intOf node = some (Int32.ofInt node) := if_pos ⟨low, high⟩
  have below : strlen (cut 191 frame) < schBuffMaxLen := by
    have most : strlen (cut 191 frame) ≤ 191 := List.length_take_le 191 frame.chars
    simp only [schBuffMaxLen]
    omega
  refine ⟨_, _, sendText_remoteParams transact known start (.inl (by decide)), ?_, rfl,
    (comReceiveTc_eq remote schBuffMaxLen (cut 191 frame)).trans (if_pos below), ?_⟩
  · split
    · rename_i acknowledged
      exact iff_of_true rfl acknowledged
    · rename_i refused
      exact iff_of_false (by decide) refused
  · exact List.take_eq_self_iff _

theorem tc_ping_whole :
    ∃ rc sent,
      comSendTcFrame (fun _ => (1, 200)) comSendFmt (some (remoteParams 10 pingText)) 2 =
          some (rc, some sent) ∧ sent.data = pingText.chars := by
  obtain ⟨rc, sent, result, -, -, -, whole⟩ :=
    tc_frame_cut twoNames (fun _ => (1, 200)) 10 (by decide) (by decide) pingText (by decide)
  exact ⟨rc, sent, result, whole.mpr (by decide)⟩

end RemoteCommands
