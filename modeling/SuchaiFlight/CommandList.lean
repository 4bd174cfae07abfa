import Mathlib.Data.List.Flatten
import SuchaiFlight.CommandRegistry
import SuchaiFlight.StatusCommands
import SuchaiFlight.StatusTelemetry

/-!
The list of commands as telemetry: `cmd_save_all` of `repoCommand.c` writes the
registered names into one text, `tm_send_cmds` sends it, and `tm_parse_string`
prints each frame as a text of its own. The end of the text is not sent.
-/
namespace CommandList
open CStrings RepoCommand CommandRegistry FileFrames TelemetryFrames TelemetryTransfer
open StatusTelemetry PayloadData Blocks ByteOrder StatusCommands

variable {F : Type}

/-- A `strncpy` of as many bytes as there are. Outside of the block it has no
    result. -/
def copyTo (block : List UInt8) (offset : Nat) (bytes : List UInt8) : Option (List UInt8) :=
  if offset + bytes.length ≤ block.length then some (overwrite block offset bytes) else none

def newline : List UInt8 := [10]

def copyNames : List CString → Nat → List UInt8 → Option (List UInt8)
  | [], _, cmdsList => some cmdsList
  | name :: rest, lenCnt, cmdsList => do
    let cmdsList ← copyTo cmdsList lenCnt name.chars
    let cmdsList ← copyTo cmdsList (lenCnt + strlen name) newline
    copyNames rest (lenCnt + strlen name + 1) cmdsList

def names (r : CmdRepo F) : List CString :=
  (List.range r.cmdIndex).map fun i => (r.cmdList i).name

def namesLen (list : List CString) : Nat := (list.map fun name => strlen name + 1).sum

/-- `cmd_save_all`, as the string that its result points to. -/
def cmdSaveAll (r : CmdRepo F) : Option CString := do
  let cmdsList ← copyNames (names r) 0 (List.replicate (namesLen (names r) + 1) 0)
  stringAt cmdsList

def tmSendCmds (host : Host) (schCommNode : UInt8) (link : Link) (fresh : Nat → ComFrame)
    (r : CmdRepo F) (node : Option Int32) : Option (Int32 × List (List UInt8)) :=
  match node with
  | none => some (cmdSyntaxError, [])
  | some _ => do
    let cmdsList ← cmdSaveAll r
    comSendData host schCommNode link fresh cmdsList.chars tmTypeHelp 1 0

/-- The text that is printed. The block that is cleared has as many bytes as the
    text, and as many are cleared as the text from the second byte on has. -/
def tmParseString (frame : ComFrame) : Option (Int32 × CString) := do
  let cmdsList ← stringAt frame.data
  let cleared ← stringAt (frame.data.drop 1)
  if strlen cleared ≤ strlen cmdsList then return (cmdOk, cmdsList) else none

def receiveStrings (host : Host) (m : DataMap) : List (List UInt8) → Option (List (Int32 × CString))
  | [] => some []
  | packet :: packets =>
    match comReceiveTm host m packet with
    | some (some (.tmParseString frame)) => do
      let answer ← tmParseString frame
      let answers ← receiveStrings host m packets
      return answer :: answers
    | _ => none

def listing (defs : List (Registration F)) : List UInt8 :=
  defs.flatMap fun d => d.name.chars ++ newline

/-- Every frame is printed, and together they are the names of the commands. -/
def RoundTrip (sender receiver : Host) (m : DataMap) (schCommNode : UInt8) (link : Link)
    (fresh : Nat → ComFrame) (r : CmdRepo F) (defs : List (Registration F)) (node : Int32) : Prop :=
  ∃ rc packets answers,
    tmSendCmds sender schCommNode link fresh r (some node) = some (rc, packets) ∧
    receiveStrings receiver m packets = some answers ∧
    answers.flatMap (fun answer => answer.2.chars) = listing defs

def cmdDrpInit : List CString :=
  [⟨ascii "drp_ebf", by decide⟩,
   ⟨ascii "drp_reset_payload", by decide⟩,
   ⟨ascii "drp_reset_status", by decide⟩,
   ⟨ascii "drp_print_vars", by decide⟩,
   ⟨ascii "drp_set_var", by decide⟩,
   ⟨ascii "drp_set_var_name", by decide⟩,
   ⟨ascii "drp_get_var_name", by decide⟩,
   ⟨ascii "drp_add_hrs_alive", by decide⟩,
   ⟨ascii "drp_clear_gnd_wdt", by decide⟩]

/-- The names that `cmd_tm_init` registers on every target. -/
def cmdTmInit : List CString :=
  [⟨ascii "tm_parse_status", by decide⟩,
   ⟨ascii "tm_parse_string", by decide⟩,
   ⟨ascii "tm_send_status", by decide⟩,
   ⟨ascii "tm_send_var", by decide⟩,
   ⟨ascii "tm_get_last", by decide⟩,
   ⟨ascii "tm_get_single", by decide⟩,
   ⟨ascii "tm_send_last", by decide⟩,
   ⟨ascii "tm_send_all", by decide⟩,
   ⟨ascii "tm_send_n", by decide⟩,
   ⟨ascii "tm_parse_payload", by decide⟩,
   ⟨ascii "tm_set_ack", by decide⟩,
   ⟨ascii "tm_send_cmds", by decide⟩,
   ⟨ascii "tm_send_fp", by decide⟩,
   ⟨ascii "tm_print_fp", by decide⟩]

/-! The text of the list. -/

section Text
variable {r : CmdRepo F} {defs : List (Registration F)}

def lines (list : List CString) : List UInt8 := list.flatMap fun name => name.chars ++ newline

theorem copyTo_zeros (text : List UInt8) {bytes : List UInt8} {k : Nat} (fits : bytes.length ≤ k) :
    copyTo (text ++ List.replicate k 0) text.length bytes =
      some (text ++ bytes ++ List.replicate (k - bytes.length) 0) := by
  unfold copyTo overwrite
  rw [if_pos (by rw [List.length_append, List.length_replicate]; omega), List.take_left,
    List.drop_append, List.drop_of_length_le (by omega), List.nil_append, List.drop_replicate]
  congr 3
  omega

theorem copyNames_eq (rest : List CString) (text : List UInt8) {k : Nat}
    (fits : namesLen rest ≤ k) :
    copyNames rest text.length (text ++ List.replicate k 0) =
      some (text ++ lines rest ++ List.replicate (k - namesLen rest) 0) := by
  induction rest generalizing text k with
  | nil => simp [copyNames, lines, namesLen]
  | cons name rest ih =>
    have counted : namesLen (name :: rest) = strlen name + 1 + namesLen rest := rfl
    have one : newline.length = 1 := rfl
    have first : copyTo (text ++ List.replicate k 0) text.length name.chars =
        some (text ++ name.chars ++ List.replicate (k - strlen name) 0) :=
      copyTo_zeros text (show strlen name ≤ k by omega)
    have place : text.length + strlen name = (text ++ name.chars).length := List.length_append.symm
    have second : copyTo (text ++ name.chars ++ List.replicate (k - strlen name) 0)
        (text.length + strlen name) newline =
        some (text ++ name.chars ++ newline ++ List.replicate (k - strlen name - 1) 0) := by
      rw [place]
      exact copyTo_zeros (text ++ name.chars) (show newline.length ≤ k - strlen name by omega)
    have next : text.length + strlen name + 1 = (text ++ name.chars ++ newline).length := by
      simp only [place, List.length_append, one]
    have further := ih (text ++ name.chars ++ newline)
      (show namesLen rest ≤ k - strlen name - 1 by omega)
    have left : k - strlen name - 1 - namesLen rest = k - namesLen (name :: rest) := by omega
    unfold copyNames
    simp only [first, second, Option.bind_eq_bind, Option.bind_some, next, further, left]
    simp only [lines, List.flatMap_cons, List.append_assoc]

theorem names_eq (holds : CommandRegistry.Holds r defs) :
    names r = defs.map Registration.name := by
  unfold names
  rw [holds.count]
  apply List.ext_getElem
  · simp
  · intro i bound bound'
    rw [List.length_map] at bound'
    simp [holds.entries i bound', Registration.entry]

theorem newline_ne : (0 : UInt8) ∉ newline := by decide

theorem listing_noNul (defs : List (Registration F)) : (0 : UInt8) ∉ listing defs := by
  intro mem
  obtain ⟨d, -, inside⟩ := List.mem_flatMap.mp mem
  rcases List.mem_append.mp inside with name | last
  · exact d.name.noNul name
  · exact newline_ne last

theorem cmdSaveAll_eq (holds : CommandRegistry.Holds r defs) :
    cmdSaveAll r = some ⟨listing defs, listing_noNul defs⟩ := by
  have copied := copyNames_eq (names r) [] (Nat.le_succ (namesLen (names r)))
  have text : lines (names r) = listing defs := by
    rw [names_eq holds, lines, List.flatMap_map]
    rfl
  rw [text, List.nil_append, List.nil_append, List.length_nil, Nat.succ_sub (Nat.le_refl _),
    Nat.sub_self] at copied
  unfold cmdSaveAll
  simp only [copied, Option.bind_eq_bind, Option.bind_some]
  exact stringAt_terminated ⟨listing defs, listing_noNul defs⟩ []

end Text

/-! What is printed. -/

section Printed
variable (sender receiver : Host) (m : DataMap) (schCommNode : UInt8) (fresh : Nat → ComFrame)
variable {link : Link} {r : CmdRepo F} {defs : List (Registration F)}

theorem tmParseString_iff {frame : ComFrame} (text : CString) (filled : text.chars ≠ []) :
    tmParseString frame = some (cmdOk, text) ↔ ∃ rest, frame.data = text.chars ++ 0 :: rest := by
  constructor
  · intro printed
    unfold tmParseString at printed
    cases read : stringAt frame.data with
    | none => simp [read] at printed
    | some cmdsList =>
      cases second : stringAt (frame.data.drop 1) with
      | none =>
        simp only [read, second, Option.bind_eq_bind, Option.bind_some, Option.bind_none,
          reduceCtorEq] at printed
      | some cleared =>
        simp only [read, second, Option.bind_eq_bind, Option.bind_some,
          Option.ite_none_right_eq_some, Option.pure_def, Option.some.injEq, Prod.mk.injEq,
          true_and] at printed
        exact stringAt_eq_some.mp (printed.2 ▸ read)
  · rintro ⟨rest, data⟩
    obtain ⟨c, chars, shape⟩ := List.exists_cons_of_ne_nil filled
    have inside : (0 : UInt8) ∉ chars := fun nul => text.noNul (shape ▸ List.mem_cons_of_mem c nul)
    have first : stringAt frame.data = some text := stringAt_eq_some.mpr ⟨rest, data⟩
    have second : stringAt (frame.data.drop 1) = some ⟨chars, inside⟩ := by
      rw [data, shape]
      exact stringAt_terminated ⟨chars, inside⟩ rest
    have shorter : strlen ⟨chars, inside⟩ ≤ strlen text := by
      rw [strlen, strlen, shape, List.length_cons]
      exact Nat.le_succ _
    simp only [tmParseString, first, second, Option.bind_eq_bind, Option.bind_some, shorter,
      if_true, Option.pure_def]

theorem tmParseString_unterminated {frame : ComFrame} (open_ : (0 : UInt8) ∉ frame.data) :
    tmParseString frame = none := by
  simp [tmParseString, stringAt, open_]

theorem receive_textPacket (i nframe n : Nat) (data : List UInt8) :
    ∃ frame, comReceiveTm receiver m (image sender.order
        (dataFrame sender schCommNode fresh i nframe n tmTypeHelp data)) =
        some (some (.tmParseString frame)) ∧
      frame.data = data.take comFrameMaxLen ++
        (fresh i).data.drop (data.take comFrameMaxLen).length := by
  unfold comReceiveTm
  rw [frameAt_image]
  exact ⟨_, rfl, rfl⟩

theorem tmSendCmds_up (up : link.Up) (holds : CommandRegistry.Holds r defs)
    (some_text : listing defs ≠ []) (node : Int32) :
    tmSendCmds sender schCommNode link fresh r (some node) =
      some (cmdOk, dataPackets sender schCommNode fresh tmTypeHelp 1 0 0 (listing defs)) := by
  have other : tmTypeHelp ≠ tmTypePayload := by decide
  have filled : (listing defs).length ≠ 0 := (List.length_pos_of_ne_nil some_text).ne'
  simp only [tmSendCmds, cmdSaveAll_eq holds, Option.bind_eq_bind, Option.bind_some, comSendData,
    other, false_and, if_false, up.connects, Bool.not_true, Bool.false_eq_true, filled,
    sendDataLoop_up up other _ le_rfl, some_text, up.closes, Bool.and_self, if_true]

theorem receiveStrings_cons {packet : List UInt8} {frame : ComFrame}
    (received : comReceiveTm receiver m packet = some (some (.tmParseString frame)))
    (packets : List (List UInt8)) :
    receiveStrings receiver m (packet :: packets) = do
      let answer ← tmParseString frame
      let answers ← receiveStrings receiver m packets
      return answer :: answers := by
  rw [receiveStrings, received]

theorem data_terminated_iff {data stale : List UInt8} (short : data.length ≤ comFrameMaxLen) :
    (∃ rest, data.take comFrameMaxLen ++ stale.drop (data.take comFrameMaxLen).length =
      data ++ 0 :: rest) ↔ stale[data.length]? = some 0 := by
  rw [List.take_of_length_le short]
  constructor
  · rintro ⟨rest, same⟩
    have tail : stale.drop data.length = 0 :: rest := List.append_cancel_left same
    have head : (stale.drop data.length)[0]? = some 0 := by rw [tail, List.getElem?_cons_zero]
    rwa [List.getElem?_drop, Nat.add_zero] at head
  · intro zero
    obtain ⟨inside, value⟩ := List.getElem?_eq_some_iff.mp zero
    exact ⟨stale.drop (data.length + 1), by rw [List.drop_eq_getElem_cons inside, value]⟩

theorem receiveStrings_full (long : comFrameMaxLen ≤ (listing defs).length) :
    receiveStrings receiver m
      (dataPackets sender schCommNode fresh tmTypeHelp 1 0 0 (listing defs)) = none := by
  have some_text : listing defs ≠ [] :=
    List.ne_nil_of_length_pos (Nat.lt_of_lt_of_le (by decide) long)
  obtain ⟨frame, received, data⟩ := receive_textPacket sender receiver m schCommNode fresh 0 0 1
    (listing defs)
  have whole : frame.data = (listing defs).take comFrameMaxLen := by
    rw [data, List.length_take, Nat.min_eq_left long, List.drop_of_length_le
      (Nat.le_of_eq (fresh 0).size), List.append_nil]
  have unterminated : (0 : UInt8) ∉ frame.data := by
    rw [whole]
    exact fun nul => listing_noNul defs (List.mem_of_mem_take nul)
  rw [dataPackets_step sender schCommNode fresh tmTypeHelp 1 0 0 some_text,
    receiveStrings_cons receiver m received, tmParseString_unterminated unterminated]
  rfl

theorem receiveStrings_single (short : (listing defs).length < comFrameMaxLen)
    (some_text : listing defs ≠ []) :
    ∃ frame, receiveStrings receiver m
        (dataPackets sender schCommNode fresh tmTypeHelp 1 0 0 (listing defs)) =
        (tmParseString frame).map (fun answer => [answer]) ∧
      frame.data = (listing defs).take comFrameMaxLen ++
        (fresh 0).data.drop ((listing defs).take comFrameMaxLen).length := by
  obtain ⟨frame, received, data⟩ := receive_textPacket sender receiver m schCommNode fresh 0 0 1
    (listing defs)
  have none : (listing defs).drop comFrameMaxLen = [] := List.drop_of_length_le (Nat.le_of_lt short)
  refine ⟨frame, ?_, data⟩
  rw [dataPackets_step sender schCommNode fresh tmTypeHelp 1 0 0 some_text,
    receiveStrings_cons receiver m received, none]
  cases tmParseString frame with
  | none => rfl
  | some answer => rfl

theorem tmParseString_ok {frame : ComFrame} {answer : Int32 × CString}
    (printed : tmParseString frame = some answer) : answer.1 = cmdOk := by
  unfold tmParseString at printed
  cases read : stringAt frame.data with
  | none => simp [read] at printed
  | some cmdsList =>
    simp only [read, Option.bind_eq_bind, Option.bind_some, Option.bind_eq_some_iff,
      Option.ite_none_right_eq_some, Option.pure_def, Option.some.injEq] at printed
    obtain ⟨cleared, -, -, rfl⟩ := printed
    rfl

theorem listing_eq_nil : listing defs = [] ↔ defs = [] := by
  cases defs with
  | nil => simp [listing]
  | cons d rest => simp [listing, newline]

theorem roundTrip_iff (up : link.Up) (holds : CommandRegistry.Holds r defs)
    (some_text : listing defs ≠ []) (node : Int32) :
    RoundTrip sender receiver m schCommNode link fresh r defs node ↔
      (fresh 0).data[(listing defs).length]? = some 0 := by
  have sent := tmSendCmds_up sender schCommNode fresh up holds some_text node
  rcases Nat.lt_or_ge (listing defs).length comFrameMaxLen with short | long
  · obtain ⟨frame, received, data⟩ := receiveStrings_single sender receiver m schCommNode
      fresh short some_text
    rw [← data_terminated_iff (Nat.le_of_lt short), ← data,
      ← tmParseString_iff ⟨listing defs, listing_noNul defs⟩ some_text]
    constructor
    · rintro ⟨rc, packets, answers, send, receive, same⟩
      obtain ⟨-, rfl⟩ := Prod.mk.inj (Option.some.inj (sent.symm.trans send))
      obtain ⟨answer, printed, rfl⟩ := Option.map_eq_some_iff.mp (received.symm.trans receive)
      rw [List.flatMap_singleton] at same
      have text : answer = (cmdOk, ⟨listing defs, listing_noNul defs⟩) := by
        obtain ⟨rc', ⟨chars, noNul⟩⟩ := answer
        have ok : rc' = cmdOk := tmParseString_ok printed
        simp only at same
        subst ok same
        rfl
      rw [printed, text]
    · intro printed
      exact ⟨_, _, _, sent, by rw [received, printed, Option.map_some], by
        rw [List.flatMap_singleton]⟩
  · have beyond : (fresh 0).data[(listing defs).length]? = none :=
      List.getElem?_eq_none (by rw [(fresh 0).size]; exact long)
    have full := receiveStrings_full sender receiver m schCommNode fresh long
    constructor
    · rintro ⟨rc, packets, answers, send, receive, -⟩
      obtain ⟨-, rfl⟩ := Prod.mk.inj (Option.some.inj (sent.symm.trans send))
      rw [full] at receive
      exact absurd receive nofun
    · intro zero
      rw [beyond] at zero
      exact absurd zero nofun

theorem roundTrip_empty (up : link.Up) (holds : CommandRegistry.Holds r []) (node : Int32) :
    RoundTrip sender receiver m schCommNode link fresh r [] node := by
  have other : tmTypeHelp ≠ tmTypePayload := by decide
  refine ⟨cmdError, [], [], ?_, rfl, rfl⟩
  simp [tmSendCmds, cmdSaveAll_eq holds, comSendData, other, up.connects, sendDataLoop, listing]

theorem listing_lines : listing defs = lines (defs.map Registration.name) := by
  rw [lines, List.flatMap_map]
  rfl

theorem builtIn_length : comFrameMaxLen < (lines (cmdDrpInit ++ cmdTmInit)).length := by
  decide +kernel

theorem listing_long (registered : (cmdDrpInit ++ cmdTmInit).Sublist (defs.map Registration.name)) :
    comFrameMaxLen < (listing defs).length := by
  rw [listing_lines]
  exact Nat.lt_of_lt_of_le builtIn_length
    (registered.flatMap fun name => name.chars ++ newline).length_le

/-- The list of the commands arrives exactly where the buffer of the frame has a
    zero behind the text. With the built-in commands it never arrives. -/
theorem command_list_arrives_iff (up : link.Up) (holds : CommandRegistry.Holds r defs)
    (node : Int32) :
    (RoundTrip sender receiver m schCommNode link fresh r defs node ↔
      defs = [] ∨ (fresh 0).data[(listing defs).length]? = some 0) ∧
    ((cmdDrpInit ++ cmdTmInit).Sublist (defs.map Registration.name) →
      ¬ RoundTrip sender receiver m schCommNode link fresh r defs node) := by
  constructor
  · by_cases none : defs = []
    · subst none
      exact iff_of_true (roundTrip_empty sender receiver m schCommNode fresh up holds node)
        (.inl rfl)
    · rw [roundTrip_iff sender receiver m schCommNode fresh up holds (mt listing_eq_nil.mp none)]
      exact ⟨.inr, fun either => either.resolve_left none⟩
  · intro registered arrives
    have long := listing_long registered
    have some_text : listing defs ≠ [] := List.ne_nil_of_length_pos (Nat.zero_lt_of_lt long)
    have zero := (roundTrip_iff sender receiver m schCommNode fresh up holds some_text
      node).mp arrives
    rw [List.getElem?_eq_none (by rw [(fresh 0).size]; exact Nat.le_of_lt long)] at zero
    exact absurd zero nofun

end Printed

section Simple
open FileTransfer StorageApi

def builtIn : List (Registration Nat) :=
  (cmdDrpInit ++ cmdTmInit).map fun name => ⟨name, 1, noText, 0⟩

def blankRepo : CmdRepo Nat := ⟨fun _ => ⟨0, noText, noText, 0⟩, 0, true⟩

theorem one_command_arrives :
    (∃ r, cmdRepoInit [⟨pingText, 1, noText, 0⟩] 0 blankRepo = some (cmdOk, r) ∧
      RoundTrip (standardHost .little) (standardHost .little) (oneSensor 12) 1 plainLink
        (fun _ => blankFrame) r [⟨pingText, 1, noText, 0⟩] 10) ∧
    ∃ r, cmdRepoInit builtIn 0 blankRepo = some (cmdOk, r) ∧
      ¬ RoundTrip (standardHost .little) (standardHost .little) (oneSensor 12) 1 plainLink
        (fun _ => blankFrame) r builtIn 10 := by
  constructor
  · obtain ⟨r, init, registry⟩ := cmdRepoInit_registry [⟨pingText, 1, noText, 0⟩] 0 blankRepo
      (by decide)
    exact ⟨r, init, (command_list_arrives_iff (standardHost .little) (standardHost .little)
      (oneSensor 12) 1 (fun _ => blankFrame) plainLink_up registry.toHolds
      10).1.mpr (.inr (by decide))⟩
  · obtain ⟨r, init, registry⟩ := cmdRepoInit_registry builtIn 0 blankRepo (by decide)
    have names : cmdDrpInit ++ cmdTmInit = builtIn.map Registration.name := by
      rw [builtIn, List.map_map]
      exact (List.map_id _).symm
    exact ⟨r, init, (command_list_arrives_iff (standardHost .little) (standardHost .little)
      (oneSensor 12) 1 (fun _ => blankFrame) plainLink_up registry.toHolds
      10).2 (names ▸ List.Sublist.refl _)⟩

end Simple

end CommandList
