import SuchaiFlight.RepoCommand

/-!
Telecommand frames in `taskCommunications.c`: the text of a packet is cut at
each semicolon and every piece that names a command is sent to the dispatcher.
-/
namespace Telecommands
open CStrings TextScan StorageApi SlotTable RepoCommand

variable {F : Type} (cmdList : Nat → CmdList F)

def semicolon : UInt8 := 59

def sendCommands (saved : CString) : List (Cmd F) :=
  match _found : strtok semicolon saved with
  | none => []
  | some (cmdStr, rest) =>
    match cmdBuildFromStr cmdList cmdStr with
    | some newCmd => newCmd :: sendCommands rest
    | none => sendCommands rest
termination_by strlen saved
decreasing_by all_goals exact strtok_shorter _found

/-- The packet is terminated behind its last byte and read as a string. In a CSP
    buffer with as many bytes as the packet there is no room for the terminator. -/
def comReceiveTc (room : Nat) (data : List UInt8) : Option (List (Cmd F)) :=
  if data.length < room then
    match stringAt (data ++ [0]) with
    | none => some []
    | some str => some (sendCommands cmdList str)
  else none

theorem sendCommands_eq (saved : CString) :
    sendCommands cmdList saved =
      (segments semicolon saved).filterMap (cmdBuildFromStr cmdList) := by
  fun_induction sendCommands cmdList saved with
  | case1 saved last => rw [segments_of_strtok_none last, List.filterMap_nil]
  | case2 saved cmdStr rest found newCmd built ih =>
    rw [segments_of_strtok_some found, List.filterMap_cons_some built, ih]
  | case3 saved cmdStr rest found rejected ih =>
    rw [segments_of_strtok_some found, List.filterMap_cons_none rejected, ih]

theorem comReceiveTc_eq (room : Nat) (frame : CString) :
    comReceiveTc cmdList room frame.chars =
      if strlen frame < room then
        some ((segments semicolon frame).filterMap (cmdBuildFromStr cmdList))
      else none := by
  unfold comReceiveTc
  rw [stringAt_terminated frame [], ← sendCommands_eq cmdList frame]
  rfl

/-! Frames that list commands. -/

structure Telecommand where
  name : CString
  params : CString

/-- The name can be scanned and found, and the parameters can be told apart
    from the name and from the next command. -/
structure Sound (tc : Telecommand) : Prop where
  registered : Registered cmdList tc.name
  name_spaceless : ∀ b ∈ tc.name.chars, isSpace b = false
  name_whole : semicolon ∉ tc.name.chars
  params_whole : semicolon ∉ tc.params.chars
  params_short : strlen tc.params ≤ schCmdMaxStrParams
  params_start : Stops isSpace tc.params

def frameOf (tcs : List Telecommand) : CString :=
  joined semicolon (by decide) (tcs.map fun tc => rendered tc.name tc.params)

variable {cmdList}

theorem Sound.word {tc : Telecommand} (sound : Sound cmdList tc) (named : Named cmdList) :
    Word tc.name := sound.registered.word named sound.name_spaceless

theorem rendered_whole {tc : Telecommand} (sound : Sound cmdList tc) :
    semicolon ∉ (rendered tc.name tc.params).chars := by
  intro mem
  rw [rendered, chars_append, chars_append] at mem
  rcases List.mem_append.mp mem with inName | rest
  · exact sound.name_whole inName
  · rcases List.mem_append.mp rest with inBlank | inParams
    · exact absurd inBlank (by decide)
    · exact sound.params_whole inParams

theorem rendered_ne_nil (name args : CString) : (rendered name args).chars ≠ [] := by
  simp [rendered, blank]

theorem segments_frameOf {tcs : List Telecommand} (sound : ∀ tc ∈ tcs, Sound cmdList tc) :
    segments semicolon (frameOf tcs) = tcs.map fun tc => rendered tc.name tc.params := by
  apply segments_joined
  · intro s mem
    obtain ⟨tc, inside, rfl⟩ := List.mem_map.mp mem
    exact rendered_whole (sound tc inside)
  · intro s mem
    obtain ⟨tc, -, rfl⟩ := List.mem_map.mp mem
    exact rendered_ne_nil tc.name tc.params

theorem commands_of_frame (named : Named cmdList) {tcs : List Telecommand}
    (sound : ∀ tc ∈ tcs, Sound cmdList tc) :
    ((segments semicolon (frameOf tcs)).filterMap (cmdBuildFromStr cmdList)).map some =
      tcs.map fun tc => commandOf cmdList tc.name tc.params := by
  rw [segments_frameOf sound, List.filterMap_map]
  induction tcs with
  | nil => rfl
  | cons tc tcs ih =>
    have here := sound tc List.mem_cons_self
    have built := cmdBuildFromStr_rendered cmdList (here.word named) here.params_start
      here.params_short
    obtain ⟨cmd, known⟩ := Option.isSome_iff_exists.mp
      (commandOf_isSome here.registered tc.params)
    have step : (cmdBuildFromStr cmdList ∘ fun tc => rendered tc.name tc.params) tc = some cmd :=
      built.trans known
    rw [List.filterMap_cons_some step, List.map_cons, List.map_cons, known,
      ih fun tc' mem => sound tc' (List.mem_cons_of_mem tc mem)]

def Segmented (cmdList : Nat → CmdList F) (room : Nat) (frame : CString) : Prop :=
  comReceiveTc cmdList room frame.chars =
    some ((segments semicolon frame).filterMap (cmdBuildFromStr cmdList))

def Listed (cmdList : Nat → CmdList F) (room : Nat) (tcs : List Telecommand) : Prop :=
  ∃ cmds, comReceiveTc cmdList room (frameOf tcs).chars = some cmds ∧
    cmds.map some = tcs.map fun tc => commandOf cmdList tc.name tc.params

/-- Every frame that leaves room for its terminator is split exactly, and no
    other frame is. -/
theorem telecommands_exact_iff (cmdList : Nat → CmdList F) (room : Nat) :
    (∀ frame : CString, Segmented cmdList room frame ↔ strlen frame < room) ∧
    (Named cmdList → ∀ tcs : List Telecommand, (∀ tc ∈ tcs, Sound cmdList tc) →
      (Listed cmdList room tcs ↔ strlen (frameOf tcs) < room)) := by
  constructor
  · intro frame
    rw [Segmented, comReceiveTc_eq]
    by_cases fits : strlen frame < room <;> simp [fits]
  · intro named tcs sound
    rw [Listed, comReceiveTc_eq]
    by_cases fits : strlen (frameOf tcs) < room
    · simp [fits, commands_of_frame named sound]
    · simp [fits]

def pingAndNull : List Telecommand := [⟨pingText, ⟨[49, 48], by decide⟩⟩, ⟨nullText, noText⟩]

theorem pingAndNull_sound : ∀ tc ∈ pingAndNull, Sound twoNames tc := by
  intro tc mem
  simp only [pingAndNull, List.mem_cons, List.not_mem_nil, or_false] at mem
  rcases mem with rfl | rfl
  · exact ⟨⟨1, by decide, rfl⟩, spaceless_of_all (by decide), by decide, by decide, by decide,
      by decide⟩
  · exact ⟨⟨0, by decide, rfl⟩, spaceless_of_all (by decide), by decide, by decide, by decide,
      by decide⟩

theorem telecommands_exact_two :
    Segmented twoNames 256 (frameOf pingAndNull) ∧ Listed twoNames 256 pingAndNull := by
  have exact := telecommands_exact_iff twoNames 256
  exact ⟨(exact.1 (frameOf pingAndNull)).mpr (by decide),
    (exact.2 twoNames_named pingAndNull pingAndNull_sound).mpr (by decide)⟩

def letters : CString :=
  ⟨List.replicate 245 65, fun nul => absurd (List.eq_of_mem_replicate nul) (by decide)⟩

def fullFrame : List Telecommand := [⟨nullText, noText⟩, ⟨nullText, letters⟩]

theorem letters_stops : Stops isSpace letters := by decide

theorem fullFrame_sound : ∀ tc ∈ fullFrame, Sound twoNames tc := by
  intro tc mem
  simp only [fullFrame, List.mem_cons, List.not_mem_nil, or_false] at mem
  have whole : semicolon ∉ letters.chars := fun inside =>
    absurd (List.eq_of_mem_replicate inside) (by decide)
  have short : strlen letters ≤ schCmdMaxStrParams := by
    rw [strlen, letters, List.length_replicate]
    decide
  rcases mem with rfl | rfl
  · exact ⟨⟨0, by decide, rfl⟩, spaceless_of_all (by decide), by decide, by decide, by decide,
      by decide⟩
  · exact ⟨⟨0, by decide, rfl⟩, spaceless_of_all (by decide), by decide, whole, short,
      letters_stops⟩

theorem full_buffer_overrun :
    (∀ tc ∈ fullFrame, Sound twoNames tc) ∧ strlen (frameOf fullFrame) = 256 ∧
      comReceiveTc twoNames 256 (frameOf fullFrame).chars = none ∧
      ¬ Segmented twoNames 256 (frameOf fullFrame) ∧ ¬ Listed twoNames 256 fullFrame := by
  have length : strlen (frameOf fullFrame) = 256 := by decide +kernel
  have none_ : comReceiveTc twoNames 256 (frameOf fullFrame).chars = none := by
    rw [comReceiveTc_eq, length]
    rfl
  refine ⟨fullFrame_sound, length, none_, ?_, ?_⟩
  · rw [Segmented, none_]
    nofun
  · rintro ⟨cmds, received, -⟩
    rw [none_] at received
    cases received

end Telecommands
