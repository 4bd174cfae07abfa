import SuchaiFlight.RepoCommand

/-!
The parameter buffer of a command, for a text of any length that is handed to
`cmd_add_params_str` or comes after the name in `cmd_build_from_str`.
-/
namespace CommandParameters
open CStrings TextScan StorageApi RepoCommand

variable {F : Type}

def shortened (text : CString) : CString :=
  ⟨text.chars.take schCmdMaxStrParams, fun nul => text.noNul (List.mem_of_mem_take nul)⟩

/-- `NULL` for no text, or a buffer that holds the text up to the limit and its
    terminator. -/
def Proper (text : CString) (params : Option (List UInt8)) : Prop :=
  if strlen text = 0 then params = none
  else ∃ buffer, params = some buffer ∧ stringAt buffer = some (shortened text)

theorem shortened_of_le {text : CString} (short : strlen text ≤ schCmdMaxStrParams) :
    shortened text = text :=
  CString.ext (List.take_of_length_le short)

theorem stringAt_overlong {text : CString} (long : schCmdMaxStrParams < strlen text) :
    stringAt (charArray (schCmdMaxStrParams + 1) text) = none := by
  have full : schCmdMaxStrParams + 1 - strlen text = 0 := by omega
  rw [charArray, full, List.replicate_zero, List.append_nil, stringAt, if_neg]
  exact fun nul => text.noNul (List.mem_of_mem_take nul)

theorem proper_buffer_iff {text : CString} (filled : strlen text ≠ 0) {size : Nat}
    (copied : size = if schCmdMaxStrParams < strlen text then schCmdMaxStrParams
      else strlen text) :
    Proper text (some (charArray (size + 1) text)) ↔ strlen text ≤ schCmdMaxStrParams := by
  rw [Proper, if_neg filled]
  by_cases long : schCmdMaxStrParams < strlen text
  · rw [if_pos long] at copied
    subst copied
    constructor
    · intro ⟨buffer, same, held⟩
      obtain rfl := Option.some.inj same
      rw [stringAt_overlong long] at held
      cases held
    · intro short
      exact absurd short (Nat.not_le.mpr long)
  · rw [if_neg long] at copied
    have short : strlen text ≤ schCmdMaxStrParams := Nat.not_lt.mp long
    refine iff_of_true ⟨_, rfl, ?_⟩ short
    rw [shortened_of_le short]
    have held := stringAt_charArray (size + 1) text [] (by omega)
    rwa [List.append_nil] at held

theorem cmdAddParamsStr_some (cmd : Cmd F) (text : CString) :
    ∃ result, cmdAddParamsStr (some cmd) text = some result ∧
      (Proper text result.params ↔
        strlen text ≤ schCmdMaxStrParams ∧ (strlen text = 0 → cmd.params = none)) := by
  by_cases empty : strlen text = 0
  · refine ⟨cmd, by simp [cmdAddParamsStr, empty], ?_⟩
    rw [Proper, if_pos empty, empty]
    simp
  · have notZero : (if schCmdMaxStrParams < strlen text then schCmdMaxStrParams
        else strlen text) ≠ 0 := by
      split
      · decide
      · exact empty
    refine ⟨_, by rw [cmdAddParamsStr]; exact if_pos notZero, ?_⟩
    rw [proper_buffer_iff empty rfl]
    exact (and_iff_left fun zero => absurd zero empty).symm

def parameterText (buff : CString) : CString :=
  beyond isSpace (beyond wordChar (beyond isSpace buff))

theorem after_suffix {s t : CString} (suffix : t.chars <:+ s.chars) :
    after (strlen s - strlen t) s = t := by
  obtain ⟨before, same⟩ := suffix
  apply CString.ext
  have length : strlen s - strlen t = before.length := by
    rw [strlen, strlen, ← same, List.length_append]
    omega
  rw [chars_after, length, ← same, List.drop_left]

theorem parameterText_suffix (buff : CString) : (parameterText buff).chars <:+ buff.chars :=
  ((List.dropWhile_suffix _).trans (List.dropWhile_suffix _)).trans (List.dropWhile_suffix _)

theorem cmdBuildFromStr_some {cmdList : Nat → CmdList F} {buff : CString} {result : Cmd F}
    (built : cmdBuildFromStr cmdList buff = some result) :
    ∃ name cmd, cmdGetStr cmdList name = some cmd ∧
      cmdAddParamsStr (some cmd) (parameterText buff) = some result := by
  have scanned : sscanf [.word, .space, .count] buff =
      if strlen (leading wordChar (beyond isSpace buff)) = 0 then []
      else [.word (leading wordChar (beyond isSpace buff)),
        .count (strlen buff - strlen (parameterText buff))] := rfl
  have suffix := parameterText_suffix buff
  have text : (if strlen buff - strlen (parameterText buff) < strlen buff then
      after (strlen buff - strlen (parameterText buff)) buff else noText) =
        parameterText buff := by
    split
    · exact after_suffix suffix
    · rename_i full
      have shorter : strlen (parameterText buff) ≤ strlen buff := suffix.length_le
      have none_left : strlen (parameterText buff) = 0 := by omega
      exact (CString.ext (List.eq_nil_of_length_eq_zero none_left)).symm
  rw [cmdBuildFromStr, scanned] at built
  split_ifs at built with filled named
  simp only at built
  cases got : cmdGetStr cmdList (leading wordChar (beyond isSpace buff)) with
  | none =>
    rw [got] at built
    cases built
  | some cmd =>
    rw [got] at built
    simp only at built
    rw [← apply_ite (cmdAddParamsStr (some cmd)), text] at built
    exact ⟨_, cmd, got, built⟩

theorem cmdGetStr_params {cmdList : Nat → CmdList F} {name : CString} {cmd : Cmd F}
    (got : cmdGetStr cmdList name = some cmd) : cmd.params = none := by
  unfold cmdGetStr cmdGetIdx at got
  split at got
  · split at got
    · obtain rfl := Option.some.inj got
      rfl
    · cases got
  · cases got

/-- The parameters are a proper string for every text up to the limit, and for
    no longer one. -/
theorem params_proper_iff (cmdList : Nat → CmdList F) :
    (∀ (cmd : Cmd F) text, ∃ result, cmdAddParamsStr (some cmd) text = some result ∧
      (Proper text result.params ↔
        strlen text ≤ schCmdMaxStrParams ∧ (strlen text = 0 → cmd.params = none))) ∧
    ∀ buff result, cmdBuildFromStr cmdList buff = some result →
      (Proper (parameterText buff) result.params ↔
        strlen (parameterText buff) ≤ schCmdMaxStrParams) := by
  refine ⟨cmdAddParamsStr_some, fun buff result built => ?_⟩
  obtain ⟨name, cmd, got, added⟩ := cmdBuildFromStr_some built
  obtain ⟨result', added', proper⟩ := cmdAddParamsStr_some cmd (parameterText buff)
  obtain rfl := Option.some.inj (added.symm.trans added')
  rw [proper]
  exact and_iff_left fun _ => cmdGetStr_params got

def overlong : CString := ⟨List.replicate 249 97, by decide⟩

theorem overlong_not_proper :
    ∃ result, cmdBuildFromStr twoNames (rendered nullText overlong) = some result ∧
      ¬ Proper (parameterText (rendered nullText overlong)) result.params := by
  have word : Word nullText := ⟨by decide, List.all_eq_true.mp (by decide)⟩
  have start : Stops isSpace overlong := by decide
  have got : cmdGetStr twoNames nullText = some ⟨0, 0, noText, none, ()⟩ := rfl
  have text : parameterText (rendered nullText overlong) = overlong := by
    have begins : beyond isSpace (rendered nullText overlong) = rendered nullText overlong :=
      CString.ext (word.stops _).dropWhile
    rw [parameterText, begins, rendered, beyond_append word.chars (blank_stops_word _),
      beyond_append blank_isSpace start]
  obtain ⟨result, added, proper⟩ := cmdAddParamsStr_some ⟨0, 0, noText, none, ()⟩ overlong
  refine ⟨result, ?_, ?_⟩
  · rw [cmdBuildFromStr_args twoNames word start, got, added]
  · rw [text, proper]
    have long : strlen overlong = 249 := List.length_replicate
    intro short
    rw [long] at short
    exact absurd short.1 (by decide)

end CommandParameters
