import SuchaiFlight.Library.Scan
import SuchaiFlight.Library.SlotTable
import SuchaiFlight.StorageApi

/-!
The command repository of `repoCommand.c`: the registry of
`SCH_CMD_MAX_ENTRIES` commands, the construction of a command by name, and its
parameter text. `F` stands for the addresses of command functions.
-/
namespace RepoCommand
open CStrings TextScan StorageApi SlotTable

def schCmdMaxEntries : Nat := 255

def cmdOk : Int32 := 1
def cmdError : Int32 := 0
def cmdSyntaxError : Int32 := -1

structure CmdList (F : Type) where
  nparams : Int32
  fmt : CString
  name : CString
  function : F

/-- A command on its way to the executer. `params` is `NULL` or the allocated
    buffer, byte by byte. -/
structure Cmd (F : Type) where
  id : Nat
  nparams : Int32
  fmt : CString
  params : Option (List UInt8)
  function : F

variable {F : Type}

def cmdGetIdx (cmdList : Nat → CmdList F) (idx : Nat) : Option (Cmd F) :=
  if idx < schCmdMaxEntries then
    some
      { id := idx
        nparams := (cmdList idx).nparams
        fmt := (cmdList idx).fmt
        params := none
        function := (cmdList idx).function }
  else none

def cmdGetStr (cmdList : Nat → CmdList F) (name : CString) : Option (Cmd F) :=
  match first schCmdMaxEntries fun i => name = (cmdList i).name with
  | some i => cmdGetIdx cmdList i
  | none => none

/-- The buffer has one byte more than the copied text and `strncpy` fills all
    of it, so a text longer than the limit leaves no room for a terminator. -/
def cmdAddParamsStr (cmd : Option (Cmd F)) (params : CString) : Option (Cmd F) :=
  let lenParam := if schCmdMaxStrParams < strlen params then schCmdMaxStrParams else strlen params
  match cmd with
  | none => none
  | some cmd =>
    if lenParam ≠ 0 then some { cmd with params := some (charArray (lenParam + 1) params) }
    else some cmd

def cmdBuildFromStr (cmdList : Nat → CmdList F) (buff : CString) : Option (Cmd F) :=
  if 0 < strlen buff then
    match sscanf [.word, .space, .count] buff with
    | [.word tmpCmd, .count next] =>
      match cmdGetStr cmdList tmpCmd with
      | some newCmd =>
        if next < strlen buff then cmdAddParamsStr (some newCmd) (after next buff)
        else cmdAddParamsStr (some newCmd) noText
      | none => none
    | _ => none
  else none

def Registered (cmdList : Nat → CmdList F) (name : CString) : Prop :=
  ∃ i < schCmdMaxEntries, (cmdList i).name = name

/-- Every entry of the registry has a name, as every `cmd_add` call gives it one. -/
def Named (cmdList : Nat → CmdList F) : Prop := ∀ i < schCmdMaxEntries, (cmdList i).name.chars ≠ []

theorem Registered.word {cmdList : Nat → CmdList F} {name : CString}
    (registered : Registered cmdList name) (named : Named cmdList)
    (spaceless : ∀ b ∈ name.chars, isSpace b = false) : Word name where
  filled := by
    obtain ⟨i, bound, same⟩ := registered
    rw [← same]
    exact named i bound
  chars := fun b mem => by simp [wordChar, spaceless b mem]

/-- The command that a name and a parameter text stand for: the first entry of
    that name, with the terminated text or `NULL` for an empty one. -/
def commandOf (cmdList : Nat → CmdList F) (name args : CString) : Option (Cmd F) :=
  (first schCmdMaxEntries fun i => name = (cmdList i).name).map fun i =>
    { id := i
      nparams := (cmdList i).nparams
      fmt := (cmdList i).fmt
      params := if args.chars = [] then none else some (args.chars ++ [0])
      function := (cmdList i).function }

theorem commandOf_isSome {cmdList : Nat → CmdList F} {name : CString}
    (registered : Registered cmdList name) (args : CString) :
    (commandOf cmdList name args).isSome := by
  obtain ⟨i, bound, eq⟩ := registered
  cases scan : first schCmdMaxEntries fun i => decide (name = (cmdList i).name) with
  | none =>
    have miss := first_eq_none_iff.mp scan i bound
    simp [eq] at miss
  | some j => simp [commandOf, scan]

theorem commandOf_injective {cmdList : Nat → CmdList F} {name name' args args' : CString}
    {cmd : Cmd F} (one : commandOf cmdList name args = some cmd)
    (other : commandOf cmdList name' args' = some cmd) : name = name' ∧ args = args' := by
  unfold commandOf at one other
  obtain ⟨i, found, rfl⟩ := Option.map_eq_some_iff.mp one
  obtain ⟨j, found', same⟩ := Option.map_eq_some_iff.mp other
  simp only [Cmd.mk.injEq] at same
  obtain ⟨rfl, -, -, params, -⟩ := same
  obtain ⟨-, hit, -⟩ := first_eq_some_iff.mp found
  obtain ⟨-, hit', -⟩ := first_eq_some_iff.mp found'
  constructor
  · simp only [decide_eq_true_eq] at hit hit'
    rw [hit, hit']
  · apply CString.ext
    by_cases empty : args.chars = []
    · by_cases empty' : args'.chars = []
      · rw [empty, empty']
      · simp [empty, empty'] at params
    · by_cases empty' : args'.chars = []
      · simp [empty, empty'] at params
      · simp only [empty, empty', if_false, Option.some.injEq, List.append_cancel_right_eq] at params
        exact params.symm

theorem charArray_terminated (args : CString) :
    charArray (strlen args + 1) args = args.chars ++ [0] := by
  have whole : args.chars.take (args.chars.length + 1) = args.chars :=
    List.take_of_length_le (by omega)
  have one : args.chars.length + 1 - args.chars.length = 1 := by omega
  simp [charArray, strlen, whole, one]

theorem cmdAddParamsStr_cmdGetStr (cmdList : Nat → CmdList F) (name args : CString)
    (short : strlen args ≤ schCmdMaxStrParams) :
    cmdAddParamsStr (cmdGetStr cmdList name) args = commandOf cmdList name args := by
  have notOver : ¬ schCmdMaxStrParams < strlen args := by omega
  simp only [cmdGetStr, commandOf, cmdAddParamsStr, notOver, ↓reduceIte, charArray_terminated]
  cases scan : first schCmdMaxEntries fun i => decide (name = (cmdList i).name) with
  | none => simp
  | some i =>
    obtain ⟨bound, -, -⟩ := first_eq_some_iff.mp scan
    by_cases empty : args.chars = []
    · simp [cmdGetIdx, bound, strlen, empty]
    · have pos : strlen args ≠ 0 := fun zero => empty (List.eq_nil_of_length_eq_zero zero)
      simp [cmdGetIdx, bound, pos, empty]

def rendered (name args : CString) : CString := name ++ (blank ++ args)

theorem sscanf_rendered {name args : CString} (word : Word name) (start : Stops isSpace args) :
    sscanf [.word, .space, .count] (rendered name args) =
      [.word name, .count (strlen (name ++ blank))] := by
  have position : strlen (rendered name args) - strlen args = strlen (name ++ blank) := by
    simp only [rendered, strlen, chars_append, List.length_append]
    omega
  unfold sscanf
  conv_lhs => arg 3; unfold rendered
  rw [scanFrom_word _ _ word (blank_stops_word args), scanFrom_space _ _ start]
  simp only [scanFrom, position]

theorem cmdBuildFromStr_args (cmdList : Nat → CmdList F) {name args : CString}
    (word : Word name) (start : Stops isSpace args) :
    cmdBuildFromStr cmdList (rendered name args) =
      cmdAddParamsStr (cmdGetStr cmdList name) args := by
  have split : rendered name args = (name ++ blank) ++ args := (append_assoc name blank args).symm
  have len : strlen (rendered name args) = strlen (name ++ blank) + strlen args := by
    simp only [split, strlen, chars_append, List.length_append]
  have pos : 0 < strlen (rendered name args) := by
    simp only [rendered, blank, strlen, chars_append, List.length_append, List.length_singleton]
    omega
  have params : (if strlen (name ++ blank) < strlen (rendered name args)
      then after (strlen (name ++ blank)) (rendered name args) else noText) = args := by
    split
    · rw [split, after_append]
    · rename_i full
      have none_left : strlen args = 0 := by omega
      exact (CString.ext (List.eq_nil_of_length_eq_zero none_left)).symm
  unfold cmdBuildFromStr
  rw [if_pos pos, sscanf_rendered word start]
  simp only
  cases cmdGetStr cmdList name with
  | none => rfl
  | some newCmd =>
    simp only
    rw [← apply_ite (cmdAddParamsStr (some newCmd)), params]

theorem cmdBuildFromStr_rendered (cmdList : Nat → CmdList F) {name args : CString}
    (word : Word name) (start : Stops isSpace args) (short : strlen args ≤ schCmdMaxStrParams) :
    cmdBuildFromStr cmdList (rendered name args) = commandOf cmdList name args := by
  rw [cmdBuildFromStr_args cmdList word start, cmdAddParamsStr_cmdGetStr cmdList name args short]

def nullText : CString := ⟨[110, 117, 108, 108], by decide⟩

def twoNames (i : Nat) : CmdList Unit :=
  if i = 0 then ⟨0, noText, nullText, ()⟩ else ⟨1, noText, pingText, ()⟩

theorem twoNames_named : Named twoNames := by
  intro i _
  unfold twoNames
  split
  · decide
  · decide

end RepoCommand
