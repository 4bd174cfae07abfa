import SuchaiFlight.RepoCommand

/-!
Registration of commands in `repoCommand.c`: `cmd_add`, `cmd_repo_init` and
`cmd_get_name`. The table is filled up with `null` commands at the start and
the counter is then moved back, so later registrations overwrite the filler.
-/
namespace CommandRegistry
open CStrings StorageApi SlotTable RepoCommand

variable {F : Type}

structure CmdRepo (F : Type) where
  cmdList : Nat → CmdList F
  cmdIndex : Nat
  cmdIsSorted : Bool

structure Registration (F : Type) where
  name : CString
  function : F
  fparams : CString
  nparam : Int32

def Registration.entry (d : Registration F) : CmdList F :=
  { nparams := d.nparam
    fmt := d.fparams
    name := d.name
    function := d.function }

def nullCommand (cmdNull : F) : Registration F := ⟨nullText, cmdNull, noText, 0⟩

/-- The flag for a sorted table compares with the entry before, by `strcmp`. -/
def cmdAdd (r : CmdRepo F) (d : Registration F) : Int32 × CmdRepo F :=
  if r.cmdIndex < schCmdMaxEntries then
    let cmdList := Function.update r.cmdList r.cmdIndex d.entry
    let outOfOrder := d.name ≠ nullText ∧ r.cmdIsSorted ∧ 1 < r.cmdIndex ∧
      (cmdList r.cmdIndex).name.chars < (cmdList (r.cmdIndex - 1)).name.chars
    (Int32.ofNat (r.cmdIndex + 1),
      { cmdList := cmdList
        cmdIndex := r.cmdIndex + 1
        cmdIsSorted := if outOfOrder then false else r.cmdIsSorted })
  else (-1, r)

def addAll (r : CmdRepo F) : List (Registration F) → CmdRepo F
  | [] => r
  | d :: rest => addAll (cmdAdd r d).2 rest

/-- The `do`-`while` loop that fills the table. Every pass takes one entry; on
    a table that is full from the start the loop does not end. -/
def fillNull (cmdNull : F) : Nat → CmdRepo F → Option (CmdRepo F)
  | 0, _ => none
  | passes + 1, r =>
    let (nCmd, r) := cmdAdd r (nullCommand cmdNull)
    if nCmd < Int32.ofNat schCmdMaxEntries then fillNull cmdNull passes r else some r

/-- `builtIn` are the registrations that `cmd_obc_init` and the other `init`
    functions make in this build. -/
def cmdRepoInit (builtIn : List (Registration F)) (cmdNull : F) (r : CmdRepo F) :
    Option (Int32 × CmdRepo F) := do
  let r := addAll { r with cmdIndex := 0 } builtIn
  let lastCmdIndex := r.cmdIndex
  let r ← fillNull cmdNull schCmdMaxEntries r
  return (cmdOk, { r with cmdIndex := lastCmdIndex })

def cmdGetName (cmdList : Nat → CmdList F) (idx : Nat) : Option CString :=
  if idx < schCmdMaxEntries then some (cmdList idx).name else none

/-! One registration. -/

variable {cmdNull : F} {r : CmdRepo F} {defs : List (Registration F)} {d : Registration F}

structure Holds (r : CmdRepo F) (defs : List (Registration F)) : Prop where
  count : r.cmdIndex = defs.length
  fits : defs.length ≤ schCmdMaxEntries
  entries : ∀ i (bound : i < defs.length), r.cmdList i = defs[i].entry

structure Registry (cmdNull : F) (r : CmdRepo F) (defs : List (Registration F)) : Prop
    extends Holds r defs where
  filler : ∀ i, defs.length ≤ i → i < schCmdMaxEntries →
    r.cmdList i = (nullCommand cmdNull).entry

theorem cmdAdd_room (room : r.cmdIndex < schCmdMaxEntries) :
    (cmdAdd r d).1 = Int32.ofNat (r.cmdIndex + 1) ∧
      (cmdAdd r d).2.cmdIndex = r.cmdIndex + 1 ∧
      (cmdAdd r d).2.cmdList = Function.update r.cmdList r.cmdIndex d.entry := by
  simp only [cmdAdd, room, if_true]
  exact ⟨trivial, trivial, trivial⟩

theorem cmdAdd_full (full : ¬ r.cmdIndex < schCmdMaxEntries) : cmdAdd r d = (-1, r) := by
  simp only [cmdAdd, full, if_false]

theorem Holds.add (holds : Holds r defs) (room : defs.length < schCmdMaxEntries) :
    Holds (cmdAdd r d).2 (defs ++ [d]) := by
  obtain ⟨-, index, list⟩ := cmdAdd_room (d := d) (holds.count ▸ room)
  refine ⟨?_, ?_, ?_⟩
  · rw [index, holds.count, List.length_append, List.length_singleton]
  · rw [List.length_append, List.length_singleton]
    exact room
  · intro i bound
    rw [list, holds.count]
    rw [List.length_append, List.length_singleton] at bound
    by_cases last : i = defs.length
    · subst last
      simp
    · have before : i < defs.length := by omega
      rw [Function.update_of_ne last, List.getElem_append_left before]
      exact holds.entries i before

theorem Registry.add (registry : Registry cmdNull r defs) (room : defs.length < schCmdMaxEntries) :
    Registry cmdNull (cmdAdd r d).2 (defs ++ [d]) := by
  obtain ⟨-, -, list⟩ := cmdAdd_room (d := d) (registry.count ▸ room)
  refine ⟨registry.toHolds.add room, ?_⟩
  intro i after inside
  rw [List.length_append, List.length_singleton] at after
  rw [list, registry.count, Function.update_of_ne (by omega)]
  exact registry.filler i (by omega) inside

/-! Sequences of registrations. -/

theorem addAll_append (r : CmdRepo F) (first second : List (Registration F)) :
    addAll r (first ++ second) = addAll (addAll r first) second := by
  induction first generalizing r with
  | nil => rfl
  | cons d rest ih => exact ih (cmdAdd r d).2

theorem addAll_full (calls : List (Registration F)) (full : ¬ r.cmdIndex < schCmdMaxEntries) :
    addAll r calls = r := by
  induction calls with
  | nil => rfl
  | cons d rest ih =>
    rw [addAll, cmdAdd_full full]
    exact ih

theorem Holds.addAll (holds : Holds r defs) (calls : List (Registration F))
    (room : defs.length + calls.length ≤ schCmdMaxEntries) :
    Holds (addAll r calls) (defs ++ calls) := by
  induction calls generalizing r defs with
  | nil => rwa [List.append_nil]
  | cons d rest ih =>
    rw [List.length_cons] at room
    have next := holds.add (d := d) (by omega)
    have later := ih next (by rw [List.length_append, List.length_singleton]; omega)
    rwa [List.append_assoc, List.singleton_append] at later

theorem Registry.addAll (registry : Registry cmdNull r defs) (calls : List (Registration F)) :
    Registry cmdNull (addAll r calls) ((defs ++ calls).take schCmdMaxEntries) := by
  induction calls generalizing r defs with
  | nil =>
    rw [List.append_nil, List.take_of_length_le registry.fits]
    exact registry
  | cons d rest ih =>
    rcases Nat.lt_or_eq_of_le registry.fits with room | full
    · have later := ih (registry.add (d := d) room)
      rwa [List.append_assoc, List.singleton_append] at later
    · have whole : (defs ++ d :: rest).take schCmdMaxEntries = defs := by
        rw [← full, List.take_left]
      rw [addAll_full _ (by rw [registry.count]; omega), whole]
      exact registry

theorem cmdAdd_keeps {i : Nat} (taken : i < r.cmdIndex) :
    (cmdAdd r d).2.cmdList i = r.cmdList i ∧ i < (cmdAdd r d).2.cmdIndex := by
  by_cases room : r.cmdIndex < schCmdMaxEntries
  · obtain ⟨-, index, list⟩ := cmdAdd_room (d := d) room
    rw [index, list, Function.update_of_ne (by omega)]
    exact ⟨rfl, by omega⟩
  · rw [cmdAdd_full room]
    exact ⟨rfl, taken⟩

theorem addAll_keeps (calls : List (Registration F)) {i : Nat} (taken : i < r.cmdIndex) :
    (addAll r calls).cmdList i = r.cmdList i := by
  induction calls generalizing r with
  | nil => rfl
  | cons d rest ih =>
    obtain ⟨same, taken'⟩ := cmdAdd_keeps (d := d) taken
    exact (ih taken').trans same

/-! The start. -/

theorem ofNat_lt_max {n : Nat} (small : n ≤ schCmdMaxEntries) :
    Int32.ofNat n < Int32.ofNat schCmdMaxEntries ↔ n < schCmdMaxEntries := by
  have bound : n ≤ 255 := small
  have value : (Int32.ofNat n).toInt = n := Int32.toInt_ofNat_of_lt (by omega)
  have limit : (Int32.ofNat schCmdMaxEntries).toInt = schCmdMaxEntries := by decide
  rw [Int32.lt_iff_toInt_lt, value, limit]
  exact Int.ofNat_lt

theorem fillNull_fills (cmdNull : F) (holds : Holds r defs) {passes : Nat}
    (enough : schCmdMaxEntries - defs.length ≤ passes) (room : defs.length < schCmdMaxEntries) :
    ∃ r', fillNull cmdNull passes r = some r' ∧
      Holds r' (defs ++
        List.replicate (schCmdMaxEntries - defs.length) (nullCommand cmdNull)) := by
  induction passes generalizing r defs with
  | zero => omega
  | succ passes ih =>
    obtain ⟨code, -, -⟩ := cmdAdd_room (d := nullCommand cmdNull) (holds.count ▸ room)
    have next := holds.add (d := nullCommand cmdNull) room
    have grown : (defs ++ [nullCommand cmdNull]).length = defs.length + 1 := by
      rw [List.length_append, List.length_singleton]
    have split : schCmdMaxEntries - defs.length = (schCmdMaxEntries - (defs.length + 1)) + 1 := by
      omega
    rw [split, List.replicate_succ]
    simp only [fillNull, code, holds.count, ofNat_lt_max (Nat.succ_le_of_lt room)]
    by_cases more : defs.length + 1 < schCmdMaxEntries
    · rw [if_pos more]
      obtain ⟨r', fill, full⟩ := ih next (by rw [grown]; omega) (by rwa [grown])
      rw [grown, List.append_assoc, List.singleton_append] at full
      exact ⟨r', fill, full⟩
    · have last : schCmdMaxEntries - (defs.length + 1) = 0 := by omega
      rw [if_neg more, last, List.replicate_zero]
      exact ⟨_, rfl, next⟩

theorem cmdRepoInit_registry (builtIn : List (Registration F)) (cmdNull : F) (r : CmdRepo F)
    (few : builtIn.length < schCmdMaxEntries) :
    ∃ r', cmdRepoInit builtIn cmdNull r = some (cmdOk, r') ∧ Registry cmdNull r' builtIn := by
  have empty : Holds { r with cmdIndex := 0 } [] :=
    ⟨rfl, Nat.zero_le _, fun i bound => absurd bound (Nat.not_lt_zero i)⟩
  have added := empty.addAll builtIn (by simpa using Nat.le_of_lt few)
  rw [List.nil_append] at added
  obtain ⟨r', fill, full⟩ := fillNull_fills cmdNull added (Nat.sub_le _ _) few
  refine ⟨{ r' with cmdIndex := builtIn.length }, ?_, ⟨⟨rfl, Nat.le_of_lt few, ?_⟩, ?_⟩⟩
  · simp [cmdRepoInit, fill, added.count]
  · intro i bound
    have entry := full.entries i (by rw [List.length_append]; omega)
    rwa [List.getElem_append_left bound] at entry
  · intro i after inside
    have entry := full.entries i (by rw [List.length_append, List.length_replicate]; omega)
    rwa [List.getElem_append_right after, List.getElem_replicate] at entry

/-! Lookups. -/

def commandAt (d : Registration F) (i : Nat) : Cmd F :=
  { id := i
    nparams := d.nparam
    fmt := d.fparams
    params := none
    function := d.function }

structure Correct (r : CmdRepo F) (defs : List (Registration F)) : Prop where
  found : ∀ name, (cmdGetStr r.cmdList name).isSome ↔
    name ∈ defs.map Registration.name ∨ name = nullText ∧ defs.length < schCmdMaxEntries
  first : ∀ i (bound : i < defs.length),
    (∀ j (before : j < i), defs[j].name ≠ defs[i].name) →
      cmdGetStr r.cmdList defs[i].name = some (commandAt defs[i] i)
  named : ∀ name cmd, cmdGetStr r.cmdList name = some cmd →
    cmdGetName r.cmdList cmd.id = some name
  accepts : defs.length < schCmdMaxEntries → ∀ d,
    (cmdAdd r d).1 = Int32.ofNat (defs.length + 1)
  full : defs.length = schCmdMaxEntries → ∀ d, cmdAdd r d = (-1, r)

theorem Registry.found (registry : Registry cmdNull r defs) (name : CString) :
    (cmdGetStr r.cmdList name).isSome ↔
      name ∈ defs.map Registration.name ∨ name = nullText ∧ defs.length < schCmdMaxEntries := by
  have fits := registry.fits
  have some_iff : (cmdGetStr r.cmdList name).isSome ↔ Registered r.cmdList name := by
    unfold cmdGetStr
    cases scan : first schCmdMaxEntries fun i => decide (name = (r.cmdList i).name) with
    | none =>
      have miss := first_eq_none_iff.mp scan
      simp only [decide_eq_false_iff_not] at miss
      simp only [Option.isSome_none, Bool.false_eq_true, false_iff]
      rintro ⟨i, inside, same⟩
      exact miss i inside same.symm
    | some i =>
      obtain ⟨inside, hit, -⟩ := first_eq_some_iff.mp scan
      simp only [cmdGetIdx, inside, if_true, Option.isSome_some, true_iff]
      exact ⟨i, inside, (of_decide_eq_true hit).symm⟩
  rw [some_iff]
  constructor
  · rintro ⟨i, inside, same⟩
    by_cases taken : i < defs.length
    · left
      rw [registry.entries i taken] at same
      exact List.mem_map.mpr ⟨defs[i], List.getElem_mem taken, same⟩
    · right
      rw [registry.filler i (by omega) inside] at same
      exact ⟨same.symm, by omega⟩
  · rintro (mem | ⟨rfl, room⟩)
    · obtain ⟨d, listed, rfl⟩ := List.mem_map.mp mem
      obtain ⟨i, taken, rfl⟩ := List.getElem_of_mem listed
      exact ⟨i, by omega, by rw [registry.entries i taken]; rfl⟩
    · exact ⟨defs.length, room, by rw [registry.filler _ (Nat.le_refl _) room]; rfl⟩

theorem Registry.first (registry : Registry cmdNull r defs) {i : Nat} (bound : i < defs.length)
    (new : ∀ j (before : j < i), defs[j].name ≠ defs[i].name) :
    cmdGetStr r.cmdList defs[i].name = some (commandAt defs[i] i) := by
  have inside : i < schCmdMaxEntries := Nat.lt_of_lt_of_le bound registry.fits
  have scan : SlotTable.first schCmdMaxEntries
      (fun j => decide (defs[i].name = (r.cmdList j).name)) = some i := by
    refine first_eq_some_iff.mpr ⟨inside, ?_, ?_⟩
    · rw [registry.entries i bound]
      exact decide_eq_true rfl
    · intro j before
      rw [registry.entries j (Nat.lt_trans before bound)]
      exact decide_eq_false fun same => new j before same.symm
  unfold cmdGetStr
  rw [scan]
  simp [cmdGetIdx, inside, registry.entries i bound, Registration.entry, commandAt]

theorem cmdGetName_of_cmdGetStr {cmdList : Nat → CmdList F} {name : CString} {cmd : Cmd F}
    (found : cmdGetStr cmdList name = some cmd) : cmdGetName cmdList cmd.id = some name := by
  unfold cmdGetStr at found
  split at found
  · rename_i i scan
    obtain ⟨inside, hit, -⟩ := first_eq_some_iff.mp scan
    simp only [cmdGetIdx, inside, if_true, Option.some.injEq] at found
    subst found
    simp only [cmdGetName, inside, if_true]
    rw [← of_decide_eq_true hit]
  · contradiction

theorem Registry.correct (registry : Registry cmdNull r defs) : Correct r defs where
  found := registry.found
  first := fun _ bound new => registry.first bound new
  named := fun _ _ found => cmdGetName_of_cmdGetStr found
  accepts := fun room d => by
    rw [← registry.count] at room ⊢
    exact (cmdAdd_room room).1
  full := fun all d => cmdAdd_full (by rw [registry.count]; omega)

/-- After the start and any registrations, whatever their names, the lookups
    answer for the first `SCH_CMD_MAX_ENTRIES` of them, and no later
    registration changes an entry that is taken. -/
theorem registry_correct (r₀ : CmdRepo F) (builtIn calls : List (Registration F)) (cmdNull : F)
    (few : builtIn.length < schCmdMaxEntries) :
    ∃ r, cmdRepoInit builtIn cmdNull r₀ = some (cmdOk, r) ∧
      Correct (addAll r calls) ((builtIn ++ calls).take schCmdMaxEntries) ∧
      ∀ more, ∀ i < (addAll r calls).cmdIndex,
        (addAll r (calls ++ more)).cmdList i = (addAll r calls).cmdList i := by
  obtain ⟨r, init, registry⟩ := cmdRepoInit_registry builtIn cmdNull r₀ few
  refine ⟨r, init, (registry.addAll calls).correct, ?_⟩
  intro more i taken
  rw [addAll_append]
  exact addAll_keeps more taken

theorem registry_correct_repeated :
    ∃ r, cmdRepoInit [⟨pingText, 1, noText, 0⟩] 0
        (⟨fun _ => ⟨0, noText, noText, 0⟩, 0, true⟩ : CmdRepo Nat) = some (cmdOk, r) ∧
      cmdGetStr (addAll r [⟨pingText, 2, noText, 3⟩]).cmdList pingText =
        some ⟨0, 0, noText, none, 1⟩ := by
  obtain ⟨r, init, correct, -⟩ := registry_correct
    (⟨fun _ => ⟨0, noText, noText, 0⟩, 0, true⟩ : CmdRepo Nat) [⟨pingText, 1, noText, 0⟩]
    [⟨pingText, 2, noText, 3⟩] 0 (by decide)
  exact ⟨r, init, correct.first 0 (by decide) fun j before => absurd before (Nat.not_lt_zero j)⟩

end CommandRegistry
