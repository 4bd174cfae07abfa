import SuchaiFlight.FileTransfer
import Mathlib.Algebra.BigOperators.Group.List.Basic
import Mathlib.Data.List.Perm.Basic

/-!
Many complete transfers to one receiver. A transfer whose plain name exists is
written under its name with the file id before it, and always in append mode.
-/
namespace FileCollection
open CStrings RepoCommand Blocks Runs FileFrames FileReceiver FileTransfer

structure Transfer where
  name : CString
  data : List UInt8
  fileid : UInt16

def plainPath (t : Transfer) : Path := bname ++ t.name.chars

def idPath (t : Transfer) : Path := bname ++ idname t.fileid ++ t.name.chars

section Model
variable (csp : Csp) (env : Environment) (schCommNode : UInt8) (link : Link)

def transfer (rx : Receiver) (t : Transfer) : Option Receiver := do
  let (_, frames) ← comSendFile csp schCommNode link t.name t.data t.fileid
  run (deliver csp env) rx frames

end Model

def Separate (transfers : List Transfer) (files : Path → Option (List UInt8)) : Prop :=
  ∃ paths : List Path, paths.Nodup ∧ (∀ path, files path ≠ none ↔ path ∈ paths) ∧
    paths.map files = transfers.map fun t => some t.data

/-- The path that a transfer is written to when the files `taken` exist. -/
def destination (taken : List Path) (t : Transfer) : Path :=
  if plainPath t ∈ taken then idPath t else plainPath t

/-- No transfer whose plain name is taken finds its name with the id taken too. -/
def NoClash : List Path → List Transfer → Prop
  | _, [] => True
  | taken, t :: rest =>
    destination taken t ∉ taken ∧ NoClash (destination taken t :: taken) rest

def Fits (t : Transfer) : Prop :=
  strlen t.name ≤ 191 ∧ blockCount comFrameMaxLen t.data.length ≤ 65535

variable {csp : Csp} {env : Environment} {schCommNode : UInt8} {link : Link}

def kept (data : List UInt8) : List UInt8 :=
  if blockCount comFrameMaxLen data.length < 65536 then received data
  else data.take (comFrameMaxLen * 65535)

/-- After frame 65535 no frame has the expected number. -/
theorem run_exhausted {rx : Receiver} {path : Path} {fileid : UInt16}
    (expecting : Expecting rx path fileid 65535) (opens : env.opens path) (data : List UInt8)
    (rest : List Nat) :
    run (deliver csp env) rx (rest.map (bodyFrame csp schCommNode fileid data)) = some rx := by
  induction rest with
  | nil => rfl
  | cons i rest ih =>
    have refused : deliver csp env rx (bodyFrame csp schCommNode fileid data i) = some rx := by
      have wrong : ¬ 65535 + 1 = (i + 1) % 65536 := by omega
      simp [deliver, receive_bodyFrame expecting opens, wrong]
    exact run_cons refused ih

theorem run_oversize (csp : Csp) (schCommNode : UInt8) {rx : Receiver} {path : Path}
    {fileid : UInt16} (expecting : Expecting rx path fileid 0) (opens : env.opens path)
    {data : List UInt8} (many : 65536 ≤ blockCount comFrameMaxLen data.length) :
    ∃ rx', run (deliver csp env) rx (bodyFrames csp schCommNode fileid data) = some rx' ∧
      rx'.files = appended rx.files path (data.take (comFrameMaxLen * 65535)) := by
  have full : 65535 ≤ data.length / comFrameMaxLen := by
    simp only [blockCount] at many
    split at many <;> omega
  obtain ⟨rx', reached, expects, files⟩ := run_data csp schCommNode expecting opens full (by omega)
  obtain ⟨more, count⟩ := Nat.exists_eq_add_of_le
    (show 65535 ≤ blockCount comFrameMaxLen data.length by omega)
  refine ⟨rx', ?_, files⟩
  rw [bodyFrames, count, List.range_add, List.map_append]
  exact run_trans reached (run_exhausted expects opens data _)

theorem kept_length_le (data : List UInt8) : (kept data).length ≤ data.length := by
  unfold kept
  split
  · exact (received_isPrefix_data data).length_le
  · simp

theorem kept_length_lt (data : List UInt8)
    (many : 65536 ≤ blockCount comFrameMaxLen data.length) : (kept data).length < data.length := by
  have more := (lt_blockCount_iff (show 0 < comFrameMaxLen by decide)).mp
    (show 65535 < blockCount comFrameMaxLen data.length by omega)
  rw [kept, if_neg (by omega), List.length_take]
  omega

theorem run_any_size (csp : Csp) (schCommNode : UInt8) (rx : Receiver) {t : Transfer}
    (short : strlen t.name < comFrameMaxLen) (present : t.data ≠ [])
    (opens : env.opens (startPath env rx.files t.fileid t.name.chars)) :
    ∃ rx', run (deliver csp env) rx (transferFrames csp schCommNode t.fileid t.name t.data) =
        some rx' ∧
      rx'.files = appended rx.files (startPath env rx.files t.fileid t.name.chars)
        (kept t.data) := by
  by_cases small : blockCount comFrameMaxLen t.data.length < 65536
  · rw [kept, if_pos small]
    exact run_transfer csp schCommNode rx short t.fileid present small opens
  · rw [kept, if_neg small, run_transferFrames rx short]
    exact run_oversize csp schCommNode (expecting_started rx t.name t.fileid) opens (by omega)

theorem transfer_files (up : link.Up) {rx rx' : Receiver} {t : Transfer} (present : t.data ≠ [])
    (opens : env.opens (startPath env rx.files t.fileid t.name.chars))
    (done : transfer csp env schCommNode link rx t = some rx') :
    strlen t.name ≤ 191 ∧ rx'.files =
      appended rx.files (startPath env rx.files t.fileid t.name.chars) (kept t.data) := by
  obtain ⟨⟨rc, frames⟩, sent, reached⟩ := Option.bind_eq_some_iff.mp done
  have small : t.data.length / comFrameMaxLen * comFrameMaxLen < 2147483648 := by
    by_contra large
    simp [comSendFile, Nat.le_of_not_lt large] at sent
  obtain ⟨rc₁, sent₁⟩ : ∃ rc, comSendFile csp schCommNode link t.name t.data t.fileid = _ :=
    comSendFile_up up t.name t.fileid small
  rw [sent₁] at sent
  cases sent
  have reached : run (deliver csp env) rx
      (transferFrames csp schCommNode t.fileid t.name t.data) = some rx' := reached
  by_cases short : strlen t.name < comFrameMaxLen
  · refine ⟨Nat.le_of_lt_succ short, ?_⟩
    obtain ⟨rx₁, reached₁, files⟩ := run_any_size csp schCommNode rx short present opens
    rw [reached₁] at reached
    cases reached
    exact files
  · obtain ⟨rest, head⟩ := transferFrames_head csp schCommNode t.fileid t.name t.data
    have stuck : deliver csp env rx (fileFrame csp schCommNode 0 tmTypeFileStart t.fileid
        (t.data.length / comFrameMaxLen + 1 : Nat)
        (block comFrameMaxLen (t.name.chars ++ [0]) 0)) = none := by
      rw [deliver, receive_start_long rx t.name (Nat.le_of_not_lt short)]
      rfl
    rw [head, run, stuck] at reached
    cases reached

theorem transfer_defined (csp : Csp) (schCommNode : UInt8) (up : link.Up) (rx : Receiver)
    {t : Transfer} (fits : Fits t) (present : t.data ≠ [])
    (opens : env.opens (startPath env rx.files t.fileid t.name.chars)) :
    ∃ rx', transfer csp env schCommNode link rx t = some rx' := by
  obtain ⟨rc, sent⟩ : ∃ rc, comSendFile csp schCommNode link t.name t.data t.fileid = _ :=
    comSendFile_up up t.name t.fileid (bytes_lt_of_blockCount (Nat.le_succ_of_le fits.2))
  obtain ⟨rx', reached, -⟩ := run_any_size csp schCommNode rx (Nat.lt_succ_of_le fits.1) present
    opens
  exact ⟨rx', by simp [transfer, sent, reached]⟩

/-! The files that exist, and how many bytes they hold together. -/

structure Inventory (files : Path → Option (List UInt8)) (paths : List Path) : Prop where
  distinct : paths.Nodup
  covers : ∀ path, files path ≠ none ↔ path ∈ paths

def size (files : Path → Option (List UInt8)) (paths : List Path) : Nat :=
  (paths.map fun path => ((files path).getD []).length).sum

def dataSize (transfers : List Transfer) : Nat :=
  (transfers.map fun t => t.data.length).sum

theorem size_perm {files : Path → Option (List UInt8)} {first second : List Path}
    (perm : first.Perm second) : size files first = size files second :=
  (perm.map _).sum_eq

theorem Inventory.perm {files : Path → Option (List UInt8)} {first second : List Path}
    (one : Inventory files first) (two : Inventory files second) : first.Perm second :=
  (List.perm_ext_iff_of_nodup one.distinct two.distinct).mpr fun path =>
    (one.covers path).symm.trans (two.covers path)

theorem size_appended_of_notMem {files : Path → Option (List UInt8)} {paths : List Path}
    {path : Path} (outside : path ∉ paths) (bytes : List UInt8) :
    size (appended files path bytes) paths = size files paths := by
  unfold size
  congr 1
  apply List.map_congr_left
  intro other mem
  have ne : other ≠ path := fun eq => outside (eq ▸ mem)
  simp [appended, ne]

theorem size_cons (files : Path → Option (List UInt8)) (path : Path) (paths : List Path) :
    size files (path :: paths) = ((files path).getD []).length + size files paths := by
  simp [size]

theorem Inventory.append_new {files : Path → Option (List UInt8)} {paths : List Path}
    (inventory : Inventory files paths) {path : Path} (new : path ∉ paths) (bytes : List UInt8) :
    Inventory (appended files path bytes) (path :: paths) ∧
      size (appended files path bytes) (path :: paths) = size files paths + bytes.length := by
  have absent : files path = none := by
    by_contra present
    exact new ((inventory.covers path).mp present)
  refine ⟨⟨List.nodup_cons.mpr ⟨new, inventory.distinct⟩, ?_⟩, ?_⟩
  · intro other
    by_cases same : other = path
    · simp [same, appended]
    · simp [same, appended, ← inventory.covers]
  · have content : (appended files path bytes path).getD [] = bytes := by
      simp [appended, absent]
    rw [size_cons, size_appended_of_notMem new, content, Nat.add_comm]

theorem Inventory.append_old {files : Path → Option (List UInt8)} {paths : List Path}
    (inventory : Inventory files paths) {path : Path} (old : path ∈ paths) (bytes : List UInt8) :
    Inventory (appended files path bytes) paths ∧
      size (appended files path bytes) paths = size files paths + bytes.length := by
  refine ⟨⟨inventory.distinct, ?_⟩, ?_⟩
  · intro other
    by_cases same : other = path
    · simp [same, appended, old]
    · simp [same, appended, ← inventory.covers]
  · have front := List.perm_cons_erase old
    have outside : path ∉ paths.erase path := inventory.distinct.not_mem_erase
    have content : (appended files path bytes path).getD [] = (files path).getD [] ++ bytes := by
      simp [appended]
    rw [size_perm front, size_perm front, size_cons, size_cons, size_appended_of_notMem outside,
      content, List.length_append]
    omega

/-! Sequences of transfers. -/

structure Writable (env : Environment) (t : Transfer) : Prop where
  notDirectory : env.directory (plainPath t) = false
  opensPlain : env.opens (plainPath t)
  opensId : env.opens (idPath t)

theorem startPath_eq {files : Path → Option (List UInt8)} {paths : List Path}
    (inventory : Inventory files paths) {t : Transfer} (writable : Writable env t) :
    startPath env files t.fileid t.name.chars = destination paths t := by
  have plain : accessible env files (plainPath t) = true ↔ plainPath t ∈ paths := by
    rw [← inventory.covers, accessible, writable.notDirectory, Bool.false_or,
      Option.isSome_iff_ne_none]
  by_cases taken : plainPath t ∈ paths
  · rw [destination, if_pos taken]
    exact if_pos (plain.mpr taken)
  · rw [destination, if_neg taken]
    exact if_neg (mt plain.mp taken)

theorem opens_destination {paths : List Path} {t : Transfer} (writable : Writable env t) :
    env.opens (destination paths t) := by
  unfold destination
  split
  · exact writable.opensId
  · exact writable.opensPlain

theorem transfer_spec (up : link.Up) {rx rx' : Receiver} {paths : List Path}
    (inventory : Inventory rx.files paths) {t : Transfer} (writable : Writable env t)
    (present : t.data ≠ []) (done : transfer csp env schCommNode link rx t = some rx') :
    strlen t.name ≤ 191 ∧
      rx'.files = appended rx.files (destination paths t) (kept t.data) := by
  have path := startPath_eq inventory writable
  rw [← path]
  exact transfer_files up present (by rw [path]; exact opens_destination writable) done

theorem dataSize_cons (t : Transfer) (rest : List Transfer) :
    dataSize (t :: rest) = t.data.length + dataSize rest := by
  simp [dataSize]

theorem transfers_bound (up : link.Up) {transfers : List Transfer} {rx rx' : Receiver}
    {paths : List Path} (inventory : Inventory rx.files paths)
    (writable : ∀ t ∈ transfers, Writable env t) (present : ∀ t ∈ transfers, t.data ≠ [])
    (done : run (transfer csp env schCommNode link) rx transfers = some rx') :
    ∃ paths', Inventory rx'.files paths' ∧
      paths'.length ≤ paths.length + transfers.length ∧
      size rx'.files paths' ≤ size rx.files paths + dataSize transfers ∧
      (¬ ((∀ t ∈ transfers, Fits t) ∧ NoClash paths transfers) →
        paths'.length < paths.length + transfers.length ∨
          size rx'.files paths' < size rx.files paths + dataSize transfers) := by
  induction transfers generalizing rx paths with
  | nil =>
    cases done
    exact ⟨paths, inventory, by simp, by simp [dataSize], fun bad => absurd ⟨by simp, trivial⟩ bad⟩
  | cons t rest ih =>
    obtain ⟨rx₁, first, later⟩ := Option.bind_eq_some_iff.mp done
    obtain ⟨short, files⟩ := transfer_spec up inventory (writable t (by simp))
      (present t (by simp)) first
    have kept_le := kept_length_le t.data
    have writable' : ∀ u ∈ rest, Writable env u := fun u mem =>
      writable u (List.mem_cons_of_mem t mem)
    have present' : ∀ u ∈ rest, u.data ≠ [] := fun u mem => present u (List.mem_cons_of_mem t mem)
    rw [dataSize_cons, List.length_cons]
    by_cases new : destination paths t ∉ paths
    · obtain ⟨inventory₁, size₁⟩ := inventory.append_new new (kept t.data)
      rw [← files] at inventory₁ size₁
      obtain ⟨paths', inventory', length', size', strict⟩ := ih inventory₁ writable' present' later
      rw [size₁] at size' strict
      rw [List.length_cons] at length' strict
      refine ⟨paths', inventory', by omega, by omega, fun bad => ?_⟩
      by_cases few : blockCount comFrameMaxLen t.data.length ≤ 65535
      · have badRest : ¬ ((∀ u ∈ rest, Fits u) ∧ NoClash (destination paths t :: paths) rest) := by
          rintro ⟨fits, noClash⟩
          exact bad ⟨List.forall_mem_cons.mpr ⟨⟨short, few⟩, fits⟩, new, noClash⟩
        rcases strict badRest with fewer | smaller
        · exact .inl (by omega)
        · exact .inr (by omega)
      · have := kept_length_lt t.data (by omega)
        exact .inr (by omega)
    · obtain ⟨inventory₁, size₁⟩ := inventory.append_old (not_not.mp new) (kept t.data)
      rw [← files] at inventory₁ size₁
      obtain ⟨paths', inventory', length', size', -⟩ := ih inventory₁ writable' present' later
      exact ⟨paths', inventory', by omega, by omega, fun _ => .inl (by omega)⟩

theorem Inventory.of_perm {files : Path → Option (List UInt8)} {first second : List Path}
    (inventory : Inventory files first) (perm : first.Perm second) : Inventory files second where
  distinct := perm.nodup_iff.mp inventory.distinct
  covers path := (inventory.covers path).trans perm.mem_iff

theorem transfers_exact (csp : Csp) (schCommNode : UInt8) (up : link.Up)
    {transfers : List Transfer} {rx : Receiver} {paths : List Path}
    (inventory : Inventory rx.files paths) (writable : ∀ t ∈ transfers, Writable env t)
    (present : ∀ t ∈ transfers, t.data ≠ [])
    (ends : ∀ t ∈ transfers, t.data.getLast? ≠ some fill) (fits : ∀ t ∈ transfers, Fits t)
    (noClash : NoClash paths transfers) :
    ∃ rx' new, run (transfer csp env schCommNode link) rx transfers = some rx' ∧
      Inventory rx'.files (new ++ paths) ∧
      new.map rx'.files = transfers.map (fun t => some t.data) ∧
      ∀ path ∈ paths, rx'.files path = rx.files path := by
  induction transfers generalizing rx paths with
  | nil => exact ⟨rx, [], rfl, inventory, rfl, fun _ _ => rfl⟩
  | cons t rest ih =>
    obtain ⟨new, later⟩ := noClash
    have writable_t := writable t (by simp)
    obtain ⟨rx₁, first⟩ := transfer_defined csp schCommNode up rx (fits t (by simp))
      (present t (by simp)) (by
        rw [startPath_eq inventory writable_t]
        exact opens_destination writable_t)
    obtain ⟨-, files⟩ := transfer_spec up inventory writable_t (present t (by simp)) first
    have whole : kept t.data = t.data := by
      have few := (fits t (by simp)).2
      rw [kept, if_pos (by omega), (received_eq_iff t.data).mpr (.inr (ends t (by simp)))]
    rw [whole] at files
    obtain ⟨inventory₁, -⟩ := inventory.append_new new t.data
    rw [← files] at inventory₁
    obtain ⟨rx', more, reached, inventory', contents, unchanged⟩ := ih inventory₁
      (fun u mem => writable u (List.mem_cons_of_mem t mem))
      (fun u mem => present u (List.mem_cons_of_mem t mem))
      (fun u mem => ends u (List.mem_cons_of_mem t mem))
      (fun u mem => fits u (List.mem_cons_of_mem t mem)) later
    have own : rx'.files (destination paths t) = some t.data := by
      have absent : rx.files (destination paths t) = none := by
        by_contra there
        exact new ((inventory.covers _).mp there)
      rw [unchanged _ (by simp), files]
      simp [appended, absent]
    refine ⟨rx', destination paths t :: more, run_cons first reached,
      inventory'.of_perm List.perm_middle, ?_, ?_⟩
    · rw [List.map_cons, List.map_cons, own, contents]
    · intro path mem
      have other : path ≠ destination paths t := fun eq => new (eq ▸ mem)
      rw [unchanged path (List.mem_cons_of_mem _ mem), files]
      simp [appended, other]

/-- Complete transfers are kept apart exactly when every one fits its frames and
    no two of them are given the same file. -/
theorem transfers_separate_iff (csp : Csp) (schCommNode : UInt8) (up : link.Up)
    (transfers : List Transfer) (writable : ∀ t ∈ transfers, Writable env t)
    (ends : ∀ t ∈ transfers, t.data.getLast? ≠ some fill)
    (tail : ∀ t ∈ transfers, t.data.length % comFrameMaxLen ≠ 0) :
    (∃ rx, run (transfer csp env schCommNode link) (initial fun _ => none) transfers = some rx ∧
        Separate transfers rx.files) ↔
      (∀ t ∈ transfers, Fits t) ∧ NoClash [] transfers := by
  have empty : Inventory (initial fun _ => none).files [] := ⟨List.nodup_nil, by simp [initial]⟩
  have present : ∀ t ∈ transfers, t.data ≠ [] := by
    intro t mem none
    have := tail t mem
    simp [none] at this
  constructor
  · rintro ⟨rx, done, paths, distinct, covers, contents⟩
    obtain ⟨paths', inventory, -, -, strict⟩ := transfers_bound up empty writable present done
    by_contra bad
    have perm := inventory.perm ⟨distinct, covers⟩
    have count : paths'.length = transfers.length := by
      have := congrArg List.length contents
      rw [List.length_map, List.length_map] at this
      rw [perm.length_eq, this]
    have total : size rx.files paths' = dataSize transfers := by
      have := congrArg (fun l => (l.map fun c : Option (List UInt8) => (c.getD []).length).sum)
        contents
      simp only [List.map_map] at this
      rw [size_perm perm]
      exact this
    rcases strict bad with fewer | smaller
    · rw [List.length_nil] at fewer
      omega
    · have none : size (initial fun _ => none).files [] = 0 := rfl
      omega
  · rintro ⟨fits, noClash⟩
    obtain ⟨rx, new, reached, inventory, contents, -⟩ := transfers_exact csp schCommNode up empty
      writable present ends fits noClash
    rw [List.append_nil] at inventory
    exact ⟨rx, reached, new, inventory.distinct, inventory.covers, contents⟩

theorem plain_writable (t : Transfer) : Writable plainEnvironment t := ⟨rfl, rfl, rfl⟩

theorem distinct_ids_separate_iff :
    (∃ rx, run (transfer hostOrder plainEnvironment 1 plainLink) (initial fun _ => none)
          [⟨nameA, [1], 1⟩, ⟨nameA, [2], 2⟩] = some rx ∧
        Separate [⟨nameA, [1], 1⟩, ⟨nameA, [2], 2⟩] rx.files) ↔
      (∀ t ∈ [⟨nameA, [1], 1⟩, ⟨nameA, [2], 2⟩], Fits t) ∧
        NoClash [] [⟨nameA, [1], 1⟩, ⟨nameA, [2], 2⟩] :=
  transfers_separate_iff hostOrder 1 plainLink_up _ (fun t _ => plain_writable t) (by decide)
    (by decide)

def repeatedTransfers : List Transfer := [⟨nameA, [1], 1⟩, ⟨nameA, [2], 1⟩, ⟨nameA, [3], 1⟩]

theorem repeated_name_and_id_mixed :
    ∃ rx, run (transfer hostOrder plainEnvironment 1 plainLink) (initial fun _ => none)
        repeatedTransfers = some rx ∧ ¬ Separate repeatedTransfers rx.files := by
  obtain ⟨rx, reached, mixed⟩ : ∃ rx, run (transfer hostOrder plainEnvironment 1 plainLink)
      (initial fun _ => none) repeatedTransfers = some rx ∧
      rx.files (idPath ⟨nameA, [3], 1⟩) = some [2, 3] := ⟨_, rfl, by decide⟩
  refine ⟨rx, reached, ?_⟩
  rintro ⟨paths, -, covers, contents⟩
  have there := (covers (idPath ⟨nameA, [3], 1⟩)).mp (by simp [mixed])
  have member := List.mem_map_of_mem (f := rx.files) there
  rw [contents, mixed] at member
  exact absurd member (by decide)

end FileCollection
