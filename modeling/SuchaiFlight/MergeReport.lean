import SuchaiFlight.PartNames

/-!
The report of missing frames in `tm_merge_file`. Its first loop counts up to the
frame of each listed name in turn, the second one to the total of the last name.
-/
namespace MergeReport
open CStrings FileFrames FileReceiver PartNames Runs

/-- `MISSING FRAME: %d_%d_%d.part`. -/
structure Warning where
  id : Int
  frame : Int
  max : Int
  deriving DecidableEq

def intMax : Int := 2147483647

/-- `while (++last != frame)`, where `left` values come before `last` overflows. -/
def skipTo (frame : Int) : Nat → Int → Option (List Int × Int)
  | 0, _ => none
  | left + 1, last =>
    if last + 1 = frame then some ([], last + 1)
    else do
      let (missing, reached) ← skipTo frame left (last + 1)
      return ((last + 1) :: missing, reached)

/-- `while (last++ < max)`. -/
def skipPast (max : Int) : Nat → Int → Option (List Int)
  | 0, _ => none
  | left + 1, last => do
    if last < max then
      let missing ← skipPast max left (last + 1)
      return (last + 1) :: missing
    else return []

/-- The loop over the names. `seen` are `id` and `max`, once they are scanned. -/
def checkNames : List CString → Int → Option (Int × Int) →
    Option (List Warning × Int × Option (Int × Int))
  | [], last, seen => some ([], last, seen)
  | dName :: rest, last, seen =>
    match scanPartName dName with
    | some (id, frame, max) => do
      let (missing, last) ← skipTo frame (intMax - last).toNat last
      let (warnings, last, seen) ← checkNames rest last (some (id, max))
      return (missing.map (⟨id, ·, max⟩) ++ warnings, last, seen)
    | none => checkNames rest last seen

/-- The warnings for the names that `scandir` lists. -/
def missingFrames (namelist : List CString) : Option (List Warning) :=
  if namelist = [] then some []
  else do
    let (warnings, last, seen) ← checkNames namelist (-1) none
    let (id, max) ← seen
    let missing ← skipPast max (intMax - last).toNat last
    return warnings ++ missing.map (⟨id, ·, max⟩)

/-! The loops. -/

def between (low high : Int) : List Int :=
  (List.range (high - low - 1).toNat).map fun i : Nat => low + 1 + (i : Int)

theorem mem_between {low high k : Int} : k ∈ between low high ↔ low < k ∧ k < high := by
  simp only [between, List.mem_map, List.mem_range]
  constructor
  · rintro ⟨i, inside, rfl⟩
    omega
  · intro ⟨above, below⟩
    exact ⟨(k - low - 1).toNat, by omega, by omega⟩

theorem nodup_between (low high : Int) : (between low high).Nodup := by
  refine List.nodup_range.map fun i j (same : low + 1 + (i : Int) = low + 1 + (j : Int)) => ?_
  omega

theorem between_empty {low high : Int} (next : high ≤ low + 1) : between low high = [] := by
  have none_left : (high - low - 1).toNat = 0 := by omega
  rw [between, none_left]
  rfl

theorem between_cons {low high : Int} (more : low + 1 < high) :
    between low high = (low + 1) :: between (low + 1) high := by
  have count : (high - low - 1).toNat = (high - (low + 1) - 1).toNat + 1 := by omega
  rw [between, between, count, List.range_succ_eq_map, List.map_cons, List.map_map]
  congr 1
  · simp
  · apply List.map_congr_left
    intro i _
    simp only [Function.comp_apply, Nat.succ_eq_add_one, Nat.cast_add, Nat.cast_one]
    omega

theorem skipTo_above {frame : Int} {left : Nat} {last : Int} (above : last < frame)
    (room : frame ≤ last + left) : skipTo frame left last = some (between last frame, frame) := by
  induction left generalizing last with
  | zero => omega
  | succ left ih =>
    rw [skipTo]
    by_cases next : last + 1 = frame
    · rw [if_pos next, next, between_empty (by omega)]
    · rw [if_neg next, between_cons (show last + 1 < frame by omega), ih (by omega) (by omega)]
      rfl

theorem skipTo_below {frame : Int} (left : Nat) {last : Int} (below : frame ≤ last) :
    skipTo frame left last = none := by
  induction left generalizing last with
  | zero => rfl
  | succ left ih =>
    rw [skipTo, if_neg (by omega), ih (by omega)]
    rfl

theorem skipPast_eq {max : Int} {left : Nat} {last : Int} (room : max < last + left)
    (some_left : 0 < left) : skipPast max left last = some (between last (max + 1)) := by
  induction left generalizing last with
  | zero => omega
  | succ left ih =>
    rw [skipPast]
    by_cases more : last < max
    · rw [if_pos more, between_cons (show last + 1 < max + 1 by omega), ih (by omega) (by omega)]
      rfl
    · rw [if_neg more, between_empty (by omega)]
      rfl

/-! Listed parts. -/

abbrev Part := UInt16 × UInt16

def frameOf (part : Part) : Int := part.1.toNat
def totalOf (part : Part) : Int := part.2.toNat

def nameOf (fileid : UInt16) (part : Part) : CString := partName fileid part.1 part.2

theorem checkNames_cons (fileid : UInt16) (part : Part) (rest : List CString) {last : Int}
    (seen : Option (Int × Int)) (above : last < frameOf part) :
    checkNames (nameOf fileid part :: rest) last seen =
      (checkNames rest (frameOf part) (some ((fileid.toNat : Int), totalOf part))).map fun result =>
        ((between last (frameOf part)).map (⟨fileid.toNat, ·, totalOf part⟩) ++ result.1,
          result.2) := by
  have room : frameOf part ≤ last + (intMax - last).toNat := by
    have small := part.1.toNat_lt
    unfold frameOf intMax
    omega
  rw [checkNames, nameOf, scanPartName_partName]
  have skipped := skipTo_above above room
  unfold frameOf at skipped
  simp only [skipped, Option.bind_eq_bind, Option.bind_some]
  unfold frameOf totalOf
  cases checkNames rest (part.1.toNat : Int) (some ((fileid.toNat : Int), (part.2.toNat : Int))) <;>
    rfl

theorem checkNames_below (fileid : UInt16) (part : Part) (rest : List CString) {last : Int}
    (seen : Option (Int × Int)) (below : frameOf part ≤ last) :
    checkNames (nameOf fileid part :: rest) last seen = none := by
  rw [checkNames, nameOf, scanPartName_partName]
  have lost := skipTo_below (intMax - last).toNat below
  unfold frameOf at lost
  simp only [lost, Option.bind_eq_bind, Option.bind_none]

def Rising (parts : List Part) : Prop := parts.Pairwise fun p q => frameOf p < frameOf q

theorem rising_cons_cons {part next : Part} {rest : List Part} :
    Rising (part :: next :: rest) ↔ frameOf part < frameOf next ∧ Rising (next :: rest) := by
  constructor
  · intro rising
    obtain ⟨before, later⟩ := List.pairwise_cons.mp rising
    exact ⟨before next List.mem_cons_self, later⟩
  · intro ⟨first, later⟩
    refine List.pairwise_cons.mpr ⟨fun q mem => ?_, later⟩
    rcases List.mem_cons.mp mem with rfl | further
    · exact first
    · exact first.trans ((List.pairwise_cons.mp later).1 q further)

theorem frameOf_le_last {part : Part} {rest : List Part} (rising : Rising (part :: rest)) :
    ∀ q ∈ part :: rest, frameOf q ≤ frameOf (rest.getLastD part) := by
  induction rest generalizing part with
  | nil =>
    intro q mem
    rw [List.mem_singleton.mp mem]
    exact Int.le_refl _
  | cons next rest ih =>
    obtain ⟨first, later⟩ := rising_cons_cons.mp rising
    rw [List.getLastD_cons, List.forall_mem_cons]
    exact ⟨Int.le_of_lt (Int.lt_of_lt_of_le first (ih later next List.mem_cons_self)), ih later⟩

def numbers (warnings : List Warning) : List Int := warnings.map Warning.frame

theorem numbers_append (before after : List Warning) :
    numbers (before ++ after) = numbers before ++ numbers after := List.map_append

@[simp] theorem numbers_warned (id max : Int) (missing : List Int) :
    numbers (missing.map (⟨id, ·, max⟩)) = missing := by
  simp [numbers, Function.comp_def]

theorem nodup_append_of_lt {front back : List Int} (nodup : front.Nodup) (nodup' : back.Nodup)
    (less : ∀ a ∈ front, ∀ b ∈ back, a < b) : (front ++ back).Nodup :=
  List.nodup_append.mpr ⟨nodup, nodup', fun a mem b mem' => Int.ne_of_lt (less a mem b mem')⟩

theorem checkNames_rising (fileid : UInt16) {part : Part} {rest : List Part}
    (rising : Rising (part :: rest)) :
    ∃ warnings, checkNames (rest.map (nameOf fileid)) (frameOf part)
        (some ((fileid.toNat : Int), totalOf part)) =
        some (warnings, frameOf (rest.getLastD part),
          some ((fileid.toNat : Int), totalOf (rest.getLastD part))) ∧
      (numbers warnings).Nodup ∧
      ∀ k, k ∈ numbers warnings ↔
        frameOf part < k ∧ k < frameOf (rest.getLastD part) ∧ ∀ q ∈ rest, frameOf q ≠ k := by
  induction rest generalizing part with
  | nil =>
    refine ⟨[], rfl, List.nodup_nil, fun k => ?_⟩
    simp only [numbers, List.map_nil, List.not_mem_nil, List.getLastD_nil, false_iff]
    omega
  | cons next rest ih =>
    obtain ⟨first, later⟩ := rising_cons_cons.mp rising
    obtain ⟨warnings, checked, nodup, warned⟩ := ih later
    have above := (List.pairwise_cons.mp later).1
    have last := frameOf_le_last later next List.mem_cons_self
    refine ⟨_, by rw [List.map_cons, checkNames_cons fileid next _ _ first, checked,
      List.getLastD_cons]; rfl, ?_, ?_⟩
    · rw [numbers_append, numbers_warned]
      refine nodup_append_of_lt (nodup_between _ _) nodup fun a mem b mem' => ?_
      have small := (mem_between.mp mem).2
      have large := ((warned b).mp mem').1
      omega
    · intro k
      rw [numbers_append, numbers_warned, List.mem_append, mem_between, warned, List.getLastD_cons,
        List.forall_mem_cons]
      rcases Int.lt_trichotomy k (frameOf next) with below | rfl | beyond
      · have apart : ∀ q ∈ rest, frameOf q ≠ k := fun q mem => by
          have := above q mem
          omega
        constructor
        · intro _
          exact ⟨by omega, by omega, by omega, apart⟩
        · intro ⟨more, _⟩
          exact .inl ⟨more, below⟩
      · constructor
        · rintro (⟨-, less⟩ | ⟨more, -⟩) <;> omega
        · intro ⟨_, _, other, _⟩
          exact absurd rfl other
      · constructor
        · rintro (⟨-, less⟩ | ⟨_, less, apart⟩)
          · omega
          · exact ⟨by omega, less, by omega, apart⟩
        · intro ⟨_, less, _, apart⟩
          exact .inr ⟨beyond, less, apart⟩

theorem checkNames_not_rising (fileid : UInt16) {part : Part} {rest : List Part}
    (falls : ¬ Rising (part :: rest)) (seen : Option (Int × Int)) :
    checkNames (rest.map (nameOf fileid)) (frameOf part) seen = none := by
  induction rest generalizing part seen with
  | nil => exact absurd (List.pairwise_singleton _ _) falls
  | cons next rest ih =>
    rw [List.map_cons]
    by_cases first : frameOf part < frameOf next
    · rw [checkNames_cons fileid next _ _ first,
        ih fun later => falls (rising_cons_cons.mpr ⟨first, later⟩)]
      rfl
    · exact checkNames_below fileid next _ _ (Int.not_lt.mp first)

/-- A number that no part has lies before the first part, between two of them, or
    behind the last. -/
theorem missing_iff {part : Part} {rest : List Part} (rising : Rising (part :: rest)) {k max : Int} :
    ((-1 < k ∧ k < frameOf part) ∨
      (frameOf part < k ∧ k < frameOf (rest.getLastD part) ∧ ∀ q ∈ rest, frameOf q ≠ k)) ∨
      (frameOf (rest.getLastD part) < k ∧ k < max + 1) ↔
    (∀ q ∈ part :: rest, frameOf q ≠ k) ∧ 0 ≤ k ∧ (k < frameOf (rest.getLastD part) ∨ k ≤ max) := by
  have isLast := frameOf_le_last rising
  have inside : rest.getLastD part ∈ part :: rest := List.getLastD_mem_cons
  have above := (List.pairwise_cons.mp rising).1
  have first := isLast part List.mem_cons_self
  have low : 0 ≤ frameOf part := Int.natCast_nonneg _
  generalize rest.getLastD part = final at *
  constructor
  · rintro ((⟨low, below⟩ | ⟨beyond, below, apart⟩) | ⟨beyond, le⟩)
    · refine ⟨List.forall_mem_cons.mpr ⟨by omega, fun q mem => ?_⟩, by omega, by omega⟩
      have := above q mem
      omega
    · exact ⟨List.forall_mem_cons.mpr ⟨by omega, apart⟩, by omega, by omega⟩
    · refine ⟨List.forall_mem_cons.mpr ⟨by omega, fun q mem => ?_⟩, by omega, by omega⟩
      have := isLast q (List.mem_cons_of_mem part mem)
      omega
  · intro ⟨all, low, less⟩
    obtain ⟨other, apart⟩ := List.forall_mem_cons.mp all
    have notLast := all final inside
    rcases Int.lt_or_lt_of_ne other with beyond | below
    · rcases Int.lt_or_lt_of_ne notLast with after | before
      · exact .inr ⟨after, by omega⟩
      · exact .inl (.inr ⟨beyond, before, apart⟩)
    · exact .inl (.inl ⟨by omega, below⟩)

theorem room_behind (part : Part) :
    0 < (intMax - frameOf part).toNat ∧
      totalOf part < frameOf part + (intMax - frameOf part).toNat := by
  have small := part.1.toNat_lt
  have small' := part.2.toNat_lt
  unfold frameOf totalOf intMax
  omega

theorem missingFrames_rising (fileid : UInt16) {part : Part} {rest : List Part}
    (rising : Rising (part :: rest)) :
    ∃ warnings, missingFrames ((part :: rest).map (nameOf fileid)) = some warnings ∧
      (numbers warnings).Nodup ∧
      ∀ k, k ∈ numbers warnings ↔ (∀ q ∈ part :: rest, frameOf q ≠ k) ∧ 0 ≤ k ∧
        (k < frameOf (rest.getLastD part) ∨ k ≤ totalOf (rest.getLastD part)) := by
  obtain ⟨warnings, checked, nodup, warned⟩ := checkNames_rising fileid rising
  have first := frameOf_le_last rising part List.mem_cons_self
  have start : -1 < frameOf part := by
    unfold frameOf
    omega
  have begun : checkNames ((part :: rest).map (nameOf fileid)) (-1) none = _ :=
    (checkNames_cons fileid part _ none start).trans (by rw [checked, Option.map_some])
  obtain ⟨some_left, room⟩ := room_behind (rest.getLastD part)
  have finished := skipPast_eq room some_left
  refine ⟨_, by rw [missingFrames, if_neg (by simp), begun]; simp only [Option.bind_eq_bind,
    Option.bind_some, finished]; rfl, ?_, fun k => ?_⟩
  · rw [numbers_append, numbers_append, numbers_warned, numbers_warned]
    refine nodup_append_of_lt (nodup_append_of_lt (nodup_between _ _) nodup fun a mem b mem' => ?_)
      (nodup_between _ _) fun a mem b mem' => ?_
    · have small := (mem_between.mp mem).2
      have large := ((warned b).mp mem').1
      omega
    · have large := (mem_between.mp mem').1
      rcases List.mem_append.mp mem with gap | later
      · have small := (mem_between.mp gap).2
        omega
      · have small := ((warned a).mp later).2.1
        omega
  · rw [numbers_append, numbers_append, numbers_warned, numbers_warned, List.mem_append,
      List.mem_append, mem_between, mem_between, warned]
    exact missing_iff rising

theorem missingFrames_not_rising (fileid : UInt16) {parts : List Part} (falls : ¬ Rising parts) :
    missingFrames (parts.map (nameOf fileid)) = none := by
  cases parts with
  | nil => exact absurd List.Pairwise.nil falls
  | cons part rest =>
    have start : -1 < frameOf part := by
      unfold frameOf
      omega
    have lost : checkNames ((part :: rest).map (nameOf fileid)) (-1) none = none :=
      (checkNames_cons fileid part _ none start).trans
        (by rw [checkNames_not_rising fileid falls]; rfl)
    rw [missingFrames, if_neg (by simp), lost]
    rfl

/-! What the report has to say. -/

def Exact (fileid : UInt16) (parts : List Part) : Prop :=
  ∃ warnings, missingFrames (parts.map (nameOf fileid)) = some warnings ∧
    (numbers warnings).Nodup ∧
    ∀ k, k ∈ numbers warnings ↔
      (∀ part ∈ parts, frameOf part ≠ k) ∧ 0 ≤ k ∧ ∃ part ∈ parts, k ≤ totalOf part

/-- No frame number comes with two totals, no total is beyond the last part, and
    no frame before the last that is missing is beyond all totals. -/
structure Gathered (parts : List Part) : Prop where
  once : (parts.map frameOf).Nodup
  closed : ∀ last ∈ parts.getLast?, ∀ part ∈ parts,
    totalOf part ≤ frameOf last ∨ totalOf part ≤ totalOf last
  within : ∀ last ∈ parts.getLast?, ∀ k, 0 ≤ k → k < frameOf last →
    (∀ part ∈ parts, frameOf part ≠ k) → ∃ part ∈ parts, k ≤ totalOf part

def Before (p q : Part) : Prop := p.1 < q.1 ∨ p.1 = q.1 ∧ p.2 < q.2

instance : DecidableRel Before := fun _ _ => inferInstanceAs (Decidable (_ ∨ _))

theorem rising_iff {parts : List Part} (sorted : parts.Pairwise Before) :
    Rising parts ↔ (parts.map frameOf).Nodup := by
  rw [Rising, List.Nodup, List.pairwise_map]
  constructor
  · exact fun rising => rising.imp fun less => Int.ne_of_lt less
  · intro distinct
    refine (sorted.and distinct).imp fun {p q} ⟨before, other⟩ => ?_
    rcases before with less | ⟨same, -⟩
    · exact Int.ofNat_lt.mpr (UInt16.lt_iff_toNat_lt.mp less)
    · exact absurd (by rw [frameOf, frameOf, same]) other

theorem getLast?_cons_eq (part : Part) (rest : List Part) :
    (part :: rest).getLast? = some (rest.getLastD part) := by
  rw [List.getLast?_cons, List.getLastD_eq_getLast?]

/-- The report ends and is exact for these listings and no others. -/
theorem report_exact_iff (fileid : UInt16) {parts : List Part} (sorted : parts.Pairwise Before) :
    Exact fileid parts ↔ Gathered parts := by
  cases parts with
  | nil =>
    refine iff_of_true ⟨[], rfl, List.nodup_nil, by simp [numbers]⟩ ⟨List.nodup_nil, ?_, ?_⟩
    all_goals
      intro last mem
      cases mem
  | cons part rest =>
    have ends := getLast?_cons_eq part rest
    have inside : rest.getLastD part ∈ part :: rest := List.getLastD_mem_cons
    constructor
    · intro ⟨warnings, reported, _, exact_⟩
      have rising : Rising (part :: rest) := by
        by_contra falls
        rw [missingFrames_not_rising fileid falls] at reported
        cases reported
      obtain ⟨warnings', reported', -, warned⟩ := missingFrames_rising fileid rising
      obtain rfl := Option.some.inj (reported.symm.trans reported')
      have isLast := frameOf_le_last rising
      refine ⟨(rising_iff sorted).mp rising, ?_, ?_⟩
      · intro last mem q inList
        obtain rfl := Option.some.inj (ends.symm.trans mem)
        by_contra beyond
        rw [not_or, Int.not_le, Int.not_le] at beyond
        have apart : ∀ r ∈ part :: rest, frameOf r ≠ totalOf q := fun r mem => by
          have := isLast r mem
          omega
        have low : 0 ≤ totalOf q := Int.natCast_nonneg _
        have reach := ((warned (totalOf q)).mp
          ((exact_ (totalOf q)).mpr ⟨apart, low, q, inList, Int.le_refl _⟩)).2.2
        omega
      · intro last mem k low below apart
        obtain rfl := Option.some.inj (ends.symm.trans mem)
        exact ((exact_ k).mp ((warned k).mpr ⟨apart, low, .inl below⟩)).2.2
    · intro ⟨once, closed, within⟩
      obtain ⟨warnings, reported, nodup, warned⟩ :=
        missingFrames_rising fileid ((rising_iff sorted).mpr once)
      refine ⟨warnings, reported, nodup, fun k => ?_⟩
      rw [warned]
      refine and_congr_right fun apart => and_congr_right fun low => ?_
      constructor
      · rintro (below | le)
        · exact within _ ends k low below apart
        · exact ⟨_, inside, le⟩
      · intro ⟨q, mem, le⟩
        have notLast := apart _ inside
        have bound := closed _ ends q mem
        omega

/-! The parts that frames leave in the directory. -/

variable {csp : Csp} {env : Environment}

theorem tmParseFile_part (env : Environment) (rx : Receiver) (frame : ComFrameFile)
    (kind : frame.type = tmTypeFilePart) :
    ∃ rc rx', tmParseFile env frame rx = some (rc, rx') ∧ ∀ path, (rx'.files path).isSome ↔
      (rx.files path).isSome ∨ env.opens (partPath frame.fileid frame.nframe frame.total) ∧
        path = partPath frame.fileid frame.nframe frame.total := by
  have notStart : tmTypeFilePart ≠ tmTypeFileStart := by decide
  generalize own : partPath frame.fileid frame.nframe frame.total = fname
  have found : target env frame (startPart frame rx) = if env.opens fname then some fname
      else none := by
    simp [target, startPart, own]
  simp only [tmParseFile, kind, notStart, ↓reduceIte, Option.bind_eq_bind, Option.bind_some,
    true_or, or_true, found]
  by_cases opens : env.opens fname
  · rw [if_pos opens]
    refine ⟨_, _, rfl, fun path => ?_⟩
    have files : (closeFile frame (writeFile frame fname (startPart frame rx))).files =
        Function.update rx.files fname (some ([] ++ written frame)) := by
      simp [closeFile, writeFile, startPart, kind]
    rw [files, Function.update_apply]
    by_cases same : path = fname
    · simp [same, opens]
    · simp [same]
  · rw [if_neg opens]
    refine ⟨_, _, rfl, fun path => ?_⟩
    simp [startPart, opens]

def fileOf (csp : Csp) (frame : ComFrameFile) : UInt16 := csp.ntoh16 frame.fileid
def partOf (csp : Csp) (frame : ComFrameFile) : Part :=
  (csp.ntoh16 frame.nframe, csp.ntoh16 frame.total)

def pathOf (fileid : UInt16) (part : Part) : Path := partPath fileid part.1 part.2

theorem deliver_part_files (csp : Csp) (env : Environment) (rx : Receiver) {frame : ComFrameFile}
    (kind : frame.type = tmTypeFilePart) :
    ∃ rx', deliver csp env rx frame = some rx' ∧ ∀ path, (rx'.files path).isSome ↔
      (rx.files path).isSome ∨ env.opens (pathOf (fileOf csp frame) (partOf csp frame)) ∧
        path = pathOf (fileOf csp frame) (partOf csp frame) := by
  have known : tmTypeFileStart ≤ tmTypeFilePart ∧ tmTypeFilePart ≤ tmTypeFilePart := by decide
  have decoded : comReceiveFile csp frame = some { frame with
      nframe := csp.ntoh16 frame.nframe
      total := csp.ntoh16 frame.total
      fileid := csp.ntoh16 frame.fileid } := by
    rw [comReceiveFile, kind, if_pos known]
  obtain ⟨rc, rx', parsed, files⟩ := tmParseFile_part env rx { frame with
      nframe := csp.ntoh16 frame.nframe
      total := csp.ntoh16 frame.total
      fileid := csp.ntoh16 frame.fileid } kind
  exact ⟨rx', by simp [deliver, receive, decoded, parsed], files⟩

theorem run_parts_files (csp : Csp) (env : Environment) {frames : List ComFrameFile}
    (kinds : ∀ f ∈ frames, f.type = tmTypeFilePart) (rx : Receiver) :
    ∃ rx', run (deliver csp env) rx frames = some rx' ∧ ∀ path, (rx'.files path).isSome ↔
      (rx.files path).isSome ∨ ∃ f ∈ frames, env.opens (pathOf (fileOf csp f) (partOf csp f)) ∧
        path = pathOf (fileOf csp f) (partOf csp f) := by
  induction frames generalizing rx with
  | nil => exact ⟨rx, rfl, by simp⟩
  | cons frame rest ih =>
    rw [List.forall_mem_cons] at kinds
    obtain ⟨next, delivered, here⟩ := deliver_part_files csp env rx kinds.1
    obtain ⟨rx', reached, files⟩ := ih kinds.2 next
    refine ⟨rx', run_cons delivered reached, fun path => ?_⟩
    rw [files, here, or_assoc]
    simp only [List.mem_cons, exists_eq_or_imp]

structure Listed (files : Path → Option (List UInt8)) (fileid : UInt16) (parts : List Part) :
    Prop where
  sorted : parts.Pairwise Before
  mem_iff : ∀ part, part ∈ parts ↔ (files (pathOf fileid part)).isSome

/-- After any `PART` frames into an empty directory: the parts listed are the
    ones that came and could be stored, and the report on them is exact when they
    are gathered, and not otherwise. -/
theorem received_report_iff (csp : Csp) (env : Environment) {frames : List ComFrameFile}
    (kinds : ∀ f ∈ frames, f.type = tmTypeFilePart) {rx : Receiver}
    (received : run (deliver csp env) (initial fun _ => none) frames = some rx)
    (fileid : UInt16) {parts : List Part} (listed : Listed rx.files fileid parts) :
    (∀ part, part ∈ parts ↔ env.opens (pathOf fileid part) ∧
      ∃ f ∈ frames, fileOf csp f = fileid ∧ partOf csp f = part) ∧
      (Exact fileid parts ↔ Gathered parts) := by
  refine ⟨fun part => ?_, report_exact_iff fileid listed.sorted⟩
  obtain ⟨rx', reached, files⟩ := run_parts_files csp env kinds (initial fun _ => none)
  obtain rfl := Option.some.inj (received.symm.trans reached)
  rw [listed.mem_iff, files]
  constructor
  · rintro (none_before | ⟨f, mem, opens, same⟩)
    · cases none_before
    · obtain ⟨id_eq, frame_eq, total_eq⟩ := partPath_injective same
      have part_eq : partOf csp f = part := Prod.ext frame_eq.symm total_eq.symm
      rw [same]
      exact ⟨opens, f, mem, id_eq.symm, part_eq⟩
  · rintro ⟨opens, f, mem, rfl, rfl⟩
    exact .inr ⟨f, mem, opens, rfl⟩

section Witness
open FileTransfer

def arriving (fileid : UInt16) (part : Part) : ComFrameFile :=
  fileFrame hostOrder 1 (frameOf part) tmTypeFilePart fileid (totalOf part) []

theorem partOf_arriving (fileid : UInt16) (part : Part) :
    partOf hostOrder (arriving fileid part) = part := by
  have back (n : UInt16) : UInt16.ofInt (n.toNat : Int) = n := by
    rw [FileParts.ofInt_eq_ofNat, UInt16.ofNat_toNat]
  exact Prod.ext (back part.1) (back part.2)

theorem arriving_kinds (fileid : UInt16) (parts : List Part) :
    ∀ f ∈ parts.map (arriving fileid), f.type = tmTypeFilePart := by
  intro f mem
  obtain ⟨part, -, rfl⟩ := List.mem_map.mp mem
  rfl

theorem arriving_listed (fileid : UInt16) (parts : List Part) (sorted : parts.Pairwise Before) :
    ∃ rx, run (deliver hostOrder plainEnvironment) (initial fun _ => none)
        (parts.map (arriving fileid)) = some rx ∧ Listed rx.files fileid parts := by
  obtain ⟨rx, reached, files⟩ := run_parts_files hostOrder plainEnvironment
    (arriving_kinds fileid parts) (initial fun _ => none)
  refine ⟨rx, reached, sorted, fun part => ?_⟩
  rw [files]
  constructor
  · intro mem
    refine .inr ⟨arriving fileid part, List.mem_map_of_mem mem, rfl, ?_⟩
    rw [partOf_arriving]
    rfl
  · rintro (none_before | ⟨f, mem, -, same⟩)
    · cases none_before
    · obtain ⟨q, inside, rfl⟩ := List.mem_map.mp mem
      rw [partOf_arriving] at same
      obtain ⟨-, frame_eq, total_eq⟩ := partPath_injective same
      rwa [Prod.ext frame_eq total_eq]

theorem gap_reported :
    ∃ rx, run (deliver hostOrder plainEnvironment) (initial fun _ => none)
        ([((0, 2) : Part), (2, 2)].map (arriving 5)) = some rx ∧
      Listed rx.files 5 [(0, 2), (2, 2)] ∧ Exact 5 [(0, 2), (2, 2)] := by
  obtain ⟨rx, received, listed⟩ := arriving_listed 5 [(0, 2), (2, 2)] (by decide)
  have gathered : Gathered [(0, 2), (2, 2)] := by
    refine ⟨by decide, ?_, ?_⟩
    · rintro last ⟨⟩ part mem
      rcases List.mem_pair.mp mem with rfl | rfl <;> decide
    · rintro last ⟨⟩ k _ (below : k < 2) _
      exact ⟨(2, 2), by decide, Int.le_of_lt below⟩
  exact ⟨rx, received, listed,
    (received_report_iff hostOrder plainEnvironment (arriving_kinds 5 _) received 5 listed).2.mpr
      gathered⟩

/-- Frame 0 sent again after the file grew: the loop does not end. -/
theorem grown_file_not_reported :
    ∃ rx, run (deliver hostOrder plainEnvironment) (initial fun _ => none)
        ([((0, 0) : Part), (0, 1)].map (arriving 5)) = some rx ∧
      Listed rx.files 5 [(0, 0), (0, 1)] ∧
      missingFrames ([((0, 0) : Part), (0, 1)].map (nameOf 5)) = none ∧
      ¬ Exact 5 [(0, 0), (0, 1)] := by
  obtain ⟨rx, received, listed⟩ := arriving_listed 5 [(0, 0), (0, 1)] (by decide)
  have falls : ¬ Rising [(0, 0), (0, 1)] := by
    unfold Rising
    decide
  have lost := missingFrames_not_rising 5 falls
  refine ⟨rx, received, listed, lost, ?_⟩
  rintro ⟨warnings, reported, -⟩
  rw [lost] at reported
  cases reported

end Witness

end MergeReport
