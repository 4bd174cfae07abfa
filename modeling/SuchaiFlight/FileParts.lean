import SuchaiFlight.FileTransfer

/-!
The partwise transfer: `tm_send_file_parts` of `cmdTM.c` and the `PART` frames
in `tm_parse_file`. Every frame goes to a file of its own, so the frames may
arrive in any order and more than once.
-/
namespace FileParts
open CStrings StorageApi RepoCommand Blocks Runs DecimalText FileFrames FileReceiver FileTransfer

def sizeT (x : Int) : Nat := (x % 18446744073709551616).toNat

/-- The largest block that `malloc` gives, `PTRDIFF_MAX` bytes. -/
def ptrdiffMax : Nat := 9223372036854775807

/-- `file` is what the file holds, or `none` when it cannot be opened; `heap`
    tells whether the buffer is allocated. A negative offset makes `fseek` fail,
    and the reading starts at the first byte. -/
def tmSendFileParts (csp : Csp) (schCommNode : UInt8) (link : Link) (heap : Bool)
    (file : Option (List UInt8)) (fileId startFrame endFrame : Int32) :
    Option (Int32 × List ComFrameFile) :=
  match file with
  | none => some (cmdError, [])
  | some contents =>
    let fileSize := contents.length
    let startByte := (Int32.ofInt (startFrame.toInt * comFrameMaxLen)).toInt
    let readBytes := sizeT ((endFrame - startFrame).toInt * comFrameMaxLen)
    let readBytes :=
      if endFrame < 0 then fileSize
      else if fileSize < sizeT (startByte + readBytes) then sizeT (fileSize - startByte)
      else readBytes
    if fileSize < startByte ∨ fileSize < sizeT (startByte + readBytes) then
      some (cmdSyntaxError, [])
    else if !heap || ptrdiffMax < readBytes then some (cmdError, [])
    else if fileSize < startByte.toNat + readBytes then none
    else
      let buffer := (contents.drop startByte.toNat).take readBytes
      let totalFrames := Int32.ofNat (blockCount comFrameMaxLen fileSize)
      some (comSendFileParts csp schCommNode link buffer (UInt16.ofInt fileId.toInt)
        startFrame.toInt (totalFrames - 1).toInt tmTypeFilePart false 0)

def partContent (data : List UInt8) (i : Nat) : List UInt8 :=
  if i = blockCount comFrameMaxLen data.length - 1 then
    trimmed fill (block comFrameMaxLen data i)
  else block comFrameMaxLen data i

variable {csp : Csp} {env : Environment} {schCommNode : UInt8} {link : Link}

def pathOf (fileid : UInt16) (data : List UInt8) (i : Nat) : Path :=
  partPath fileid (UInt16.ofNat i)
    (UInt16.ofNat (blockCount comFrameMaxLen data.length - 1))

def partFrame (csp : Csp) (schCommNode : UInt8) (fileid : UInt16) (data : List UInt8) (i : Nat) :
    ComFrameFile :=
  fileFrame csp schCommNode i tmTypeFilePart fileid (blockCount comFrameMaxLen data.length - 1 : Nat)
    (block comFrameMaxLen data i)

theorem sizeT_natCast {n : Nat} (small : n < 18446744073709551616) : sizeT n = n := by
  simp only [sizeT]
  omega

theorem length_le_of_blockCount {n : Nat} (few : blockCount comFrameMaxLen n ≤ 65536) :
    n ≤ 12582912 := by
  by_contra more
  have := (lt_blockCount_iff (i := 65536) (show 0 < comFrameMaxLen by decide)).mpr
    (show comFrameMaxLen * 65536 < n by simp only [comFrameMaxLen]; omega)
  omega

theorem blockCount_pos {n : Nat} (present : 1 ≤ n) : 0 < blockCount comFrameMaxLen n :=
  (lt_blockCount_iff (by decide)).mpr (by omega)

theorem tmSendFileParts_whole (up : link.Up) (fileId : Int32) {data : List UInt8}
    (present : 1 ≤ data.length) (few : blockCount comFrameMaxLen data.length ≤ 65536) :
    tmSendFileParts csp schCommNode link true (some data) fileId 0 (-1) =
      some (cmdOk, (List.range (blockCount comFrameMaxLen data.length)).map
        (partFrame csp schCommNode (UInt16.ofInt fileId.toInt) data)) := by
  have length := length_le_of_blockCount few
  have size : sizeT (0 + (data.length : Int)) = data.length := by
    rw [Int.zero_add]
    exact sizeT_natCast (by omega)
  have first : (Int32.ofInt ((0 : Int32).toInt * comFrameMaxLen)).toInt = 0 := by decide
  have negative : (-1 : Int32) < 0 := by decide
  have notEmpty : data ≠ [] := List.ne_nil_of_length_pos present
  have pos := blockCount_pos present
  have total : (Int32.ofNat (blockCount comFrameMaxLen data.length) - 1).toInt =
      (blockCount comFrameMaxLen data.length - 1 : Nat) := by
    have step : Int32.ofNat (blockCount comFrameMaxLen data.length) - 1 =
        Int32.ofNat (blockCount comFrameMaxLen data.length - 1) :=
      (Int32.ofNat_sub _ 1 pos).symm
    rw [step]
    exact Int32.toInt_ofNat_of_lt (by omega)
  have inside : ¬ (data.length < (0 : Int) ∨ data.length < data.length) := by omega
  have allocated : ¬ ptrdiffMax < data.length := by
    unfold ptrdiffMax
    omega
  simp only [tmSendFileParts, first, negative, ↓reduceIte, size, total, inside, allocated,
    decide_false, Bool.or_false,
    Bool.not_true, Bool.false_eq_true, Int.toNat_zero, List.drop_zero, List.take_length,
    comSendFileParts_up up, notEmpty]
  simp [blockFrames, partFrame]

/-! One part. -/

theorem toNat_ofNat {n : Nat} (small : n < 65536) : (UInt16.ofNat n).toNat = n := by
  rw [UInt16.toNat_ofNat']
  exact Nat.mod_eq_of_lt small

theorem ofInt_eq_ofNat (n : Nat) : UInt16.ofInt (n : Int) = UInt16.ofNat n := by
  apply UInt16.toNat_inj.mp
  rw [toNat_ofInt, UInt16.toNat_ofNat']

theorem written_part {fileid : UInt16} {data : List UInt8} {i : Nat}
    (few : blockCount comFrameMaxLen data.length ≤ 65536)
    (bound : i < blockCount comFrameMaxLen data.length) :
    written (partFrame hostOrder schCommNode fileid data i) = partContent data i := by
  have last : UInt16.ofInt (i : Int) =
      UInt16.ofInt ((blockCount comFrameMaxLen data.length - 1 : Nat) : Int) ↔
      i = blockCount comFrameMaxLen data.length - 1 := by
    rw [ofInt_eq_ofNat, ofInt_eq_ofNat, ← UInt16.toNat_inj, toNat_ofNat (by omega),
      toNat_ofNat (by omega)]
  have notEnd : tmTypeFilePart ≠ tmTypeFileEnd := by decide
  simp only [written, partFrame, fileFrame, hostOrder, id, last, notEnd, false_or, true_and,
    partContent]
  split
  · exact trimmed_padded fill (block_length_le comFrameMaxLen data i)
  · rename_i inner
    apply padded_of_length
    have more := (lt_blockCount_iff (show 0 < comFrameMaxLen by decide)).mp
      (show i + 1 < blockCount comFrameMaxLen data.length by omega)
    rw [Nat.mul_succ] at more
    rw [block, List.length_take, List.length_drop]
    omega

theorem deliver_part (rx : Receiver) {fileid : UInt16} {data : List UInt8} {i : Nat}
    (few : blockCount comFrameMaxLen data.length ≤ 65536)
    (bound : i < blockCount comFrameMaxLen data.length) (opens : env.opens (pathOf fileid data i)) :
    deliver csp env rx (partFrame csp schCommNode fileid data i) =
      some (initial (Function.update rx.files (pathOf fileid data i)
        (some (partContent data i)))) := by
  have decoded : comReceiveFile csp (partFrame csp schCommNode fileid data i) =
      some (partFrame hostOrder schCommNode fileid data i) :=
    comReceiveFile_fileFrame _ _ _ _ (by decide)
  have kind : (partFrame hostOrder schCommNode fileid data i).type = tmTypeFilePart := rfl
  have notStart : tmTypeFilePart ≠ tmTypeFileStart := by decide
  have path : partPath (partFrame hostOrder schCommNode fileid data i).fileid
      (partFrame hostOrder schCommNode fileid data i).nframe
      (partFrame hostOrder schCommNode fileid data i).total = pathOf fileid data i := by
    simp only [partFrame, fileFrame, hostOrder, id, ofInt_eq_ofNat, pathOf]
  have found : target env (partFrame hostOrder schCommNode fileid data i)
      (startPart (partFrame hostOrder schCommNode fileid data i) rx) =
      some (pathOf fileid data i) := by
    simp [target, startPart, path, opens]
  simp only [deliver, receive, decoded, tmParseFile, kind, notStart, ↓reduceIte, found,
    Option.bind_eq_bind, Option.bind_some, true_or, or_true]
  simp [closeFile, writeFile, kind, written_part few bound, startPart, initial]

/-! The names of the parts are distinct. -/

theorem decimal_length_le {n : Nat} (small : n < 65536) : (decimal n).length ≤ 5 := by
  have five := decimal_length_step (decimal_length_step (decimal_length_step
    (decimal_length_step decimal_length_one)))
  exact five n (by omega)

theorem partPath_shape (fileid nframe total : UInt16) :
    ∃ rest, partPath fileid nframe total =
      (bname ++ decimal fileid.toNat ++ [underscore]) ++
        (decimal nframe.toNat ++ underscore :: rest) := by
  have id_len := decimal_length_le fileid.toNat_lt
  have frame_len := decimal_length_le nframe.toNat_lt
  have split : bname ++ decimal fileid.toNat ++ [underscore] ++ decimal nframe.toNat ++
      [underscore] ++ decimal total.toNat ++ partSuffix =
      (bname ++ decimal fileid.toNat ++ [underscore] ++ decimal nframe.toNat ++ [underscore]) ++
        (decimal total.toNat ++ partSuffix) := by
    simp only [List.append_assoc]
  have whole : (bname ++ decimal fileid.toNat ++ [underscore] ++ decimal nframe.toNat ++
      [underscore]).length ≤ bname.length + 20 - 1 := by
    simp only [List.length_append, bname, List.length_cons, List.length_nil]
    omega
  rw [partPath, split, List.take_append, List.take_of_length_le whole]
  generalize List.take _ (decimal total.toNat ++ partSuffix) = rest
  exact ⟨rest, by simp only [List.append_assoc, List.cons_append, List.nil_append]⟩

theorem pathOf_injective {fileid : UInt16} {data : List UInt8} {i j : Nat}
    (small_i : i < 65536) (small_j : j < 65536)
    (same : pathOf fileid data i = pathOf fileid data j) : i = j := by
  obtain ⟨rest_i, shape_i⟩ := partPath_shape fileid (UInt16.ofNat i)
    (UInt16.ofNat (blockCount comFrameMaxLen data.length - 1))
  obtain ⟨rest_j, shape_j⟩ := partPath_shape fileid (UInt16.ofNat j)
    (UInt16.ofNat (blockCount comFrameMaxLen data.length - 1))
  rw [pathOf, pathOf, shape_i, shape_j, List.append_right_inj, toNat_ofNat small_i,
    toNat_ofNat small_j] at same
  have digits := congrArg (List.takeWhile digit) same
  rw [takeWhile_decimal i (by decide), takeWhile_decimal j (by decide)] at digits
  exact decimal_injective digits

/-! All parts, in any order. -/

def partFiles (files : Path → Option (List UInt8)) (fileid : UInt16) (data : List UInt8)
    (order : List Nat) : Path → Option (List UInt8) :=
  order.foldl (fun files i => Function.update files (pathOf fileid data i)
    (some (partContent data i))) files

theorem run_parts {fileid : UInt16} {data : List UInt8}
    (few : blockCount comFrameMaxLen data.length ≤ 65536) {order : List Nat}
    (bound : ∀ i ∈ order, i < blockCount comFrameMaxLen data.length)
    (opens : ∀ i < blockCount comFrameMaxLen data.length, env.opens (pathOf fileid data i))
    (rx : Receiver) :
    ∃ rx', run (deliver csp env) rx (order.map (partFrame csp schCommNode fileid data)) =
        some rx' ∧ rx'.files = partFiles rx.files fileid data order := by
  induction order generalizing rx with
  | nil => exact ⟨rx, rfl, rfl⟩
  | cons i rest ih =>
    have within := bound i (by simp)
    have stepped : deliver csp env rx (partFrame csp schCommNode fileid data i) = _ :=
      deliver_part rx few within (opens i within)
    obtain ⟨rx', reached, files⟩ := ih (fun j mem => bound j (List.mem_cons_of_mem i mem)) _
    exact ⟨rx', run_cons stepped reached, files⟩

theorem partFiles_apply {fileid : UInt16} {data : List UInt8}
    (few : blockCount comFrameMaxLen data.length ≤ 65536) {order : List Nat}
    (bound : ∀ i ∈ order, i < blockCount comFrameMaxLen data.length)
    (files : Path → Option (List UInt8)) {i : Nat}
    (within : i < blockCount comFrameMaxLen data.length) :
    partFiles files fileid data order (pathOf fileid data i) =
      if i ∈ order then some (partContent data i) else files (pathOf fileid data i) := by
  induction order generalizing files with
  | nil => simp [partFiles]
  | cons j rest ih =>
    have later := ih (fun k mem => bound k (List.mem_cons_of_mem j mem))
      (Function.update files (pathOf fileid data j) (some (partContent data j)))
    have unfolded : partFiles files fileid data (j :: rest) = partFiles
      (Function.update files (pathOf fileid data j) (some (partContent data j))) fileid data rest :=
      rfl
    rw [unfolded, later]
    by_cases here : i = j
    · subst here
      simp
    · have other : pathOf fileid data i ≠ pathOf fileid data j := by
        have := bound j (by simp)
        exact fun same => here (pathOf_injective (by omega) (by omega) same)
      simp [here, other]

theorem partFiles_other {fileid : UInt16} {data : List UInt8} {order : List Nat}
    (files : Path → Option (List UInt8)) {path : Path}
    (other : ∀ i ∈ order, path ≠ pathOf fileid data i) :
    partFiles files fileid data order path = files path := by
  induction order generalizing files with
  | nil => rfl
  | cons j rest ih =>
    have later := ih (Function.update files (pathOf fileid data j) (some (partContent data j)))
      (fun k mem => other k (List.mem_cons_of_mem j mem))
    exact later.trans (Function.update_of_ne (other j (by simp)) _ _)

theorem partFiles_congr {fileid : UInt16} {data : List UInt8}
    (few : blockCount comFrameMaxLen data.length ≤ 65536) {first second : List Nat}
    (bound : ∀ i ∈ first, i < blockCount comFrameMaxLen data.length)
    (same : ∀ i, i ∈ first ↔ i ∈ second) (files : Path → Option (List UInt8)) :
    partFiles files fileid data first = partFiles files fileid data second := by
  have bound' : ∀ i ∈ second, i < blockCount comFrameMaxLen data.length :=
    fun i mem => bound i ((same i).mpr mem)
  funext path
  by_cases part : ∃ i ∈ first, path = pathOf fileid data i
  · obtain ⟨i, mem, rfl⟩ := part
    rw [partFiles_apply few bound files (bound i mem), partFiles_apply few bound' files (bound i mem),
      if_pos mem, if_pos ((same i).mp mem)]
  · have other : ∀ i ∈ first, path ≠ pathOf fileid data i := fun i mem eq => part ⟨i, mem, eq⟩
    rw [partFiles_other files other,
      partFiles_other files fun i mem => other i ((same i).mpr mem)]

theorem flatMap_partContent {data : List UInt8} (present : 1 ≤ data.length) :
    (List.range (blockCount comFrameMaxLen data.length)).flatMap (partContent data) =
      data.take (comFrameMaxLen * (blockCount comFrameMaxLen data.length - 1)) ++
        trimmed fill
          (data.drop (comFrameMaxLen * (blockCount comFrameMaxLen data.length - 1))) := by
  obtain ⟨m, count⟩ := Nat.exists_eq_succ_of_ne_zero (Nat.ne_of_gt (blockCount_pos present))
  have inner : ∀ i ∈ List.range m, partContent data i = block comFrameMaxLen data i := by
    intro i mem
    have lt := List.mem_range.mp mem
    rw [partContent, if_neg (by omega)]
  have last : block comFrameMaxLen data m = data.drop (comFrameMaxLen * m) := by
    apply block_last
    by_contra more
    have next := (lt_blockCount_iff (show 0 < comFrameMaxLen by decide)).mpr
      (Nat.lt_of_not_le more)
    omega
  have final : partContent data m = trimmed fill (data.drop (comFrameMaxLen * m)) := by
    rw [partContent, if_pos (by omega), last]
  rw [count, Nat.succ_sub_one, List.range_succ, List.flatMap_append, List.flatMap_congr inner,
    flatMap_block, List.flatMap_singleton, final]

theorem partFrame_injective {fileid : UInt16} {data : List UInt8} {i j : Nat}
    (small_i : i < 65536) (small_j : j < 65536)
    (same : partFrame csp schCommNode fileid data i = partFrame csp schCommNode fileid data j) :
    i = j := by
  have number := congrArg (fun frame => csp.ntoh16 frame.nframe) same
  simp only [partFrame, fileFrame, csp.ntoh16_hton16, ofInt_eq_ofNat] at number
  rw [← toNat_ofNat small_i, number, toNat_ofNat small_j]

theorem delivery_order {frameOf : Nat → ComFrameFile} {count : Nat}
    {deliveries : List ComFrameFile}
    (known : ∀ frame ∈ deliveries, frame ∈ (List.range count).map frameOf) :
    ∃ order : List Nat, deliveries = order.map frameOf ∧ ∀ i ∈ order, i < count := by
  induction deliveries with
  | nil => exact ⟨[], rfl, by simp⟩
  | cons frame rest ih =>
    obtain ⟨order, rfl, bound⟩ := ih fun f mem => known f (List.mem_cons_of_mem frame mem)
    obtain ⟨i, mem, rfl⟩ := List.mem_map.mp (known frame (by simp))
    refine ⟨i :: order, rfl, ?_⟩
    intro j
    rw [List.mem_cons]
    rintro (rfl | later)
    · exact List.mem_range.mp mem
    · exact bound j later

/-- The parts of a whole file, delivered in any order and any number of times,
    leave the same files, which together hold the data up to the fill bytes at
    the end of the last frame. -/
theorem parts_in_any_order (csp : Csp) (env : Environment) (schCommNode : UInt8) (up : link.Up)
    (fileId : Int32) (data : List UInt8) (present : 1 ≤ data.length)
    (few : blockCount comFrameMaxLen data.length ≤ 65536) (rx : Receiver)
    (opens : ∀ i < blockCount comFrameMaxLen data.length,
      env.opens (pathOf (UInt16.ofInt fileId.toInt) data i)) :
    ∃ rc frames files,
      tmSendFileParts csp schCommNode link true (some data) fileId 0 (-1) = some (rc, frames) ∧
      frames.length = blockCount comFrameMaxLen data.length ∧
      (∀ deliveries : List ComFrameFile, (∀ frame, frame ∈ deliveries ↔ frame ∈ frames) →
        ∃ rx', run (deliver csp env) rx deliveries = some rx' ∧ rx'.files = files) ∧
      (∀ path, (∀ i < frames.length, path ≠ pathOf (UInt16.ofInt fileId.toInt) data i) →
        files path = rx.files path) ∧
      (List.range frames.length).flatMap
          (fun i => (files (pathOf (UInt16.ofInt fileId.toInt) data i)).getD []) =
        data.take (comFrameMaxLen * (frames.length - 1)) ++
          trimmed fill (data.drop (comFrameMaxLen * (frames.length - 1))) := by
  generalize id_eq : UInt16.ofInt fileId.toInt = fileid at opens ⊢
  have sent : tmSendFileParts csp schCommNode link true (some data) fileId 0 (-1) = _ :=
    tmSendFileParts_whole up fileId present few
  have all : ∀ i ∈ List.range (blockCount comFrameMaxLen data.length),
      i < blockCount comFrameMaxLen data.length := fun i mem => List.mem_range.mp mem
  refine ⟨_, _, partFiles rx.files fileid data
    (List.range (blockCount comFrameMaxLen data.length)), sent, by simp, ?_, ?_, ?_⟩
  · intro deliveries same
    rw [id_eq] at same
    obtain ⟨order, rfl, bound⟩ := delivery_order fun frame mem => (same frame).mp mem
    obtain ⟨rx', reached, files⟩ := run_parts few bound opens rx
    refine ⟨rx', reached, files.trans (partFiles_congr few bound ?_ rx.files)⟩
    intro i
    refine ⟨fun mem => List.mem_range.mpr (bound i mem), fun mem => ?_⟩
    have delivered := (same _).mpr (List.mem_map_of_mem mem)
    obtain ⟨j, inOrder, eq⟩ := List.mem_map.mp delivered
    have := bound j inOrder
    have := all i mem
    exact partFrame_injective (by omega) (by omega) eq ▸ inOrder
  · intro path other
    rw [List.length_map, List.length_range] at other
    exact partFiles_other rx.files fun i mem => other i (all i mem)
  · rw [List.length_map, List.length_range, ← flatMap_partContent present]
    apply List.flatMap_congr
    intro i mem
    rw [partFiles_apply few all rx.files (all i mem), if_pos mem]
    rfl

def longFile : List UInt8 := List.replicate 192 1 ++ [2, 3]

theorem longFile_length : longFile.length = 194 := by
  rw [longFile, List.length_append, List.length_replicate]
  rfl

theorem two_parts_in_any_order :
    ∃ rc frames files,
      tmSendFileParts hostOrder 1 plainLink true (some longFile) 5 0 (-1) = some (rc, frames) ∧
      frames.length = 2 ∧
      (∀ deliveries : List ComFrameFile, (∀ frame, frame ∈ deliveries ↔ frame ∈ frames) →
        ∃ rx', run (deliver hostOrder plainEnvironment) (initial fun _ => none) deliveries =
          some rx' ∧ rx'.files = files) ∧
      (List.range frames.length).flatMap
          (fun i => (files (pathOf (UInt16.ofInt (5 : Int32).toInt) longFile i)).getD []) =
        longFile.take (comFrameMaxLen * (frames.length - 1)) ++
          trimmed fill (longFile.drop (comFrameMaxLen * (frames.length - 1))) := by
  obtain ⟨rc, frames, files, sent, count, same, -, content⟩ :=
    parts_in_any_order hostOrder plainEnvironment 1 plainLink_up 5 longFile
      (by rw [longFile_length]; decide) (by rw [longFile_length]; decide) (initial fun _ => none)
      (fun _ _ => rfl)
  rw [longFile_length] at count
  exact ⟨rc, frames, files, sent, count, same, content⟩

end FileParts
