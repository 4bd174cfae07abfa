import SuchaiFlight.FileParts

/-!
Requests for some parts of a file. `tm_send_file_parts` numbers its frames from
`start_frame` on and reads the file from `start_frame * 192` on; a negative
start leaves the file position at 0, so the numbers and the bytes part.
-/
namespace PartRequests
open CStrings StorageApi RepoCommand Blocks FileFrames FileReceiver FileTransfer FileParts

def number (csp : Csp) (frame : ComFrameFile) : Nat := (csp.ntoh16 frame.nframe).toNat

structure OwnPart (csp : Csp) (data : List UInt8) (frame : ComFrameFile) : Prop where
  type : frame.type = tmTypeFilePart
  inFile : number csp frame < blockCount comFrameMaxLen data.length
  bytes : frame.data = padded comFrameMaxLen fill (block comFrameMaxLen data (number csp frame))
  total : (csp.ntoh16 frame.total).toNat = blockCount comFrameMaxLen data.length - 1

def partsBetween (data : List UInt8) (start stop : Int) : List Nat :=
  (List.range (blockCount comFrameMaxLen data.length)).filter fun k => start ≤ k ∧ k < stop

def Answered (csp : Csp) (data : List UInt8) (start stop : Int)
    (result : Option (Int32 × List ComFrameFile)) : Prop :=
  ∃ rc frames, result = some (rc, frames) ∧ (∀ frame ∈ frames, OwnPart csp data frame) ∧
    (0 ≤ start → start < stop → frames.map (number csp) = partsBetween data start stop)

def wrapped (start : Int) (i : Nat) : Nat := ((start + i) % 65536).toNat

/-- The bytes that are read for a negative start. -/
def bytesFromStart (size : Nat) (start stop : Int) : Nat :=
  if stop < 0 then size else (comFrameMaxLen * (stop - start)).toNat

/-- The check of the limits stops a request with a negative start. -/
def Refused (size : Nat) (start stop : Int) : Prop :=
  stop < 0 ∧ size + comFrameMaxLen * start < 0

/-- The start is not negative, or the request is refused, or the file has 65536
    parts and those at its beginning equal those under the wrapped numbers. -/
def Answerable (data : List UInt8) (start stop : Int) : Prop :=
  0 ≤ start ∨ Refused data.length start stop ∨
    (bytesFromStart data.length start stop ≤ data.length ∧
      blockCount comFrameMaxLen data.length = 65536 ∧
      ∀ i < blockCount comFrameMaxLen (bytesFromStart data.length start stop),
        padded comFrameMaxLen fill (block comFrameMaxLen data i) =
          padded comFrameMaxLen fill (block comFrameMaxLen data (wrapped start i)))

structure InRange (startFrame endFrame : Int32) : Prop where
  startLow : -8388608 < startFrame.toInt
  startHigh : startFrame.toInt < 8388608
  endLow : -8388608 < endFrame.toInt
  endHigh : endFrame.toInt < 8388608

variable {csp : Csp} {schCommNode : UInt8} {link : Link} {fileId startFrame endFrame : Int32}
  {data : List UInt8}

/-! The arithmetic of `tm_send_file_parts`. -/

theorem InRange.startByte (range : InRange startFrame endFrame) :
    (Int32.ofInt (startFrame.toInt * comFrameMaxLen)).toInt = comFrameMaxLen * startFrame.toInt := by
  have low := range.startLow
  have high := range.startHigh
  unfold comFrameMaxLen
  rw [Int32.toInt_ofInt_of_le (by omega) (by omega)]
  omega

theorem InRange.difference (range : InRange startFrame endFrame) :
    (endFrame - startFrame).toInt = endFrame.toInt - startFrame.toInt := by
  have := range.startLow
  have := range.startHigh
  have := range.endLow
  have := range.endHigh
  rw [Int32.toInt_sub]
  exact Int.bmod_eq_of_le (by omega) (by omega)

theorem negative_iff (x : Int32) : x < 0 ↔ x.toInt < 0 := Int32.lt_iff_toInt_lt

def readBytes (size : Nat) (start stop : Int) : Nat :=
  if stop < 0 then size
  else if size < sizeT (comFrameMaxLen * stop) then sizeT (size - comFrameMaxLen * start)
  else sizeT (comFrameMaxLen * (stop - start))

theorem sizeT_of_nonneg {x : Int} (low : 0 ≤ x) (high : x < 18446744073709551616) :
    sizeT x = x.toNat := by
  rw [sizeT, Int.emod_eq_of_lt low high]

theorem sizeT_of_neg {x : Int} (low : -18446744073709551616 ≤ x) (high : x < 0) :
    sizeT x = (x + 18446744073709551616).toNat := by
  rw [sizeT, ← Int.add_emod_right, Int.emod_eq_of_lt (by omega) (by omega)]

theorem sizeT_add (x y : Int) : sizeT (x + sizeT y) = sizeT (x + y) := by
  unfold sizeT
  omega

theorem tmSendFileParts_eq (up : link.Up) (range : InRange startFrame endFrame) :
    tmSendFileParts csp schCommNode link true (some data) fileId startFrame endFrame =
      if data.length < comFrameMaxLen * startFrame.toInt ∨
          data.length < sizeT (comFrameMaxLen * startFrame.toInt +
            readBytes data.length startFrame.toInt endFrame.toInt) then
        some (cmdSyntaxError, [])
      else if ptrdiffMax < readBytes data.length startFrame.toInt endFrame.toInt then
        some (cmdError, [])
      else if data.length < (comFrameMaxLen * startFrame.toInt).toNat +
          readBytes data.length startFrame.toInt endFrame.toInt then none
      else
        let buffer := (data.drop (comFrameMaxLen * startFrame.toInt).toNat).take
          (readBytes data.length startFrame.toInt endFrame.toInt)
        some (if buffer = [] then cmdError else cmdOk,
          blockFrames csp schCommNode tmTypeFilePart (UInt16.ofInt fileId.toInt) startFrame.toInt
            (Int32.ofNat (blockCount comFrameMaxLen data.length) - 1).toInt buffer) := by
  have stop : comFrameMaxLen * startFrame.toInt +
      comFrameMaxLen * (endFrame.toInt - startFrame.toInt) = comFrameMaxLen * endFrame.toInt := by
    rw [← Int.mul_add]
    congr 1
    omega
  have turned : (endFrame.toInt - startFrame.toInt) * comFrameMaxLen =
      comFrameMaxLen * (endFrame.toInt - startFrame.toInt) := Int.mul_comm _ _
  have read : (if endFrame < 0 then data.length
      else if data.length < sizeT (comFrameMaxLen * startFrame.toInt +
          sizeT ((endFrame.toInt - startFrame.toInt) * comFrameMaxLen)) then
        sizeT (data.length - comFrameMaxLen * startFrame.toInt)
      else sizeT ((endFrame.toInt - startFrame.toInt) * comFrameMaxLen)) =
      readBytes data.length startFrame.toInt endFrame.toInt := by
    simp only [readBytes, negative_iff, sizeT_add, stop, turned]
  simp only [tmSendFileParts, range.startByte, range.difference, read, Bool.not_true,
    Bool.false_or, decide_eq_true_eq, comSendFileParts_up up]

/-! The frames that are sent. -/

theorem toNat_ofInt (x : Int) : (UInt16.ofInt x).toNat = (x % 65536).toNat := by
  simp only [UInt16.ofInt, UInt16.toNat_ofNat']
  omega

theorem total_eq (present : 0 < data.length) (small : data.length < 65536 * 192) :
    (UInt16.ofInt (Int32.ofNat (blockCount comFrameMaxLen data.length) - 1).toInt).toNat =
      blockCount comFrameMaxLen data.length - 1 := by
  have pos := blockCount_pos present
  have few : blockCount comFrameMaxLen data.length ≤ 65536 := by
    by_contra more
    have inside := (lt_blockCount_iff (show 0 < comFrameMaxLen by decide)).mp (Nat.lt_of_not_le more)
    unfold comFrameMaxLen at inside
    omega
  have step : Int32.ofNat (blockCount comFrameMaxLen data.length) - 1 =
      Int32.ofNat (blockCount comFrameMaxLen data.length - 1) :=
    (Int32.ofNat_sub _ 1 pos).symm
  rw [step, Int32.toInt_ofNat_of_lt (by omega), toNat_ofInt]
  omega

def numbered (csp : Csp) (schCommNode : UInt8) (fileId : Int32) (data : List UInt8) (nframe : Int)
    (k : Nat) : ComFrameFile :=
  fileFrame csp schCommNode nframe tmTypeFilePart (UInt16.ofInt fileId.toInt)
    (Int32.ofNat (blockCount comFrameMaxLen data.length) - 1).toInt (block comFrameMaxLen data k)

theorem number_numbered (start : Int) (i k : Nat) :
    number csp (numbered csp schCommNode fileId data (start + i) k) = wrapped start i := by
  simp only [number, numbered, fileFrame, csp.ntoh16_hton16, toNat_ofInt, wrapped]

theorem ownPart_numbered (present : 0 < data.length) (small : data.length < 65536 * 192)
    (start : Int) (i k : Nat) :
    OwnPart csp data (numbered csp schCommNode fileId data (start + i) k) ↔
      wrapped start i < blockCount comFrameMaxLen data.length ∧
        padded comFrameMaxLen fill (block comFrameMaxLen data k) =
          padded comFrameMaxLen fill (block comFrameMaxLen data (wrapped start i)) := by
  constructor
  · intro own
    have inFile := own.inFile
    have bytes := own.bytes
    rw [number_numbered] at inFile bytes
    exact ⟨inFile, bytes⟩
  · intro ⟨inFile, bytes⟩
    refine ⟨rfl, ?_, ?_, ?_⟩
    · rw [number_numbered]
      exact inFile
    · rw [number_numbered]
      exact bytes
    · simp only [numbered, fileFrame, csp.ntoh16_hton16]
      exact total_eq present small

theorem blockFrames_numbered {first count : Nat} (start : Int)
    (inside : comFrameMaxLen * first + count ≤ data.length)
    (whole : comFrameMaxLen ∣ count ∨ data.length ≤ comFrameMaxLen * first + count) :
    blockFrames csp schCommNode tmTypeFilePart (UInt16.ofInt fileId.toInt) start
        (Int32.ofNat (blockCount comFrameMaxLen data.length) - 1).toInt
        ((data.drop (comFrameMaxLen * first)).take count) =
      (List.range (blockCount comFrameMaxLen count)).map fun (i : Nat) =>
        numbered csp schCommNode fileId data (start + i) (first + i) := by
  have length : ((data.drop (comFrameMaxLen * first)).take count).length = count := by
    rw [List.length_take, List.length_drop]
    omega
  rw [blockFrames, length]
  apply List.map_congr_left
  intro i mem
  have before := (lt_blockCount_iff (show 0 < comFrameMaxLen by decide)).mp (List.mem_range.mp mem)
  rw [block_take_drop whole before, numbered]

/-! A start that is not negative. -/

theorem filter_range (p : Nat → Prop) [DecidablePred p] {total first count : Nat}
    (inside : first + count ≤ total)
    (selects : ∀ k < total, p k ↔ first ≤ k ∧ k < first + count) :
    (List.range total).filter p = (List.range count).map (first + ·) := by
  obtain ⟨rest, rfl⟩ := Nat.exists_eq_add_of_le inside
  have before : (List.range first).filter p = [] := by
    rw [List.filter_eq_nil_iff]
    intro k mem
    have small := List.mem_range.mp mem
    simp only [decide_eq_true_eq, selects k (by omega)]
    omega
  have within : ((List.range count).map (first + ·)).filter p = (List.range count).map (first + ·) := by
    rw [List.filter_eq_self]
    intro k mem
    obtain ⟨i, small, rfl⟩ := List.mem_map.mp mem
    have := List.mem_range.mp small
    simp only [decide_eq_true_eq, selects (first + i) (by omega)]
    omega
  have after : ((List.range rest).map (first + count + ·)).filter p = [] := by
    rw [List.filter_eq_nil_iff]
    intro k mem
    obtain ⟨i, small, rfl⟩ := List.mem_map.mp mem
    have := List.mem_range.mp small
    simp only [decide_eq_true_eq, selects (first + count + i) (by omega)]
    omega
  rw [List.range_add, List.range_add, List.filter_append, List.filter_append, before, within, after,
    List.nil_append, List.append_nil]

theorem answered_nothing {start stop : Int} (rc : Int32)
    (none : 0 ≤ start → start < stop → partsBetween data start stop = []) :
    Answered csp data start stop (some (rc, [])) := by
  refine ⟨rc, [], rfl, by simp, ?_⟩
  intro low more
  rw [none low more, List.map_nil]

theorem answered_sent {first count : Nat} {stop : Int} (rc : Int32)
    (small : data.length < 65536 * 192) (inside : comFrameMaxLen * first + count ≤ data.length)
    (whole : comFrameMaxLen ∣ count ∨ data.length ≤ comFrameMaxLen * first + count)
    (reaches : first < stop → ∀ k, first ≤ k → comFrameMaxLen * k < data.length →
      (k < stop ↔ comFrameMaxLen * (k - first) < count)) :
    Answered csp data first stop (some (rc,
      blockFrames csp schCommNode tmTypeFilePart (UInt16.ofInt fileId.toInt) first
        (Int32.ofNat (blockCount comFrameMaxLen data.length) - 1).toInt
        ((data.drop (comFrameMaxLen * first)).take count))) := by
  have sized {n i : Nat} : i < blockCount comFrameMaxLen n ↔ comFrameMaxLen * i < n :=
    lt_blockCount_iff (by decide)
  rw [blockFrames_numbered _ inside whole]
  have same : ∀ i < blockCount comFrameMaxLen count, wrapped first i = first + i := by
    intro i before
    have := sized.mp before
    unfold comFrameMaxLen at *
    unfold wrapped
    omega
  refine ⟨rc, _, rfl, ?_, ?_⟩
  · intro frame mem
    obtain ⟨i, before, rfl⟩ := List.mem_map.mp mem
    have bound := List.mem_range.mp before
    have read := sized.mp bound
    rw [ownPart_numbered (by omega) small, same i bound, sized, Nat.mul_add]
    exact ⟨by omega, rfl⟩
  · intro _ more
    have numbers : (List.range (blockCount comFrameMaxLen count)).map
        (number csp ∘ fun (i : Nat) => numbered csp schCommNode fileId data (first + i) (first + i)) =
        (List.range (blockCount comFrameMaxLen count)).map (first + ·) := by
      apply List.map_congr_left
      intro i mem
      rw [Function.comp, number_numbered, same i (List.mem_range.mp mem)]
    rw [List.map_map, numbers, partsBetween]
    refine (filter_range _ ?_ ?_).symm
    · by_contra more
      have ends := (sized (n := data.length)).not.mp (lt_irrefl _)
      have last := (sized (n := count) (i := blockCount comFrameMaxLen data.length - first)).not
      unfold comFrameMaxLen at *
      omega
    · intro k bound
      constructor
      · intro ⟨low, high⟩
        have := (reaches more k (by omega) (sized.mp bound)).mp high
        have := (sized (n := count) (i := k - first)).mpr this
        omega
      · intro ⟨low, high⟩
        have := (sized (n := count) (i := k - first)).mp (by omega)
        exact ⟨by omega, (reaches more k low (sized.mp bound)).mpr this⟩

theorem readBytes_inside {size first : Nat} {stop : Int} (inside : comFrameMaxLen * first ≤ size)
    (order : first ≤ stop) (small : size < 65536 * 192) (above : stop < 8388608) :
    readBytes size first stop =
      min (comFrameMaxLen * (stop - first)).toNat (size - comFrameMaxLen * first) := by
  have low : ¬ stop < 0 := by omega
  have first_size : sizeT (comFrameMaxLen * stop) = comFrameMaxLen * stop.toNat := by
    unfold comFrameMaxLen
    rw [sizeT_of_nonneg (by omega) (by omega)]
    omega
  unfold readBytes
  rw [if_neg low, first_size]
  unfold comFrameMaxLen at *
  split
  · rw [sizeT_of_nonneg (by omega) (by omega)]
    omega
  · rw [sizeT_of_nonneg (by omega) (by omega)]
    omega

theorem readBytes_reversed {size first : Nat} {stop : Int} (inside : comFrameMaxLen * first ≤ size)
    (low : 0 ≤ stop) (order : stop < first) (small : size < 65536 * 192) :
    ptrdiffMax < readBytes size first stop ∧
      sizeT ((comFrameMaxLen * first : Nat) + readBytes size first stop) ≤ size := by
  have fits : ¬ size < sizeT (comFrameMaxLen * stop) := by
    unfold comFrameMaxLen at *
    rw [sizeT_of_nonneg (by omega) (by omega)]
    omega
  have read : readBytes size first stop = sizeT (comFrameMaxLen * (stop - first)) := by
    rw [readBytes, if_neg (by omega), if_neg fits]
  have whole : ((comFrameMaxLen * first : Nat) : Int) + comFrameMaxLen * (stop - first) =
      comFrameMaxLen * stop := by
    unfold comFrameMaxLen
    omega
  constructor
  · rw [read]
    unfold comFrameMaxLen ptrdiffMax at *
    rw [sizeT_of_neg (by omega) (by omega)]
    omega
  · rw [read, sizeT_add, whole]
    exact Nat.le_of_not_lt fits

theorem partsBetween_beyond {first : Nat} (beyond : data.length < comFrameMaxLen * first)
    (stop : Int) : partsBetween data first stop = [] := by
  rw [partsBetween, List.filter_eq_nil_iff]
  intro k mem
  have before := (lt_blockCount_iff (show 0 < comFrameMaxLen by decide)).mp (List.mem_range.mp mem)
  have smaller : comFrameMaxLen * k < comFrameMaxLen * first := Nat.lt_trans before beyond
  have below := Nat.lt_of_mul_lt_mul_left smaller
  simp only [decide_eq_true_eq]
  omega

theorem offset_eq {start : Int} {first : Nat} (start_eq : start = first) :
    (comFrameMaxLen : Int) * start = (comFrameMaxLen * first : Nat) := by
  rw [start_eq, Int.natCast_mul]

theorem answered_inside (up : link.Up) (range : InRange startFrame endFrame)
    (small : data.length < 65536 * 192) {first count : Nat} (start : startFrame.toInt = first)
    (read : readBytes data.length first endFrame.toInt = count)
    (inside : comFrameMaxLen * first + count ≤ data.length)
    (whole : comFrameMaxLen ∣ count ∨ data.length ≤ comFrameMaxLen * first + count)
    (reaches : first < endFrame.toInt → ∀ k, first ≤ k → comFrameMaxLen * k < data.length →
      (k < endFrame.toInt ↔ comFrameMaxLen * (k - first) < count)) :
    Answered csp data startFrame.toInt endFrame.toInt
      (tmSendFileParts csp schCommNode link true (some data) fileId startFrame endFrame) := by
  have accepted : ¬ ((data.length : Int) < (comFrameMaxLen * first : Nat)) := by omega
  have fits : ¬ data.length < sizeT ((comFrameMaxLen * first : Nat) + (count : Int)) := by
    rw [sizeT_of_nonneg (by omega) (by omega)]
    omega
  have allocated : ¬ ptrdiffMax < count := by
    unfold ptrdiffMax
    omega
  rw [tmSendFileParts_eq up range, offset_eq start, start, Int.toNat_natCast, read,
    if_neg (not_or.mpr ⟨accepted, fits⟩), if_neg allocated, if_neg (by omega)]
  exact answered_sent _ small inside whole reaches

theorem answered_of_nonneg (up : link.Up) (small : data.length < 65536 * 192)
    (range : InRange startFrame endFrame) (start : 0 ≤ startFrame.toInt) :
    Answered csp data startFrame.toInt endFrame.toInt
      (tmSendFileParts csp schCommNode link true (some data) fileId startFrame endFrame) := by
  have above := range.endHigh
  obtain ⟨first, first_eq⟩ := Int.eq_ofNat_of_zero_le start
  by_cases beyond : data.length < comFrameMaxLen * first
  · rw [tmSendFileParts_eq up range, offset_eq first_eq, first_eq,
      if_pos (.inl (by exact_mod_cast beyond))]
    exact answered_nothing _ fun _ _ => partsBetween_beyond beyond _
  have inside : comFrameMaxLen * first ≤ data.length := Nat.le_of_not_lt beyond
  rcases Int.lt_or_le endFrame.toInt 0 with negative | low
  · have read : readBytes data.length first endFrame.toInt = data.length := if_pos negative
    cases first with
    | zero =>
      exact answered_inside up range small first_eq read (by omega) (.inr (by omega))
        (fun more => by omega)
    | succ first =>
      have overflows : data.length <
          sizeT ((comFrameMaxLen * (first + 1) : Nat) + (data.length : Int)) := by
        unfold comFrameMaxLen at *
        rw [sizeT_of_nonneg (by omega) (by omega)]
        omega
      rw [tmSendFileParts_eq up range, offset_eq first_eq, first_eq, read,
        if_pos (.inr overflows)]
      exact answered_nothing _ fun _ more => by omega
  · rcases Int.lt_or_le endFrame.toInt first with reversed | order
    · obtain ⟨huge, fits⟩ := readBytes_reversed inside low reversed small
      have accepted : ¬ ((data.length : Int) < (comFrameMaxLen * first : Nat)) := by
        exact_mod_cast beyond
      rw [tmSendFileParts_eq up range, offset_eq first_eq, first_eq,
        if_neg (not_or.mpr ⟨accepted, by omega⟩), if_pos huge]
      exact answered_nothing _ fun _ more => by omega
    · refine answered_inside up range small first_eq (readBytes_inside inside order small above)
        (by omega) ?_ ?_
      · rcases Nat.le_total (comFrameMaxLen * (endFrame.toInt - first)).toNat
          (data.length - comFrameMaxLen * first) with whole | short
        · left
          unfold comFrameMaxLen at *
          omega
        · right
          omega
      · intro more k start before
        unfold comFrameMaxLen at *
        omega

/-! A negative start. The reading starts at byte 0. -/

theorem bytesFromStart_of_neg {size : Nat} {start stop : Int} (negative : stop < 0) :
    bytesFromStart size start stop = size := if_pos negative

theorem readBytes_negative {size : Nat} {start stop : Int} (negative : start < 0)
    (low : -8388608 < start) (above : stop < 8388608) (small : size < 65536 * 192)
    (taken : ¬ Refused size start stop) :
    ¬ size < sizeT (comFrameMaxLen * start + readBytes size start stop) ∧
      ¬ ptrdiffMax < readBytes size start stop ∧
      (size < readBytes size start stop ↔ size < bytesFromStart size start stop) ∧
      (bytesFromStart size start stop ≤ size →
        readBytes size start stop = bytesFromStart size start stop) := by
  unfold Refused comFrameMaxLen at taken
  unfold ptrdiffMax
  rcases Int.lt_or_le stop 0 with whole | part
  · have read : readBytes size start stop = size := if_pos whole
    rw [read, bytesFromStart_of_neg whole]
    unfold comFrameMaxLen
    rw [sizeT_of_nonneg (by omega) (by omega)]
    omega
  · have stop_size : sizeT (comFrameMaxLen * stop) = (comFrameMaxLen * stop).toNat := by
      unfold comFrameMaxLen
      exact sizeT_of_nonneg (by omega) (by omega)
    have bytes : bytesFromStart size start stop = (comFrameMaxLen * (stop - start)).toNat :=
      if_neg (by omega)
    have read : readBytes size start stop = if size < (comFrameMaxLen * stop).toNat then
        (size - comFrameMaxLen * start).toNat else (comFrameMaxLen * (stop - start)).toNat := by
      rw [readBytes, if_neg (by omega), stop_size]
      unfold comFrameMaxLen
      rw [sizeT_of_nonneg (by omega) (by omega), sizeT_of_nonneg (by omega) (by omega)]
    rw [read, bytes]
    unfold comFrameMaxLen
    split
    · rw [sizeT_of_nonneg (by omega) (by omega)]
      omega
    · rw [sizeT_of_nonneg (by omega) (by omega)]
      omega

theorem refused_eq (up : link.Up) (range : InRange startFrame endFrame)
    (refused : Refused data.length startFrame.toInt endFrame.toInt) :
    tmSendFileParts csp schCommNode link true (some data) fileId startFrame endFrame =
      some (cmdSyntaxError, []) := by
  have low := range.startLow
  have read : readBytes data.length startFrame.toInt endFrame.toInt = data.length :=
    if_pos refused.1
  have beyond : data.length < sizeT (comFrameMaxLen * startFrame.toInt + (data.length : Int)) := by
    have before := refused.2
    unfold comFrameMaxLen at *
    rw [sizeT_of_neg (by omega) (by omega)]
    omega
  rw [tmSendFileParts_eq up range, read, if_pos (.inr beyond)]

theorem lt_bytesFromStart {size : Nat} {start stop : Int} (negative : start < 0)
    (taken : ¬ Refused size start stop) :
    comFrameMaxLen * (-start - 1).toNat < bytesFromStart size start stop := by
  unfold bytesFromStart Refused comFrameMaxLen at *
  split <;> omega

theorem negative_eq (up : link.Up) (range : InRange startFrame endFrame)
    (small : data.length < 65536 * 192) (negative : startFrame.toInt < 0)
    (taken : ¬ Refused data.length startFrame.toInt endFrame.toInt) :
    tmSendFileParts csp schCommNode link true (some data) fileId startFrame endFrame =
      if data.length < bytesFromStart data.length startFrame.toInt endFrame.toInt then none
      else some (cmdOk, (List.range (blockCount comFrameMaxLen
        (bytesFromStart data.length startFrame.toInt endFrame.toInt))).map fun (i : Nat) =>
          numbered csp schCommNode fileId data (startFrame.toInt + i) i) := by
  obtain ⟨inside, allocated, beyond, read⟩ :=
    readBytes_negative negative range.startLow range.endHigh small taken
  have zero : (comFrameMaxLen * startFrame.toInt).toNat = 0 := by
    unfold comFrameMaxLen
    omega
  have first : ¬ (data.length : Int) < comFrameMaxLen * startFrame.toInt := by
    unfold comFrameMaxLen
    omega
  rw [tmSendFileParts_eq up range, if_neg (not_or.mpr ⟨first, inside⟩), if_neg allocated, zero,
    Nat.zero_add]
  by_cases more : data.length < bytesFromStart data.length startFrame.toInt endFrame.toInt
  · rw [if_pos (beyond.mpr more), if_pos more]
  · have whole : comFrameMaxLen ∣ bytesFromStart data.length startFrame.toInt endFrame.toInt ∨
        data.length ≤ comFrameMaxLen * 0 +
          bytesFromStart data.length startFrame.toInt endFrame.toInt := by
      unfold bytesFromStart comFrameMaxLen
      split <;> omega
    have present := lt_bytesFromStart negative taken
    rw [if_neg (beyond.not.mpr more), if_neg more, read (Nat.le_of_not_lt more)]
    have filled : (data.drop 0).take
        (bytesFromStart data.length startFrame.toInt endFrame.toInt) ≠ [] := by
      intro none
      have length := congrArg List.length none
      rw [List.drop_zero, List.length_take, List.length_nil] at length
      omega
    have frames : blockFrames csp schCommNode tmTypeFilePart (UInt16.ofInt fileId.toInt)
        startFrame.toInt _ _ = (List.range _).map fun (i : Nat) =>
          numbered csp schCommNode fileId data (startFrame.toInt + i) (0 + i) :=
      blockFrames_numbered startFrame.toInt (by omega) whole
    simp only [Nat.mul_zero, Nat.zero_add] at frames
    simp only [if_neg filled, frames]

theorem wrapped_last {start : Int} (negative : start < 0) :
    wrapped start (-start - 1).toNat = 65535 := by
  unfold wrapped
  omega

theorem answered_negative_iff (up : link.Up) (range : InRange startFrame endFrame)
    (small : data.length < 65536 * 192) (negative : startFrame.toInt < 0)
    (taken : ¬ Refused data.length startFrame.toInt endFrame.toInt) :
    Answered csp data startFrame.toInt endFrame.toInt
        (tmSendFileParts csp schCommNode link true (some data) fileId startFrame endFrame) ↔
      bytesFromStart data.length startFrame.toInt endFrame.toInt ≤ data.length ∧
        blockCount comFrameMaxLen data.length = 65536 ∧
        ∀ i < blockCount comFrameMaxLen
            (bytesFromStart data.length startFrame.toInt endFrame.toInt),
          padded comFrameMaxLen fill (block comFrameMaxLen data i) =
            padded comFrameMaxLen fill (block comFrameMaxLen data (wrapped startFrame.toInt i)) := by
  have sized {n i : Nat} : i < blockCount comFrameMaxLen n ↔ comFrameMaxLen * i < n :=
    lt_blockCount_iff (by decide)
  have few : blockCount comFrameMaxLen data.length ≤ 65536 := by
    by_contra more
    have := sized.mp (Nat.lt_of_not_le more)
    unfold comFrameMaxLen at *
    omega
  rw [negative_eq up range small negative taken]
  by_cases beyond : data.length < bytesFromStart data.length startFrame.toInt endFrame.toInt
  · rw [if_pos beyond]
    constructor
    · intro ⟨rc, frames, sent, _⟩
      exact absurd sent (by simp)
    · intro ⟨within, _⟩
      exact absurd beyond (Nat.not_lt_of_le within)
  · rw [if_neg beyond]
    constructor
    · intro ⟨rc, frames, sent, own, _⟩
      obtain ⟨-, rfl⟩ := Prod.mk.inj (Option.some.inj sent)
      have reached := lt_bytesFromStart negative taken
      have each : ∀ i < blockCount comFrameMaxLen
          (bytesFromStart data.length startFrame.toInt endFrame.toInt), _ := fun i before =>
        (ownPart_numbered (by omega) small startFrame.toInt i i).mp
          (own _ (List.mem_map_of_mem (List.mem_range.mpr before)))
      have last := each (-startFrame.toInt - 1).toNat (sized.mpr reached)
      rw [wrapped_last negative] at last
      exact ⟨Nat.le_of_not_lt beyond, by omega, fun i before => (each i before).2⟩
    · intro ⟨_, full, same⟩
      refine ⟨cmdOk, _, rfl, ?_, fun low => absurd negative (Int.not_lt.mpr low)⟩
      intro frame mem
      obtain ⟨i, before, rfl⟩ := List.mem_map.mp mem
      have wrap : wrapped startFrame.toInt i < blockCount comFrameMaxLen data.length := by
        rw [full, wrapped]
        omega
      have present := Nat.lt_of_le_of_lt (Nat.zero_le _) (lt_bytesFromStart negative taken)
      exact (ownPart_numbered (by omega) small startFrame.toInt i i).mpr
        ⟨wrap, same i (List.mem_range.mp before)⟩

/-- The frames that answer a request carry the parts that their numbers say
    exactly when the start is not negative or the request is refused, up to a
    coincidence of bytes in a file of 65536 parts. -/
theorem parts_answered_iff (csp : Csp) (schCommNode : UInt8) (up : link.Up) (fileId : Int32)
    (data : List UInt8) (small : data.length < 65536 * 192) (startFrame endFrame : Int32)
    (range : InRange startFrame endFrame) :
    Answered csp data startFrame.toInt endFrame.toInt
        (tmSendFileParts csp schCommNode link true (some data) fileId startFrame endFrame) ↔
      Answerable data startFrame.toInt endFrame.toInt := by
  rcases Int.lt_or_le startFrame.toInt 0 with negative | start
  · by_cases refused : Refused data.length startFrame.toInt endFrame.toInt
    · rw [refused_eq up range refused]
      have answered : Answered csp data startFrame.toInt endFrame.toInt (some (cmdSyntaxError, [])) :=
        answered_nothing cmdSyntaxError fun low => absurd negative (Int.not_lt.mpr low)
      exact ⟨fun _ => .inr (.inl refused), fun _ => answered⟩
    · rw [answered_negative_iff up range small negative refused]
      constructor
      · exact fun coincide => .inr (.inr coincide)
      · intro answerable
        rcases answerable with low | stopped | coincide
        · exact absurd negative (Int.not_lt.mpr low)
        · exact absurd stopped refused
        · exact coincide
  · exact ⟨fun _ => .inl start, fun _ => answered_of_nonneg up small range start⟩

theorem parts_answered_three_bytes :
    Answered hostOrder [1, 2, 3] 0 3
      (tmSendFileParts hostOrder 1 plainLink true (some [1, 2, 3]) 5 0 3) := by
  have range : InRange 0 3 := by constructor <;> decide
  exact (parts_answered_iff hostOrder 1 plainLink_up 5 [1, 2, 3] (by decide) 0 3 range).mpr
    (.inl (by decide))

/-- The whole file from part -1 on: its only part gets the number 65535. -/
theorem negative_start_misnumbered :
    (∃ frame, tmSendFileParts hostOrder 1 plainLink true (some (List.replicate 192 1)) 5 (-1) (-1) =
      some (cmdOk, [frame]) ∧ number hostOrder frame = 65535) ∧
    ¬ Answered hostOrder (List.replicate 192 1) (-1) (-1)
      (tmSendFileParts hostOrder 1 plainLink true (some (List.replicate 192 1)) 5 (-1) (-1)) := by
  have length : (List.replicate 192 (1 : UInt8)).length = 192 := List.length_replicate
  have range : InRange (-1) (-1) := by constructor <;> decide
  have start : (-1 : Int32).toInt = -1 := by decide
  have taken : ¬ Refused (List.replicate 192 (1 : UInt8)).length (-1 : Int32).toInt
      (-1 : Int32).toInt := by
    rw [length, start]
    unfold Refused comFrameMaxLen
    omega
  have small : (List.replicate 192 (1 : UInt8)).length < 65536 * 192 := by
    rw [length]
    decide
  have one : blockCount comFrameMaxLen (bytesFromStart 192 (-1) (-1)) = 1 := by decide
  have sent : tmSendFileParts hostOrder 1 plainLink true (some (List.replicate 192 1)) 5 (-1) (-1) =
    _ := negative_eq plainLink_up range small (by decide) taken
  rw [length, start, one] at sent
  constructor
  · refine ⟨_, sent, ?_⟩
    rw [number_numbered]
    decide
  · intro answered
    obtain ⟨-, full, -⟩ :=
      (answered_negative_iff plainLink_up range small (by decide) taken).mp answered
    rw [length] at full
    exact absurd full (by decide)

end PartRequests
