import SuchaiFlight.StatusTelemetry
import SuchaiFlight.FileParts

/-!
Generic telemetry: `com_send_telemetry` of `cmdCOM.c` cuts an array of
structures into frames that each hold a whole number of them.
-/
namespace GenericTelemetry
open RepoCommand FileFrames FileParts TelemetryFrames StatusTelemetry Blocks

section Sender
variable (host : Host) (schCommNode : UInt8) (link : Link)

/-- The loop, with `rc_send` as a Boolean and `i` for the passes made. `nframe`
    is counted up in every pass, and `left` passes come before it overflows. -/
def telemetryLoop (fresh : Nat → ComFrame) (type : UInt8) (sizeData structsPerFrame : Nat)
    (nFrame : Int32) : Nat → Nat → List UInt8 → Nat → Bool → Option (Bool × List (List UInt8))
  | left, i, data, nStructs, rcSend =>
    if data = [] then some (rcSend, [])
    else if !link.buffers i then some (false, [])
    else
      match left with
      | 0 => none
      | left + 1 => do
        let structsSent := min nStructs structsPerFrame
        let bytesSent := structsSent * sizeData
        let packet := image host.order (dataFrame host schCommNode fresh i
          (UInt16.ofInt (nFrame.toInt + i)).toNat structsSent type (data.take bytesSent))
        if !link.sends i then return (false, [])
        else
          let (rcSend, packets) ← telemetryLoop fresh type sizeData structsPerFrame nFrame left
            (i + 1) (data.drop bytesSent) (nStructs - structsSent) true
          return (rcSend, packet :: packets)

/-- `data` are the `n_bytes` bytes of the array. No structures, or structures of
    no bytes, are a division by zero. -/
def comSendTelemetry (fresh : Nat → ComFrame) (type : UInt8) (data : List UInt8)
    (nStructs nFrame : Int32) : Option (Int32 × List (List UInt8)) :=
  if nStructs = 0 then none
  else
    let sizeData := sizeT (Int32.ofNat (data.length / sizeT nStructs.toInt)).toInt
    if sizeData = 0 then none
    else if !link.connects then some (cmdError, [])
    else do
      let (rcSend, packets) ← telemetryLoop host schCommNode link fresh type sizeData
        (comFrameMaxLen / sizeData) nFrame (2147483647 - nFrame.toInt).toNat 0 data
        nStructs.toInt.toNat false
      return (if rcSend && link.closes then cmdOk else cmdError, packets)

end Sender

def ndataOf (host : Host) (frame : ComFrame) : Nat := (host.ntoh32 frame.ndata).toNat

structure Partition (host : Host) (type : UInt8) (size : Nat) (first : Int) (n : Nat)
    (data : List UInt8) (frames : List ComFrame) : Prop where
  count : frames.length = blockCount (comFrameMaxLen / size) n
  types : ∀ frame ∈ frames, frame.type = type
  numbered : frames.map (fun frame => host.ntoh16 frame.nframe) =
    (List.range frames.length).map fun i : Nat => UInt16.ofInt (first + i)
  filled : ∀ frame ∈ frames, 1 ≤ ndataOf host frame
  whole : (frames.map (ndataOf host)).sum = n
  content : frames.flatMap (fun frame => frame.data.take (ndataOf host frame * size)) = data

variable {host : Host} {schCommNode : UInt8} {link : Link} {fresh : Nat → ComFrame} {type : UInt8}
  {size : Nat}

theorem partition_nil (host : Host) (type : UInt8) (size : Nat) (first : Int) :
    Partition host type size first 0 [] [] :=
  ⟨by simp [blockCount], by simp, rfl, by simp, rfl, rfl⟩

def passFrame (host : Host) (schCommNode : UInt8) (fresh : Nat → ComFrame) (type : UInt8)
    (i : Nat) (number : Int) (count : Nat) (data : List UInt8) : ComFrame :=
  dataFrame host schCommNode fresh i (UInt16.ofInt number).toNat count type data

theorem passFrame_number (i : Nat) (number : Int) (count : Nat) (data : List UInt8) :
    host.ntoh16 (passFrame host schCommNode fresh type i number count data).nframe =
      UInt16.ofInt number := by
  simp only [passFrame, dataFrame, UInt16.ofNat_toNat, host.ntoh16_hton16]

theorem passFrame_ndata (host : Host) (schCommNode : UInt8) (fresh : Nat → ComFrame)
    (type : UInt8) (i : Nat) (number : Int) {count : Nat} (data : List UInt8)
    (small : count ≤ comFrameMaxLen) :
    ndataOf host (passFrame host schCommNode fresh type i number count data) = count := by
  simp only [ndataOf, passFrame, dataFrame, host.ntoh32_hton32]
  refine UInt32.toNat_ofNat_of_lt' (Nat.lt_of_le_of_lt small ?_)
  decide

theorem passFrame_content (host : Host) (schCommNode : UInt8) (fresh : Nat → ComFrame)
    (type : UInt8) (i : Nat) (number : Int) (count : Nat) {data : List UInt8}
    (small : data.length ≤ comFrameMaxLen) :
    (passFrame host schCommNode fresh type i number count data).data.take data.length = data := by
  simp only [passFrame, dataFrame, List.take_of_length_le small, List.take_left]

theorem mul_div_le_frame (size n : Nat) :
    min n (comFrameMaxLen / size) * size ≤ comFrameMaxLen ∧
      min n (comFrameMaxLen / size) ≤ comFrameMaxLen := by
  have fits := Nat.div_mul_le_self comFrameMaxLen size
  have less := Nat.mul_le_mul_right size (Nat.min_le_right n (comFrameMaxLen / size))
  have few := Nat.div_le_self comFrameMaxLen size
  omega

theorem Partition.cons {n i : Nat} {number : Int} {data : List UInt8} {frames : List ComFrame}
    (pos : 1 ≤ size) (holds : size ≤ comFrameMaxLen) (present : 1 ≤ n)
    (length : data.length = n * size)
    (rest : Partition host type size (number + 1) (n - min n (comFrameMaxLen / size))
      (data.drop (min n (comFrameMaxLen / size) * size)) frames) :
    Partition host type size number n data
      (passFrame host schCommNode fresh type i number (min n (comFrameMaxLen / size))
        (data.take (min n (comFrameMaxLen / size) * size)) :: frames) := by
  obtain ⟨bytes, structs⟩ := mul_div_le_frame size n
  have perFrame : 0 < comFrameMaxLen / size := Nat.div_pos holds pos
  have ndata := passFrame_ndata host schCommNode fresh type i number
    (data.take (min n (comFrameMaxLen / size) * size)) structs
  have cut : (data.take (min n (comFrameMaxLen / size) * size)).length =
      min n (comFrameMaxLen / size) * size := by
    rw [List.length_take, length]
    exact Nat.min_eq_left (Nat.mul_le_mul_right size (Nat.min_le_left _ _))
  have content := passFrame_content host schCommNode fresh type i number
    (min n (comFrameMaxLen / size)) (show (data.take (min n (comFrameMaxLen / size) * size)).length ≤
      comFrameMaxLen by rw [cut]; exact bytes)
  have less : n - min n (comFrameMaxLen / size) = n - comFrameMaxLen / size := by omega
  refine ⟨?_, ?_, ?_, ?_, ?_, ?_⟩
  · rw [List.length_cons, rest.count, less, ← blockCount_step perFrame present]
  · exact List.forall_mem_cons.mpr ⟨rfl, rest.types⟩
  · rw [List.map_cons, passFrame_number, rest.numbered, List.length_cons, List.range_succ_eq_map,
      List.map_cons, List.map_map]
    simp only [Nat.cast_zero, Int.add_zero, List.cons.injEq, true_and]
    apply List.map_congr_left
    intro k _
    simp only [Function.comp_apply, Nat.succ_eq_add_one, Nat.cast_add, Nat.cast_one]
    congr 1
    omega
  · refine List.forall_mem_cons.mpr ⟨?_, rest.filled⟩
    rw [ndata]
    omega
  · rw [List.map_cons, List.sum_cons, ndata, rest.whole]
    omega
  · rw [List.flatMap_cons, rest.content, ndata]
    rw [cut] at content
    rw [content, List.take_append_drop]

theorem telemetryLoop_up (host : Host) (schCommNode : UInt8) (up : link.Up)
    (fresh : Nat → ComFrame) (type : UInt8) (pos : 1 ≤ size) (holds : size ≤ comFrameMaxLen)
    (nFrame : Int32) {left : Nat} (i : Nat) {n : Nat} {data : List UInt8} (rcSend : Bool)
    (length : data.length = n * size)
    (room : blockCount (comFrameMaxLen / size) n ≤ left) :
    ∃ frames, telemetryLoop host schCommNode link fresh type size (comFrameMaxLen / size) nFrame left
        i data n rcSend = some (if n = 0 then rcSend else true, frames.map (image host.order)) ∧
      Partition host type size (nFrame.toInt + i) n data frames := by
  have perFrame : 0 < comFrameMaxLen / size := Nat.div_pos holds pos
  have present_iff {n : Nat} {data : List UInt8} (length : data.length = n * size) :
      data = [] ↔ n = 0 := by
    rw [← List.length_eq_zero_iff, length, Nat.mul_eq_zero]
    omega
  induction left generalizing i n data rcSend with
  | zero =>
    have none_left : n = 0 := by
      by_contra present
      have step := blockCount_step perFrame (Nat.pos_of_ne_zero present)
      omega
    subst none_left
    obtain rfl := (present_iff length).mpr rfl
    exact ⟨[], by simp [telemetryLoop], partition_nil host type size _⟩
  | succ left ih =>
    by_cases none_left : n = 0
    · subst none_left
      obtain rfl := (present_iff length).mpr rfl
      exact ⟨[], by simp [telemetryLoop], partition_nil host type size _⟩
    · have present : data ≠ [] := fun empty => none_left ((present_iff length).mp empty)
      have step := blockCount_step perFrame (Nat.pos_of_ne_zero none_left)
      have less : n - min n (comFrameMaxLen / size) = n - comFrameMaxLen / size := by omega
      have rest : (data.drop (min n (comFrameMaxLen / size) * size)).length =
          (n - min n (comFrameMaxLen / size)) * size := by
        rw [List.length_drop, length, Nat.sub_mul]
      obtain ⟨frames, sent, partition⟩ := ih (i + 1) true rest
        (by rw [less]; omega)
      have number : nFrame.toInt + ((i + 1 : Nat) : Int) = nFrame.toInt + i + 1 := by
        push_cast
        omega
      rw [number] at partition
      refine ⟨passFrame host schCommNode fresh type i (nFrame.toInt + i)
        (min n (comFrameMaxLen / size)) (data.take (min n (comFrameMaxLen / size) * size)) :: frames,
        ?_, partition.cons pos holds (Nat.pos_of_ne_zero none_left) length⟩
      rw [telemetryLoop]
      simp only [present, if_false, up.buffers, Bool.not_true, Bool.false_eq_true, up.sends, sent,
        Option.bind_eq_bind, Option.bind_some, ite_self, none_left, List.map_cons, passFrame]
      rfl

/-- The whole array is sent, when the frame numbers stay within `int`. -/
theorem telemetry_partition (host : Host) (schCommNode : UInt8) (up : link.Up)
    (fresh : Nat → ComFrame) (type : UInt8) {n size : Nat} (present : 1 ≤ n) (pos : 1 ≤ size)
    (holds : size ≤ comFrameMaxLen) (small : n * size < 2 ^ 31) {data : List UInt8}
    (length : data.length = n * size) (nFrame : Int32)
    (room : nFrame.toInt + blockCount (comFrameMaxLen / size) n ≤ 2 ^ 31 - 1) :
    ∃ frames, comSendTelemetry host schCommNode link fresh type data (Int32.ofNat n) nFrame =
        some (cmdOk, frames.map (image host.order)) ∧
      Partition host type size nFrame.toInt n data frames := by
  have few : n ≤ n * size := Nat.le_mul_of_pos_right n pos
  have structs : (Int32.ofNat n).toInt = n := Int32.toInt_ofNat_of_lt (by omega)
  have size_small : size < 2 ^ 31 := by
    unfold comFrameMaxLen at holds
    omega
  have size_eq : (Int32.ofNat size).toInt = size := Int32.toInt_ofNat_of_lt size_small
  have notZero : Int32.ofNat n ≠ 0 := by
    rw [ne_eq, ← Int32.toInt_inj, structs, show (0 : Int32).toInt = 0 from rfl]
    omega
  have quotient : data.length / sizeT (n : Int) = size := by
    rw [sizeT_natCast (by omega), length, Nat.mul_div_cancel_left _ present]
  have room' : blockCount (comFrameMaxLen / size) n ≤ (2147483647 - nFrame.toInt).toNat := by omega
  obtain ⟨frames, sent, partition⟩ := telemetryLoop_up host schCommNode up fresh type pos
    holds nFrame 0 false length room'
  refine ⟨frames, ?_, by simpa using partition⟩
  have some_size : size ≠ 0 := by omega
  have some_structs : n ≠ 0 := by omega
  rw [comSendTelemetry, if_neg notZero, structs, quotient, size_eq,
    sizeT_natCast (by omega), if_neg some_size]
  simp only [up.connects, Bool.not_true, Bool.false_eq_true, if_false, Int.toNat_natCast, sent,
    Option.bind_eq_bind, Option.bind_some, some_structs, up.closes, Bool.and_self, if_true]
  rfl

section Witness
open FileTransfer

theorem three_structures_sent :
    ∃ frames, comSendTelemetry (standardHost .little) 1 plainLink (fun _ => blankFrame) tmTypeStatus
        (List.replicate 300 7) (Int32.ofNat 3) 5 =
          some (cmdOk, frames.map (image (standardHost .little).order)) ∧
      Partition (standardHost .little) tmTypeStatus 100 5 3 (List.replicate 300 7) frames := by
  have room : (5 : Int32).toInt + blockCount (comFrameMaxLen / 100) 3 ≤ 2 ^ 31 - 1 := by
    rw [show blockCount (comFrameMaxLen / 100) 3 = 3 from rfl, show (5 : Int32).toInt = 5 from rfl]
    omega
  have length : (List.replicate 300 (7 : UInt8)).length = 3 * 100 := List.length_replicate
  exact telemetry_partition (standardHost .little) 1 plainLink_up (fun _ => blankFrame) tmTypeStatus
    (by omega) (by omega) (by decide) (by omega) length 5 room

theorem last_number_overflows :
    comSendTelemetry (standardHost .little) 1 plainLink (fun _ => blankFrame) tmTypeStatus [7]
        (Int32.ofNat 1) 2147483647 = none ∧
      ¬ ∃ frames, comSendTelemetry (standardHost .little) 1 plainLink (fun _ => blankFrame)
          tmTypeStatus [7] (Int32.ofNat 1) 2147483647 = some (cmdOk, frames.map (image .little)) ∧
        Partition (standardHost .little) tmTypeStatus 1 2147483647 1 [7] frames := by
  have undefined : comSendTelemetry (standardHost .little) 1 plainLink (fun _ => blankFrame)
      tmTypeStatus [7] (Int32.ofNat 1) 2147483647 = none := by decide
  refine ⟨undefined, ?_⟩
  rintro ⟨frames, sent, -⟩
  rw [undefined] at sent
  cases sent

end Witness

end GenericTelemetry
