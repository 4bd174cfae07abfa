import SuchaiFlight.GenericTelemetry
import SuchaiFlight.FlightPlanCalls
import Mathlib.Algebra.BigOperators.Group.List.Basic

/-!
The download of the flight plan: `tm_send_fp` of `cmdTM.c` packs each entry into
a record that fills a frame.
-/
namespace FlightPlanTelemetry
open CStrings TextScan StorageApi RepoData RepoCommand FileFrames TelemetryFrames StatusTelemetry
open GenericTelemetry Blocks ByteMemory ByteOrder SlotTable

def fpCmdargsMaxLen : Nat := 192 - 16

def cmdArgs (cmd args : CString) : CString :=
  ⟨(cmd ++ (blank ++ args)).chars.take (fpCmdargsMaxLen - 1),
    fun nul => (cmd ++ (blank ++ args)).noNul (List.mem_of_mem_take nul)⟩

section Sender
variable {σ : Type} (host : Host) (S : Storage σ) (c : Config) (schCommNode : UInt8) (link : Link)

def intBytes (value : Int32) : List UInt8 := wordBytes host.order (host.hton32 value.toUInt32)

/-- A `fp_container_t`. A `NULL` text is dereferenced. -/
def fpContainer (fpEntry : FpEntry) : Option (List UInt8) := do
  let cmd ← fpEntry.cmd
  let args ← fpEntry.args
  return intBytes host fpEntry.unixtime ++ intBytes host fpEntry.executions ++
    intBytes host fpEntry.periodical ++ intBytes host fpEntry.node ++
    charArray fpCmdargsMaxLen (cmdArgs cmd args)

/-- The records are sized by the counter and filled by a scan of the table, which
    stops storing when there is no room. Records that are not filled are
    indeterminate. `node` is what `sscanf` reads from the parameters. -/
def tmSendFp (fresh : Nat → ComFrame) (s : σ) (node : Option Int32) :
    Option (Int32 × List (List UInt8)) :=
  match node with
  | none => some (cmdSyntaxError, [])
  | some _ => do
    let fpEntries ← datGetSystemVar S c s c.datFplQueue
    if fpEntries < 0 then none
    else
      let entries ← datShowFp S s
      let fpSend ← (entries.take fpEntries.toInt.toNat).mapM (fpContainer host)
      if (fpSend.length : Int) < fpEntries.toInt then none
      else comSendTelemetry host schCommNode link fresh tmTypeFp fpSend.flatten fpEntries 0

end Sender

structure FpRecord where
  unixtime : Int32
  executions : Int32
  periodical : Int32
  node : Int32
  cmdArgs : Option CString
  deriving DecidableEq

def intAt (host : Host) (data : List UInt8) (offset : Nat) : Int32 :=
  (host.ntoh32 (bytesWord host.order ((data.drop offset).take 4))).toInt32

def recordOf (host : Host) (frame : ComFrame) : FpRecord where
  unixtime := intAt host frame.data 0
  executions := intAt host frame.data 4
  periodical := intAt host frame.data 8
  node := intAt host frame.data 12
  cmdArgs := stringAt (frame.data.drop 16)

def recordFor (fpEntry : FpEntry) : FpRecord where
  unixtime := fpEntry.unixtime
  executions := fpEntry.executions
  periodical := fpEntry.periodical
  node := fpEntry.node
  cmdArgs := do return cmdArgs (← fpEntry.cmd) (← fpEntry.args)

/-! Records. -/

variable {host : Host} {e : FpEntry} {record : List UInt8}

theorem intBytes_length (host : Host) (value : Int32) : (intBytes host value).length = 4 :=
  wordBytes_length _ _

theorem int_skipped (host : Host) (value : Int32) (rest : List UInt8) (k : Nat) :
    (intBytes host value ++ rest).drop (4 + k) = rest.drop k := by
  rw [← intBytes_length host value, List.drop_length_add_append]

theorem intAt_first (host : Host) (value : Int32) (rest : List UInt8) :
    intAt host (intBytes host value ++ rest) 0 = value := by
  have four : (intBytes host value ++ rest).take 4 = intBytes host value := by
    rw [← intBytes_length host value, List.take_left]
  rw [intAt, List.drop_zero, four, intBytes, bytesWord_wordBytes, host.ntoh32_hton32,
    Int32.toInt32_toUInt32]

theorem intAt_later (host : Host) (value : Int32) (rest : List UInt8) (k : Nat) :
    intAt host (intBytes host value ++ rest) (4 + k) = intAt host rest k := by
  rw [intAt, intAt, int_skipped]

theorem fpContainer_length (packed : fpContainer host e = some record) :
    record.length = comFrameMaxLen := by
  obtain ⟨cmd, -, packed⟩ := Option.bind_eq_some_iff.mp packed
  obtain ⟨args, -, packed⟩ := Option.bind_eq_some_iff.mp packed
  obtain rfl := Option.some.inj packed
  simp only [List.length_append, intBytes_length, charArray_length]
  rfl

theorem cmdArgs_fits (cmd args : CString) : strlen (cmdArgs cmd args) < fpCmdargsMaxLen := by
  have cut := List.length_take_le (fpCmdargsMaxLen - 1) (cmd ++ (blank ++ args)).chars
  have room : fpCmdargsMaxLen - 1 < fpCmdargsMaxLen := by decide
  exact Nat.lt_of_le_of_lt cut room

theorem recordOf_frame (packed : fpContainer host e = some record) {frame : ComFrame}
    (data : frame.data = record) : recordOf host frame = recordFor e := by
  obtain ⟨cmd, hasCmd, packed⟩ := Option.bind_eq_some_iff.mp packed
  obtain ⟨args, hasArgs, packed⟩ := Option.bind_eq_some_iff.mp packed
  obtain rfl := Option.some.inj packed
  have held := stringAt_charArray fpCmdargsMaxLen (cmdArgs cmd args) [] (cmdArgs_fits cmd args)
  rw [List.append_nil] at held
  simp only [recordOf, recordFor, data, List.append_assoc, hasCmd, hasArgs, FpRecord.mk.injEq]
  refine ⟨intAt_first .., ?_, ?_, ?_, ?_⟩
  · exact (intAt_later _ _ _ 0).trans (intAt_first ..)
  · exact (intAt_later _ _ _ 4).trans ((intAt_later _ _ _ 0).trans (intAt_first ..))
  · exact (intAt_later _ _ _ 8).trans ((intAt_later _ _ _ 4).trans
      ((intAt_later _ _ _ 0).trans (intAt_first ..)))
  · have text : ∀ rest : List UInt8, (intBytes host e.unixtime ++ (intBytes host e.executions ++
        (intBytes host e.periodical ++ (intBytes host e.node ++ rest)))).drop 16 = rest := by
      intro rest
      exact (int_skipped _ _ _ 12).trans ((int_skipped _ _ _ 8).trans
        ((int_skipped _ _ _ 4).trans ((int_skipped _ _ _ 0).trans List.drop_zero)))
    rw [text, held]
    rfl

/-! Frames of one record. -/

theorem ndata_one (counts : List Nat) (filled : ∀ k ∈ counts, 1 ≤ k)
    (whole : counts.sum = counts.length) : ∀ k ∈ counts, k = 1 := by
  induction counts with
  | nil => simp
  | cons k rest ih =>
    rw [List.forall_mem_cons] at filled
    have low := List.length_le_sum_of_one_le rest filled.2
    rw [List.sum_cons, List.length_cons] at whole
    exact List.forall_mem_cons.mpr ⟨by omega, ih filled.2 (by omega)⟩

theorem data_of_partition {type : UInt8} {first : Int} {records : List (List UInt8)}
    {frames : List ComFrame}
    (sizes : ∀ record ∈ records, record.length = comFrameMaxLen)
    (partition : Partition host type comFrameMaxLen first records.length records.flatten frames) :
    frames.map ComFrame.data = records := by
  have one_each : comFrameMaxLen / comFrameMaxLen = 1 := rfl
  have count : frames.length = records.length := by
    rw [partition.count, one_each]
    simp [blockCount, Nat.mod_one]
  have ones := ndata_one (frames.map (ndataOf host))
    (by simpa using partition.filled) (by rw [partition.whole, List.length_map, count])
  have content : (frames.map ComFrame.data).flatten = records.flatten := by
    rw [← partition.content, ← List.flatMap_def]
    apply List.flatMap_congr
    intro frame mem
    rw [ones _ (List.mem_map_of_mem mem), Nat.one_mul]
    exact (List.take_of_length_le (Nat.le_of_eq frame.size)).symm
  refine flatten_injective (by decide) ?_ sizes content
  intro data mem
  obtain ⟨frame, -, rfl⟩ := List.mem_map.mp mem
  exact frame.size

theorem packed_all (host : Host) {entries : List FpEntry}
    (texts : ∀ e ∈ entries, e.cmd.isSome ∧ e.args.isSome) :
    ∃ records, entries.mapM (fpContainer host) = some records ∧
      records.length = entries.length ∧ (∀ record ∈ records, record.length = comFrameMaxLen) ∧
      ∀ frames : List ComFrame, frames.map ComFrame.data = records →
        frames.map (recordOf host) = entries.map recordFor := by
  induction entries with
  | nil => exact ⟨[], rfl, rfl, by simp, by simp⟩
  | cons e rest ih =>
    rw [List.forall_mem_cons] at texts
    obtain ⟨⟨hasCmd, hasArgs⟩, later⟩ := texts
    obtain ⟨cmd, cmdEq⟩ := Option.isSome_iff_exists.mp hasCmd
    obtain ⟨args, argsEq⟩ := Option.isSome_iff_exists.mp hasArgs
    obtain ⟨records, packed, count, sizes, read⟩ := ih later
    obtain ⟨record, here⟩ : ∃ record, fpContainer host e = some record :=
      ⟨_, by simp only [fpContainer, cmdEq, argsEq, Option.bind_eq_bind, Option.bind_some]; rfl⟩
    refine ⟨record :: records, by simp [here, packed], by simp [count], ?_, fun frames data => ?_⟩
    · exact List.forall_mem_cons.mpr ⟨fpContainer_length here, sizes⟩
    · obtain ⟨frame, frames, rfl, first, others⟩ := List.map_eq_cons_iff.mp data
      rw [List.map_cons, List.map_cons, recordOf_frame here first, read frames others]

/-! The plan in the RAM table. -/

section Ram
open RamStorage RamFlightPlan FlightPlanCalls

variable {c : Config} {s : RamStore} {db : Nat → FpEntry} {status : Nat → UInt32}

def planned (s : RamStore) : List FpEntry :=
  match s.flightplanDb with
  | none => []
  | some db => (List.range s.flightplanEntries).filterMap (slots db)

theorem planned_eq (stocked : Stocked c s db status) :
    planned s = (List.range schFpMaxEntries).filterMap (slots db) := by
  simp [planned, stocked.dbEq, stocked.sizeEq]

theorem coe_planned (stocked : Stocked c s db status) :
    (planned s : Multiset FpEntry) = liveEntries s := by
  rw [stocked.live_eq, planned_eq stocked]
  rfl

theorem index_read (stocked : Stocked c s db status) {i : Nat} (inside : i < schFpMaxEntries) :
    (ramStorage c).storageFlightPlanGetIdx s (Int32.ofNat i) = some (.ok (db i)) := by
  have small : i < 2 ^ 31 := by
    unfold schFpMaxEntries at inside
    omega
  have value : (Int32.ofNat i).toInt = i := Int32.toInt_ofNat_of_lt small
  have low : ¬ Int32.ofNat i < 0 := by
    rw [Int32.lt_iff_toInt_lt, value, show (0 : Int32).toInt = 0 from rfl]
    omega
  have room : ¬ s.flightplanEntries ≤ i := by
    rw [stocked.sizeEq]
    omega
  simp [ramStorage, storageFlightPlanGetIdx, stocked.isOpen, stocked.dbEq, low, value, room,
    fpEntryCopy]

theorem showEntries_ram (stocked : Stocked c s db status) {indexes : List Nat}
    (inside : ∀ i ∈ indexes, i < schFpMaxEntries) :
    showEntries (ramStorage c) s indexes = some (indexes.filterMap (slots db)) := by
  induction indexes with
  | nil => rfl
  | cons i rest ih =>
    rw [List.forall_mem_cons] at inside
    rw [showEntries, index_read stocked inside.1, List.filterMap_cons]
    simp only [Option.bind_eq_bind, Option.bind_some, ih inside.2, slots, slotOf]
    by_cases null : (db i).unixtime = stFpNull <;> simp [null]

theorem datShowFp_ram (stocked : Stocked c s db status) :
    datShowFp (ramStorage c) s = some (planned s) := by
  rw [planned_eq stocked]
  exact showEntries_ram stocked fun _ mem => List.mem_range.mp mem

def Downloads (host : Host) (c : Config) (schCommNode : UInt8) (link : Link)
    (fresh : Nat → ComFrame) (s : RamStore) (node : Int32) : Prop :=
  ∃ frames : List ComFrame,
    tmSendFp host (ramStorage c) c schCommNode link fresh s (some node) =
      some (cmdOk, frames.map (image host.order)) ∧
    (∀ frame ∈ frames, frame.type = tmTypeFp ∧ ndataOf host frame = 1) ∧
    frames.map (recordOf host) = (planned s).map recordFor

theorem tmSendFp_empty (host : Host) (schCommNode : UInt8) (link : Link) (fresh : Nat → ComFrame)
    (kept : Kept c s) (empty : liveEntries s = 0) (node : Int32) :
    tmSendFp host (ramStorage c) c schCommNode link fresh s (some node) = none := by
  obtain ⟨db, status, stocked, counted⟩ := kept
  have nothing : planned s = [] := by
    rw [← Multiset.coe_eq_zero, coe_planned stocked, empty]
  have zero : counter c status = 0 := by
    rw [counted, empty]
    rfl
  simp [tmSendFp, queue_read stocked.toReady, zero, datShowFp_ram stocked, nothing,
    comSendTelemetry]

theorem tmSendFp_live (host : Host) (schCommNode : UInt8) {link : Link} (up : link.Up)
    (fresh : Nat → ComFrame) (kept : Kept c s) (live : liveEntries s ≠ 0) (node : Int32) :
    Downloads host c schCommNode link fresh s node := by
  obtain ⟨db, status, stocked, counted⟩ := kept
  have shown := datShowFp_ram stocked
  have cards : (planned s).length = (liveEntries s).card := by
    rw [← coe_planned stocked, Multiset.coe_card]
  have most := live_card_le stocked
  have some_entries : 1 ≤ (planned s).length := by
    rw [cards]
    exact Multiset.card_pos.mpr live
  have few : (planned s).length ≤ 255 := by rw [cards]; exact most
  rw [← cards] at counted
  have value : (counter c status).toInt = (planned s).length := by
    rw [counted]
    exact Int32.toInt_ofNat_of_lt (by omega)
  have texts : ∀ e ∈ planned s, e.cmd.isSome ∧ e.args.isSome := by
    intro e mem
    refine stocked.texts e ?_
    rw [← stocked.live_eq, ← coe_planned stocked]
    exact mem
  obtain ⟨records, packed, count, sizes, read⟩ := packed_all host texts
  have notNegative : ¬ counter c status < 0 := by
    rw [Int32.lt_iff_toInt_lt, value, show (0 : Int32).toInt = 0 from rfl]
    omega
  have length := flatten_length sizes
  have one_each : comFrameMaxLen / comFrameMaxLen = 1 := rfl
  have blocks : blockCount 1 records.length = records.length := by simp [blockCount, Nat.mod_one]
  obtain ⟨frames, sent, partition⟩ := telemetry_partition host schCommNode up fresh tmTypeFp
    (show 1 ≤ records.length by omega) (show 1 ≤ comFrameMaxLen by decide) (Nat.le_refl _)
    (by unfold comFrameMaxLen; omega) length 0 (by rw [one_each, blocks]; simp; omega)
  have data := data_of_partition sizes partition
  have ones : ∀ frame ∈ frames, ndataOf host frame = 1 := by
    intro frame mem
    have frameCount : frames.length = records.length := by
      rw [← data, List.length_map]
    refine ndata_one (frames.map (ndataOf host)) (by simpa using partition.filled) ?_ _
      (List.mem_map_of_mem mem)
    rw [partition.whole, List.length_map, frameCount]
  refine ⟨frames, ?_, fun frame mem => ⟨partition.types frame mem, ones frame mem⟩,
    read frames data⟩
  have whole : (planned s).take (planned s).length = planned s := List.take_length
  have filled : ¬ (records.length : Int) < (planned s).length := by omega
  simp only [tmSendFp, queue_read stocked.toReady, Option.bind_eq_bind, Option.bind_some,
    notNegative, if_false, shown, value, Int.toNat_natCast, whole, packed, filled]
  rw [counted, ← count]
  exact sent

/-- The plan is downloaded exactly, when it is not empty. -/
theorem download_exact_iff (host : Host) (schCommNode : UInt8) {link : Link} (up : link.Up)
    (fresh : Nat → ComFrame) (kept : Kept c s) (node : Int32) :
    Downloads host c schCommNode link fresh s node ↔ liveEntries s ≠ 0 := by
  constructor
  · rintro ⟨frames, sent, -⟩ empty
    rw [tmSendFp_empty host schCommNode link fresh kept empty node] at sent
    cases sent
  · exact fun live => tmSendFp_live host schCommNode up fresh kept live node

open FileTransfer

def lastPing : FpEntry := ⟨200, 3, 60, simpleConfig.schCommNode, some pingText, some pingText⟩

def gappedStore : RamStore :=
  { unopened with
    storageIsOpen := true
    statusDb := some fun _ => 2
    statusEntries := statusCopies simpleConfig * simpleConfig.datStatusLastVar
    flightplanDb := some (Function.update
      (Function.update (fun _ => fpEntryClear simpleConfig.schCommNode) 0 firstPing) 2 lastPing)
    flightplanEntries := schFpMaxEntries }

theorem gappedStore_kept : Kept simpleConfig gappedStore ∧ (liveEntries gappedStore).card = 2 := by
  let cleared : Nat → FpEntry := fun _ => fpEntryClear simpleConfig.schCommNode
  have empty : contents schFpMaxEntries (slots cleared) = 0 :=
    contents_eq_zero_iff.mpr fun i _ => rfl
  have stocked : Stocked simpleConfig { gappedStore with flightplanDb := some cleared } cleared
      fun _ => 2 :=
    ⟨⟨rfl, rfl, rfl⟩, rfl, rfl, fun _ _ _ => rfl, by simp [empty]⟩
  have one := stocked.withSlot 0
    (Or.inr (a := firstPing = fpEntryClear simpleConfig.schCommNode)
      ⟨show firstPing.unixtime ≠ stFpNull by decide, by decide, by decide⟩)
  have two := one.withSlot 2
    (Or.inr (a := lastPing = fpEntryClear simpleConfig.schCommNode)
      ⟨show lastPing.unixtime ≠ stFpNull by decide, by decide, by decide⟩)
  have first : slotOf firstPing = some firstPing := rfl
  have last : slotOf lastPing = some lastPing := rfl
  have number : (liveEntries gappedStore).card = 2 := by
    rw [show liveEntries gappedStore = contents schFpMaxEntries (slots _) from two.live_eq,
      slots_update, last, contents_fill (by decide) rfl, slots_update, first,
      contents_fill (by decide) rfl, empty]
    rfl
  refine ⟨⟨_, _, two, ?_⟩, number⟩
  rw [number]
  decide

theorem gapped_plan_downloaded :
    Downloads (standardHost .little) simpleConfig 1 plainLink (fun _ => blankFrame) gappedStore
      10 := by
  obtain ⟨kept, number⟩ := gappedStore_kept
  refine (download_exact_iff (standardHost .little) 1 plainLink_up (fun _ => blankFrame) kept
    10).mpr fun empty => ?_
  rw [empty] at number
  cases number

theorem empty_plan_divides_by_zero :
    ∃ s, RamStorage.datRepoInit simpleConfig 1 = some s ∧ Kept simpleConfig s ∧
      tmSendFp (standardHost .little) (ramStorage simpleConfig) simpleConfig 1 plainLink
        (fun _ => blankFrame) s (some 10) = none ∧
      ¬ Downloads (standardHost .little) simpleConfig 1 plainLink (fun _ => blankFrame) s 10 := by
  obtain ⟨s, boot, fresh⟩ := datRepoInit_fresh simpleConfig 1
  obtain ⟨kept, empty⟩ := fresh.kept
  have fails := tmSendFp_empty (standardHost .little) 1 plainLink (fun _ => blankFrame) kept empty 10
  refine ⟨s, boot, kept, fails, ?_⟩
  rintro ⟨frames, sent, -⟩
  rw [fails] at sent
  cases sent

end Ram

end FlightPlanTelemetry
