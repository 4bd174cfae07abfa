import SuchaiFlight.FlightPlanTask

/-!
The command `fp_set_cmd_unix` of `cmdFP.c`, which enters a command with its
arguments into the flight plan, and the pass of the flight plan task that sends
it. Scheduling `<name> <args>` is compared with sending that text as a command.
-/
namespace FlightPlanCommands
open CStrings TextScan StorageApi RepoData SlotTable RamStorage RamFlightPlan FlightPlanCalls
open RepoCommand FlightPlanTask SignedWord

def fpSetUnixFmt : List Directive :=
  [.int, .space, .int, .space, .int, .space, .word, .space, .count, .space]

def fpSetUnixNparams : Nat := 5

def assigned (items : List Item) : Nat :=
  (items.filter fun item => match item with | .count _ => false | _ => true).length

/-- A number read with `%d` must be representable. -/
def intOf (value : Int) : Option Int32 :=
  if -2147483648 ≤ value ∧ value < 2147483648 then some (Int32.ofInt value) else none

section
variable {σ : Type} (S : Storage σ) (c : Config)

/-- `%s` has no width, so the name must fit its buffer; the arguments are copied
    with `strncpy` and need a terminator. -/
def fpSetUnix (fmt : List Directive) (params : Option CString) (nparams : Nat) (s : σ) :
    Option (Int32 × σ) :=
  match params with
  | none => some (cmdSyntaxError, s)
  | some params =>
    let items := sscanf fmt params
    if assigned items ≠ nparams - 1 then some (cmdSyntaxError, s)
    else match items with
      | [.int unixtime, .int executions, .int periodical, .word command, .count next] => do
        let unixtime ← intOf unixtime
        let executions ← intOf executions
        let periodical ← intOf periodical
        if strlen command < schCmdMaxStrParams then
          let args ← stringAt (charArray schCmdMaxStrParams (after next params))
          let (rc, s) ← datSetFp S c s unixtime (some command) (some args) executions periodical
          return (if rc = 0 then cmdOk else cmdError, s)
        else none
      | _ => none

end

def fpParams (e : PlanEntry) : CString :=
  decimalText e.time.toInt ++ (blank ++ (decimalText e.executions.toInt ++
    (blank ++ (decimalText e.period.toInt ++ (blank ++ rendered e.command e.args)))))

theorem sscanf_fpParams {e : PlanEntry} (word : Word e.command) (start : Stops isSpace e.args) :
    sscanf fpSetUnixFmt (fpParams e) =
      [.int e.time.toInt, .int e.executions.toInt, .int e.period.toInt, .word e.command,
        .count (strlen (fpParams e) - strlen e.args)] := by
  unfold sscanf
  generalize strlen (fpParams e) = len
  unfold fpParams fpSetUnixFmt rendered
  rw [scanFrom_int _ _ _ (blank_stops_digit _), scanFrom_space _ _ (decimalText_stops _ _),
    scanFrom_int _ _ _ (blank_stops_digit _), scanFrom_space _ _ (decimalText_stops _ _),
    scanFrom_int _ _ _ (blank_stops_digit _), scanFrom_space _ _ (word.stops _),
    scanFrom_word _ _ word (blank_stops_word _), scanFrom_space _ _ start]
  rfl

theorem after_fpParams (e : PlanEntry) :
    after (strlen (fpParams e) - strlen e.args) (fpParams e) = e.args := by
  have split : ∃ front : CString, fpParams e = front ++ e.args := by
    refine ⟨decimalText e.time.toInt ++ (blank ++ (decimalText e.executions.toInt ++
      (blank ++ (decimalText e.period.toInt ++ (blank ++ (e.command ++ blank)))))), ?_⟩
    simp only [fpParams, rendered, append_assoc]
  obtain ⟨front, split⟩ := split
  have len : strlen (fpParams e) - strlen e.args = strlen front := by
    simp only [split, strlen, chars_append, List.length_append]
    omega
  rw [len, split, after_append]

theorem fits_of_short {e : PlanEntry} (short : strlen (fpParams e) ≤ schCmdMaxStrParams) :
    strlen e.command < schCmdMaxStrParams ∧ strlen e.args < schCmdMaxStrParams := by
  simp only [fpParams, rendered, blank, strlen, chars_append, List.length_append,
    List.length_singleton] at short ⊢
  omega

theorem intOf_toInt (i : Int32) : intOf i.toInt = some i := by
  have low := i.le_toInt
  have high := i.toInt_lt
  unfold intOf
  rw [if_pos (by omega), Int32.ofInt_toInt]

theorem fpSetUnix_eq {σ : Type} (S : Storage σ) (c : Config) {e : PlanEntry}
    (word : Word e.command) (start : Stops isSpace e.args)
    (short : strlen (fpParams e) ≤ schCmdMaxStrParams) (s : σ) :
    fpSetUnix S c fpSetUnixFmt (some (fpParams e)) fpSetUnixNparams s = do
      let (rc, s) ← datSetFp S c s e.time (some e.command) (some e.args) e.executions e.period
      return (if rc = 0 then cmdOk else cmdError, s) := by
  obtain ⟨fitsName, fitsArgs⟩ := fits_of_short short
  have copied := stringAt_charArray schCmdMaxStrParams e.args [] fitsArgs
  rw [List.append_nil] at copied
  simp only [fpSetUnix, sscanf_fpParams word start, after_fpParams, copied, intOf_toInt, fitsName,
    if_true]
  rfl

/-! The slots that the two steps use. -/

variable {F : Type} {c : Config} {s : RamStore} {db : Nat → FpEntry} {status : Nat → UInt32}

def freeSlot (db : Nat → FpEntry) : Option Nat :=
  first schFpMaxEntries fun i => (db i).unixtime = stFpNull

def entryAhead (s : RamStore) (t : Int32) : Option FpEntry := do
  let db ← s.flightplanDb
  let free ← freeSlot db
  let i ← first free fun i => t = (db i).unixtime
  return db i

theorem freeSlot_isSome (stocked : Stocked c s db status)
    (room : (liveEntries s).card < schFpMaxEntries) : ∃ free, freeSlot db = some free := by
  cases scan : freeSlot db with
  | some free => exact ⟨free, rfl⟩
  | none =>
    unfold freeSlot at scan
    have flipped : (first schFpMaxEntries fun i => decide (stFpNull = (db i).unixtime)) = none := by
      rw [← scan]
      exact first_congr fun i _ => by simp [eq_comm]
    exact absurd room ((scan_null_eq_none_iff stocked).mp flipped)

theorem datSetFp_slot (stocked : Stocked c s db status) {e : PlanEntry} (time : 0 ≤ e.time)
    {free : Nat} (found : freeSlot db = some free) :
    ∃ s' status', datSetFp (ramStorage c) c s e.time (some e.command) (some e.args) e.executions
        e.period = some (schStOk, s') ∧
      Stocked c s' (Function.update db free (row c e)) status' := by
  have real : e.time ≠ stFpNull := ne_stFpNull time
  have nonneg : ¬ e.time < 0 := Int32.not_lt.mpr time
  have set : (ramStorage c).storageFlightPlanSet s e.time (some e.command) (some e.args)
      e.executions e.period c.schCommNode =
        some (schStOk, { s with flightplanDb := some (Function.update db free (row c e)) }) := by
    have scan : (first schFpMaxEntries fun i => decide ((db i).unixtime = stFpNull)) = some free :=
      found
    simp [ramStorage, storageFlightPlanSet, storageFlightPlanSetSt, nonneg, stocked.isOpen,
      stocked.dbEq, stocked.sizeEq, scan, fpEntryCopy, row]
  have stocked' := stocked.withSlot free (Or.inr (a := row c e = fpEntryClear c.schCommNode)
    ⟨real, by simp [row], by simp [row]⟩)
  obtain ⟨s₂, status₂, write, -, stocked₂, -, -⟩ := queue_write stocked' (counter c status + 1)
  refine ⟨s₂, status₂, ?_, stocked₂⟩
  simp [datSetFp, queue_read stocked.toReady, set, write]

theorem datGetFp_slot (stocked : Stocked c s db status) {t : Int32} (real : t ≠ stFpNull) {i : Nat}
    (found : (first schFpMaxEntries fun i => decide (t = (db i).unixtime)) = some i) :
    ∃ command args s' db' status', (db i).cmd = some command ∧ (db i).args = some args ∧
      datGetFp (ramStorage c) c s t = some (.ok ⟨command, args, (db i).executions,
        (db i).periodical, (db i).node⟩, s') ∧ Stocked c s' db' status' := by
  obtain ⟨bound, hit, -⟩ := first_eq_some_iff.mp found
  have time : t = (db i).unixtime := by simpa using hit
  have live : db i ∈ contents schFpMaxEntries (slots db) :=
    mem_contents.mpr ⟨i, bound, by simp [slots, slotOf, ← time, real]⟩
  obtain ⟨command, command_eq⟩ := Option.isSome_iff_exists.mp (stocked.texts _ live).1
  obtain ⟨args, args_eq⟩ := Option.isSome_iff_exists.mp (stocked.texts _ live).2
  have stocked' := stocked.withSlot i (Or.inl rfl)
  obtain ⟨s₂, status₂, write, -, stocked₂, -, -⟩ := queue_write stocked' (counter c status - 1)
  refine ⟨command, args, s₂, _, status₂, command_eq, args_eq, ?_, stocked₂⟩
  have read : (ramStorage c).storageFlightPlanGetArgs s t =
      some (.ok ⟨command, args, (db i).executions, (db i).periodical, (db i).node⟩) := by
    simp [ramStorage, storageFlightPlanGetArgs, storageFlightPlanGet, stocked.isOpen, stocked.dbEq,
      stocked.sizeEq, found, fpEntryCopy, command_eq, args_eq]
  have delete : (ramStorage c).storageFlightPlanDeleteRow s t = some (schStOk,
      { s with flightplanDb := some (Function.update db i (fpEntryClear c.schCommNode)) }) := by
    simp [ramStorage, storageFlightPlanDeleteRow, stocked.isOpen, stocked.dbEq, stocked.sizeEq,
      found]
  simp [datGetFp, fetchAndDelete, queue_read stocked.toReady, read, delete, write]

theorem first_after_set {t : Int32} {free : Nat}
    (found : freeSlot db = some free) {new : FpEntry} (time : new.unixtime = t) :
    (first schFpMaxEntries fun i => decide (t = (Function.update db free new i).unixtime)) =
      some ((first free fun i => decide (t = (db i).unixtime)).getD free) := by
  obtain ⟨bound, -, -⟩ := first_eq_some_iff.mp found
  apply first_eq_some_iff.mpr
  cases scan : first free fun i => decide (t = (db i).unixtime) with
  | none =>
    have miss := first_eq_none_iff.mp scan
    refine ⟨bound, by simp [time], ?_⟩
    intro j before
    have apart : j ≠ free := by
      rintro rfl
      exact absurd before (lt_irrefl _)
    simpa [apart] using miss j before
  | some i =>
    obtain ⟨before, hit, least⟩ := first_eq_some_iff.mp scan
    have inside : i < free := before
    refine ⟨inside.trans bound, ?_, ?_⟩
    · simpa [inside.ne] using hit
    · intro j earlier
      have apart : j ≠ free := ((show j < i from earlier).trans inside).ne
      simpa [apart] using least j earlier

theorem datSetFp_defined (stocked : Stocked c s db status) (t : Int32) (command args : CString)
    (executions periodical : Int32) :
    ∃ result, datSetFp (ramStorage c) c s t (some command) (some args) executions periodical =
      some result := by
  by_cases time : 0 ≤ t
  · obtain ⟨rc, s', -, -, run, -⟩ := datSetFp_spec stocked time command args executions periodical
    exact ⟨(rc, s'), run⟩
  · have past : t < 0 := Int32.not_le.mp time
    have set : (ramStorage c).storageFlightPlanSet s t (some command) (some args) executions
        periodical c.schCommNode = some (schStError, s) := by
      simp [ramStorage, storageFlightPlanSet, past]
    refine ⟨(schStError, s), ?_⟩
    simp [datSetFp, queue_read stocked.toReady, set, schStError, schStOk]

/-- A later execution of an entry of second `t` is at a second that an `int`
    holds. -/
def Advances (t executions period : Int32) : Prop :=
  period > 0 → executions > 1 → t.toInt + period.toInt < 2147483648

instance (t executions period : Int32) : Decidable (Advances t executions period) :=
  inferInstanceAs (Decidable (_ → _))

theorem body_sends (cmdList : Nat → CmdList F) (stocked : Stocked c s db status) {t : Int32}
    {out : FpArgs} {s₀ : RamStore} (run : datGetFp (ramStorage c) c s₀ t = some (.ok out, s))
    (fits : strlen out.command < schCmdMaxStrName ∧ strlen out.args < schCmdMaxStrParams)
    (advances : Advances t out.executions out.period) :
    ∃ s', taskFlightPlanBody (ramStorage c) c cmdList t.toInt s₀ =
      some (commandOf cmdList out.command out.args, s') := by
  obtain ⟨s₁, status₁, write, stocked₁, -⟩ := fplLast_write stocked t
  have built := cmdAddParamsStr_cmdGetStr cmdList out.command out.args (by omega)
  by_cases again : out.period > 0 ∧ out.executions > 1
  · obtain ⟨⟨rc, s₂⟩, set⟩ := datSetFp_defined stocked₁ (t + out.period) out.command
      out.args (out.executions - 1) out.period
    have sum : checkedAdd t out.period = some (t + out.period) := by
      have positive : 0 < out.period.toInt := by simpa using Int32.lt_iff_toInt_lt.mp again.1
      have low := t.le_toInt
      exact checkedAdd_inside (by omega) (advances again.1 again.2)
    exact ⟨s₂, by simp [taskFlightPlanBody, run, fits, write, again, sum, set, built]⟩
  · exact ⟨s₁, by simp [taskFlightPlanBody, run, fits, write, again, built]⟩

theorem body_overflows (cmdList : Nat → CmdList F) (stocked : Stocked c s db status) {t : Int32}
    {out : FpArgs} {s₀ : RamStore} (run : datGetFp (ramStorage c) c s₀ t = some (.ok out, s))
    (fits : strlen out.command < schCmdMaxStrName ∧ strlen out.args < schCmdMaxStrParams)
    (beyond : ¬ Advances t out.executions out.period) :
    taskFlightPlanBody (ramStorage c) c cmdList t.toInt s₀ = none := by
  obtain ⟨s₁, status₁, write, -, -⟩ := fplLast_write stocked t
  unfold Advances at beyond
  push Not at beyond
  obtain ⟨positive, more, high⟩ := beyond
  have again : out.period > 0 ∧ out.executions > 1 := ⟨positive, more⟩
  simp [taskFlightPlanBody, run, fits, write, again, checkedAdd_beyond high]

theorem body_overruns (cmdList : Nat → CmdList F) {t : Int32} {out : FpArgs} {s₀ : RamStore}
    (run : datGetFp (ramStorage c) c s₀ t = some (.ok out, s))
    (long : ¬ (strlen out.command < schCmdMaxStrName ∧ strlen out.args < schCmdMaxStrParams)) :
    taskFlightPlanBody (ramStorage c) c cmdList t.toInt s₀ = none := by
  simp [taskFlightPlanBody, run, long]

/-! Scheduling against sending. -/

def ScheduledAsSent (c : Config) (cmdList : Nat → CmdList F) (s : RamStore) (e : PlanEntry) :
    Prop :=
  ∃ s₁ s₂ cmd, fpSetUnix (ramStorage c) c fpSetUnixFmt (some (fpParams e)) fpSetUnixNparams s =
      some (cmdOk, s₁) ∧
    taskFlightPlanBody (ramStorage c) c cmdList e.time.toInt s₁ = some (some cmd, s₂) ∧
    cmdBuildFromStr cmdList (rendered e.command e.args) = some cmd

structure Schedulable (cmdList : Nat → CmdList F) (e : PlanEntry) : Prop where
  time : 0 ≤ e.time
  registered : Registered cmdList e.command
  spaceless : ∀ b ∈ e.command.chars, isSpace b = false
  args_start : Stops isSpace e.args
  short : strlen (fpParams e) ≤ schCmdMaxStrParams

theorem Schedulable.real {cmdList : Nat → CmdList F} {e : PlanEntry}
    (ok : Schedulable cmdList e) : e.time ≠ stFpNull :=
  ne_stFpNull ok.time

theorem fpSetUnix_accepted (stocked : Stocked c s db status) {cmdList : Nat → CmdList F}
    (named : Named cmdList) {e : PlanEntry} (ok : Schedulable cmdList e) {free : Nat}
    (found : freeSlot db = some free) :
    ∃ s₁ status₁, fpSetUnix (ramStorage c) c fpSetUnixFmt (some (fpParams e)) fpSetUnixNparams s =
        some (cmdOk, s₁) ∧ Stocked c s₁ (Function.update db free (row c e)) status₁ := by
  obtain ⟨s₁, status₁, run, stocked₁⟩ := datSetFp_slot stocked ok.time found
  refine ⟨s₁, status₁, ?_, stocked₁⟩
  rw [fpSetUnix_eq _ _ (ok.registered.word named ok.spaceless) ok.args_start ok.short, run]
  rfl

theorem entryAhead_eq (stocked : Stocked c s db status) {free : Nat}
    (found : freeSlot db = some free) (t : Int32) :
    entryAhead s t = (first free fun i => decide (t = (db i).unixtime)).map db := by
  unfold entryAhead
  rw [stocked.dbEq]
  simp only [Option.bind_eq_bind, Option.bind_some, found]
  cases first free fun i => decide (t = (db i).unixtime) with
  | none => rfl
  | some i => rfl

def dueEntry (c : Config) (s : RamStore) (e : PlanEntry) : FpEntry :=
  (entryAhead s e.time).getD (row c e)

theorem datGetFp_due {s₁ : RamStore} {status₁ : Nat → UInt32} {e : PlanEntry}
    (stocked : Stocked c s db status) (real : e.time ≠ stFpNull) {free : Nat}
    (found : freeSlot db = some free)
    (stocked₁ : Stocked c s₁ (Function.update db free (row c e)) status₁) :
    ∃ command args s' db' status', (dueEntry c s e).cmd = some command ∧
      (dueEntry c s e).args = some args ∧
      datGetFp (ramStorage c) c s₁ e.time = some (.ok ⟨command, args,
        (dueEntry c s e).executions, (dueEntry c s e).periodical, (dueEntry c s e).node⟩, s') ∧
      Stocked c s' db' status' := by
  have scan : (first schFpMaxEntries fun i =>
      decide (e.time = (Function.update db free (row c e) i).unixtime)) =
        some ((first free fun i => decide (e.time = (db i).unixtime)).getD free) :=
    first_after_set found rfl
  have due : Function.update db free (row c e)
      ((first free fun i => decide (e.time = (db i).unixtime)).getD free) = dueEntry c s e := by
    unfold dueEntry
    rw [entryAhead_eq stocked found]
    cases before : first free fun i => decide (e.time = (db i).unixtime) with
    | none => simp
    | some i =>
      obtain ⟨inside, -, -⟩ := first_eq_some_iff.mp before
      have apart : i ≠ free := (show i < free from inside).ne
      simp [apart]
  obtain ⟨command, args, s', db', status', command_eq, args_eq, run, stocked'⟩ :=
    datGetFp_slot stocked₁ real scan
  rw [due] at command_eq args_eq run
  exact ⟨command, args, s', db', status', command_eq, args_eq, run, stocked'⟩

/-- Scheduling a command is the same as sending it at that time exactly when no
    other command of that second stands before the first free slot, and the
    second of a later execution is an `int`. -/
theorem scheduled_as_sent_iff (stocked : Stocked c s db status)
    (room : (liveEntries s).card < schFpMaxEntries) {cmdList : Nat → CmdList F}
    (named : Named cmdList) {e : PlanEntry} (ok : Schedulable cmdList e) :
    ScheduledAsSent c cmdList s e ↔
      (∀ ahead, entryAhead s e.time = some ahead →
        ahead.cmd = some e.command ∧ ahead.args = some e.args) ∧
      Advances e.time (dueEntry c s e).executions (dueEntry c s e).periodical := by
  obtain ⟨free, found⟩ := freeSlot_isSome stocked room
  obtain ⟨s₁, status₁, set, stocked₁⟩ := fpSetUnix_accepted stocked named ok found
  obtain ⟨command, args, s₂, db₂, status₂, command_eq, args_eq, get, stocked₂⟩ :=
    datGetFp_due stocked ok.real found stocked₁
  have fits := fits_of_short ok.short
  have built : cmdBuildFromStr cmdList (rendered e.command e.args) =
      commandOf cmdList e.command e.args :=
    cmdBuildFromStr_rendered cmdList (ok.registered.word named ok.spaceless) ok.args_start
      fits.2.le
  constructor
  · rintro ⟨s₁', s₃, cmd, set', pass, sent⟩
    obtain rfl : s₁ = s₁' := by
      rw [set] at set'
      exact (Prod.mk.inj (Option.some.inj set')).2
    have short : strlen command < schCmdMaxStrName ∧ strlen args < schCmdMaxStrParams := by
      by_contra long
      rw [body_overruns cmdList get long] at pass
      cases pass
    have advances : Advances e.time (dueEntry c s e).executions (dueEntry c s e).periodical := by
      by_contra beyond
      rw [body_overflows cmdList stocked₂ get short beyond] at pass
      cases pass
    refine ⟨fun ahead isAhead => ?_, advances⟩
    have due : dueEntry c s e = ahead := by simp [dueEntry, isAhead]
    obtain ⟨s', body⟩ := body_sends cmdList stocked₂ get short advances
    rw [body] at pass
    obtain ⟨known, -⟩ := Prod.mk.inj (Option.some.inj pass)
    obtain ⟨rfl, rfl⟩ := commandOf_injective known (built.symm.trans sent)
    rw [due] at command_eq args_eq
    exact ⟨command_eq, args_eq⟩
  · rintro ⟨same, advances⟩
    have due : (dueEntry c s e).cmd = some e.command ∧ (dueEntry c s e).args = some e.args := by
      unfold dueEntry
      cases isAhead : entryAhead s e.time with
      | none => exact ⟨rfl, rfl⟩
      | some ahead => exact same ahead isAhead
    obtain rfl : command = e.command := Option.some.inj (command_eq.symm.trans due.1)
    obtain rfl : args = e.args := Option.some.inj (args_eq.symm.trans due.2)
    obtain ⟨s', body⟩ := body_sends cmdList stocked₂ get fits advances
    obtain ⟨cmd, known⟩ := Option.isSome_iff_exists.mp (commandOf_isSome ok.registered e.args)
    rw [known] at body
    exact ⟨s₁, s', cmd, set, body, built.trans known⟩

def pingOnce : PlanEntry := ⟨10, 1, 0, pingText, noText⟩

theorem pingOnce_schedulable : Schedulable twoNames pingOnce where
  time := by decide
  registered := ⟨1, by decide, rfl⟩
  spaceless := spaceless_of_all (by decide)
  args_start := by decide
  short := by decide

theorem scheduled_as_sent_after_boot :
    ∃ s, datRepoInit simpleConfig 1 = some s ∧ ScheduledAsSent simpleConfig twoNames s pingOnce := by
  have none_ahead : ((datRepoInit simpleConfig 1).bind fun s => entryAhead s 10) = none := by decide
  obtain ⟨s, boot, fresh⟩ := datRepoInit_fresh simpleConfig 1
  obtain ⟨⟨db, status, stocked, -⟩, empty⟩ := fresh.kept
  rw [boot, Option.bind_some] at none_ahead
  refine ⟨s, boot, ?_⟩
  refine (scheduled_as_sent_iff stocked (by simp [empty, schFpMaxEntries]) twoNames_named
    pingOnce_schedulable).mpr ⟨?_, ?_⟩
  · intro ahead isAhead
    rw [show pingOnce.time = 10 from rfl, none_ahead] at isAhead
    cases isAhead
  · have due : dueEntry simpleConfig s pingOnce = row simpleConfig pingOnce := by
      rw [dueEntry, show pingOnce.time = 10 from rfl, none_ahead]
      rfl
    rw [due]
    decide

def pingAfterNull : Option (Option (Cmd Unit)) := do
  let s ← datRepoInit simpleConfig 1
  let (_, s) ← datSetFp (ramStorage simpleConfig) simpleConfig s 10 (some nullText) (some noText) 1 0
  let (_, s) ← fpSetUnix (ramStorage simpleConfig) simpleConfig fpSetUnixFmt
    (some (fpParams pingOnce)) fpSetUnixNparams s
  let (cmd, _) ← taskFlightPlanBody (ramStorage simpleConfig) simpleConfig twoNames 10 s
  return cmd

theorem scheduled_ping_hidden_by_null :
    ∃ s₀ s, datRepoInit simpleConfig 1 = some s₀ ∧
      datSetFp (ramStorage simpleConfig) simpleConfig s₀ 10 (some nullText) (some noText) 1 0 =
        some (schStOk, s) ∧
      (liveEntries s).card < schFpMaxEntries ∧ Named twoNames ∧ Schedulable twoNames pingOnce ∧
      ¬ ScheduledAsSent simpleConfig twoNames s pingOnce := by
  have sent : pingAfterNull.map (fun cmd => cmd.map Cmd.id) = some (some 0) := by decide
  have built : (cmdBuildFromStr twoNames (rendered pingText noText)).map Cmd.id = some 1 := by
    decide
  obtain ⟨s₀, boot, fresh⟩ := datRepoInit_fresh simpleConfig 1
  obtain ⟨⟨db, status, stocked, -⟩, empty⟩ := fresh.kept
  obtain ⟨rc, s, db', status', run, stocked', puts, -, -⟩ :=
    datSetFp_spec stocked (show (0 : Int32) ≤ 10 by decide) nullText noText 1 0
  have ok : rc = schStOk := puts.1.mpr (by simp [empty, schFpMaxEntries])
  subst ok
  have live : (liveEntries s).card < schFpMaxEntries := by
    rw [puts.2.1 rfl, empty]
    decide
  refine ⟨s₀, s, boot, run, live, twoNames_named, pingOnce_schedulable, ?_⟩
  rintro ⟨s₁, s₂, cmd, set, pass, text⟩
  have hidden : pingAfterNull = some (some cmd) := by
    simp only [pingAfterNull, boot, run, Option.bind_eq_bind, Option.bind_some, set]
    rw [show (10 : Int) = pingOnce.time.toInt from rfl, pass]
    rfl
  rw [hidden, Option.map_some, Option.map_some, Option.some.injEq, Option.some.injEq] at sent
  rw [show rendered pingText noText = rendered pingOnce.command pingOnce.args from rfl, text,
    Option.map_some, Option.some.injEq, sent] at built
  cases built

end FlightPlanCommands
