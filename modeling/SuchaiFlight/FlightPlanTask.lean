import SuchaiFlight.FlightPlanCalls
import SuchaiFlight.Library.SignedWord
import SuchaiFlight.RepoCommand

/-!
The loop body of `taskFlightPlan.c` and the schedule it executes. The body is
run once for each second; the dispatcher queue is the list of commands sent.
-/
namespace FlightPlanTask
open CStrings StorageApi RepoData SlotTable RamStorage RamFlightPlan FlightPlanCalls RepoCommand
open SignedWord

section Task
variable {σ F : Type} (S : Storage σ) (c : Config) (cmdList : Nat → CmdList F)

/-- One pass of the loop at clock value `now`, with the command it sends. The
    clock is cast to `int`, and both texts are copied into buffers of the task. -/
def taskFlightPlanBody (now : Int) (s : σ) : Option (Option (Cmd F) × σ) := do
  let elapsedSec := Int32.ofInt now
  let (res, s) ← datGetFp S c s elapsedSec
  match res with
  | .error rc => if rc = -1 then return (none, s) else none
  | .ok out =>
    if strlen out.command < schCmdMaxStrName ∧ strlen out.args < schCmdMaxStrParams then
      let (_, s) ← datSetSystemVar S c s c.datFplLast elapsedSec
      let (_, s) ←
        if out.period > 0 ∧ out.executions > 1 then
          (checkedAdd elapsedSec out.period).bind fun next =>
            datSetFp S c s next (some out.command) (some out.args) (out.executions - 1) out.period
        else some (schStOk, s)
      let newCmd := cmdGetStr cmdList out.command
      return (cmdAddParamsStr newCmd out.args, s)
    else none

def runSeconds (start : Int) (s : σ) : Nat → Option (List (Cmd F) × σ)
  | 0 => some ([], s)
  | n + 1 => do
    let (sent, s) ← runSeconds start s n
    let (cmd, s) ← taskFlightPlanBody S c cmdList (start + n + 1) s
    return (sent ++ cmd.toList, s)

end Task

/-! The schedule of a table. -/

structure PlanEntry where
  time : Int32
  executions : Int32
  period : Int32
  command : CString
  args : CString
  deriving DecidableEq

def row (c : Config) (e : PlanEntry) : FpEntry :=
  ⟨e.time, e.executions, e.period, c.schCommNode, some e.command, some e.args⟩

def Repeating (e : PlanEntry) : Prop := e.period > 0 ∧ e.executions > 1

instance (e : PlanEntry) : Decidable (Repeating e) := inferInstanceAs (Decidable (_ ∧ _))

def total (e : PlanEntry) : Nat := if Repeating e then e.executions.toInt.toNat else 1

def occurrence (e : PlanEntry) (k : Nat) : Int := e.time.toInt + k * e.period.toInt

def occurrences (e : PlanEntry) : List (Int × PlanEntry) :=
  (List.range (total e)).map fun k => (occurrence e k, e)

def expanded (entries : List PlanEntry) : List (Int × PlanEntry) := entries.flatMap occurrences

def nextOf (e : PlanEntry) (k : Nat) : PlanEntry :=
  { e with time := Int32.ofInt (occurrence e k), executions := e.executions - Int32.ofNat k }

def remaining (now : Int) (e : PlanEntry) : Option PlanEntry :=
  (first (total e) fun k => now < occurrence e k).map (nextOf e)

theorem total_pos (e : PlanEntry) : 0 < total e := by
  unfold total
  split
  · rename_i rep
    have := Int32.lt_iff_toInt_lt.mp rep.2
    simp at this
    omega
  · omega

theorem mem_expanded {entries : List PlanEntry} {x : Int × PlanEntry} :
    x ∈ expanded entries ↔ x.2 ∈ entries ∧ ∃ k < total x.2, x.1 = occurrence x.2 k := by
  simp only [expanded, occurrences, List.mem_flatMap, List.mem_map, List.mem_range]
  constructor
  · rintro ⟨e, mem, k, bound, rfl⟩
    exact ⟨mem, k, bound, rfl⟩
  · rintro ⟨mem, k, bound, eq⟩
    exact ⟨x.2, mem, k, bound, by rw [← eq]⟩

theorem repeating_of_total {e : PlanEntry} {k : Nat} (pos : 0 < k) (bound : k < total e) :
    Repeating e := by
  by_contra single
  simp only [total, single, ↓reduceIte] at bound
  omega

theorem occurrence_lt {e : PlanEntry} {j k : Nat} (order : j < k) (bound : k < total e) :
    occurrence e j < occurrence e k := by
  have rep := repeating_of_total (by omega) bound
  have positive : 0 < e.period.toInt := by simpa using Int32.lt_iff_toInt_lt.mp rep.1
  have steps : (j : Int) < k := by omega
  have := Int.mul_lt_mul_of_pos_right steps positive
  simp only [occurrence]
  omega

theorem remaining_of_not_due {now : Int} {e : PlanEntry}
    (quiet : ∀ k < total e, occurrence e k ≠ now + 1) :
    remaining (now + 1) e = remaining now e := by
  unfold remaining
  congr 1
  apply first_congr
  intro k bound
  have := quiet k bound
  simp only [decide_eq_decide]
  omega

theorem remaining_before {now : Int} {e : PlanEntry} {k : Nat} (bound : k < total e)
    (due : occurrence e k = now + 1) : remaining now e = some (nextOf e k) := by
  have scan : first (total e) (fun k => decide (now < occurrence e k)) = some k := by
    refine first_eq_some_iff.mpr ⟨bound, by simp only [due, decide_eq_true_eq]; omega, ?_⟩
    intro j lt
    have := occurrence_lt lt bound
    simp only [decide_eq_false_iff_not]
    omega
  simp [remaining, scan]

theorem remaining_after {now : Int} {e : PlanEntry} {k : Nat} (bound : k < total e)
    (due : occurrence e k = now) :
    remaining now e = if k + 1 < total e then some (nextOf e (k + 1)) else none := by
  have passed : ∀ j ≤ k, ¬ now < occurrence e j := by
    intro j le
    rcases Nat.lt_or_eq_of_le le with lt | eq
    · have := occurrence_lt lt bound
      omega
    · subst eq
      omega
  split
  · rename_i more
    have scan : first (total e) (fun k => decide (now < occurrence e k)) = some (k + 1) := by
      refine first_eq_some_iff.mpr ⟨more, ?_, ?_⟩
      · have := occurrence_lt (show k < k + 1 by omega) more
        simp only [decide_eq_true_eq]
        omega
      · intro j lt
        simpa using passed j (by omega)
    simp [remaining, scan]
  · rename_i last
    have scan : first (total e) (fun k => decide (now < occurrence e k)) = none := by
      refine first_eq_none_iff.mpr ?_
      intro j lt
      simpa using passed j (by omega)
    simp [remaining, scan]

theorem remaining_cases {now : Int} {e next : PlanEntry} (left : remaining now e = some next) :
    ∃ k < total e, now < occurrence e k ∧ next = nextOf e k := by
  simp only [remaining, Option.map_eq_some_iff] at left
  obtain ⟨k, scan, eq⟩ := left
  obtain ⟨bound, later, -⟩ := first_eq_some_iff.mp scan
  exact ⟨k, bound, by simpa using later, eq.symm⟩

variable {F : Type} {c : Config} {cmdList : Nat → CmdList F} {s : RamStore}
  {db : Nat → FpEntry} {status : Nat → UInt32}

theorem body_idle (stocked : Stocked c s db status) {now : Int}
    (real : Int32.ofInt now ≠ stFpNull)
    (quiet : ∀ e ∈ liveEntries s, e.unixtime ≠ Int32.ofInt now) :
    taskFlightPlanBody (ramStorage c) c cmdList now s = some (none, s) := by
  obtain ⟨found, res, s', _, _, run, -, delivers, takes, -, same⟩ := datGetFp_spec stocked real
  cases found with
  | some e =>
    have mem : e ∈ liveEntries s := by rw [takes.2]; exact Multiset.mem_cons_self e _
    exact absurd takes.1 (quiet e mem)
  | none =>
    obtain ⟨rfl, -⟩ := same rfl
    cases res with
    | ok out => exact absurd delivers (by simp [Delivers])
    | error rc =>
      simp only [Delivers] at delivers
      simp [taskFlightPlanBody, run, delivers, schStError]

theorem fplLast_write (stocked : Stocked c s db status) (value : Int32) :
    ∃ s' status', datSetSystemVar (ramStorage c) c s c.datFplLast value = some (schStOk, s') ∧
      Stocked c s' db status' ∧ liveEntries s' = liveEntries s :=
  ⟨_, _, datSetSystemVar_ready stocked.toReady value c.fplLast_lt, stocked.withStatus _, rfl⟩

theorem body_fires (cmdList : Nat → CmdList F) (stocked : Stocked c s db status) {now : Int}
    {e : PlanEntry} {rest : Multiset FpEntry} (live : liveEntries s = row c e ::ₘ rest)
    (now_eq : e.time = Int32.ofInt now) (real : Int32.ofInt now ≠ stFpNull)
    (others : ∀ x ∈ rest, x.unixtime ≠ Int32.ofInt now)
    (fits : strlen e.command < schCmdMaxStrName ∧ strlen e.args < schCmdMaxStrParams)
    (next : Repeating e → 0 ≤ Int32.ofInt now + e.period) :
    ∃ s' db' status', taskFlightPlanBody (ramStorage c) c cmdList now s =
        some (commandOf cmdList e.command e.args, s') ∧ Stocked c s' db' status' ∧
      liveEntries s' = if Repeating e then
        row c { e with time := Int32.ofInt now + e.period, executions := e.executions - 1 } ::ₘ rest
      else rest := by
  obtain ⟨found, res, s₁, db₁, status₁, run, stocked₁, delivers, takes, -, -⟩ :=
    datGetFp_spec stocked real
  -- the only live entry of this second is `e`, so the lookup finds it
  obtain ⟨e', rfl⟩ : ∃ e', found = some e' := by
    have hit := (takes_isSome_iff takes).mpr ⟨row c e, by simp [live], now_eq⟩
    exact Option.isSome_iff_exists.mp hit
  have same : e' = row c e := by
    have mem : e' ∈ liveEntries s := by rw [takes.2]; exact Multiset.mem_cons_self e' _
    rw [live] at mem
    rcases Multiset.mem_cons.mp mem with eq | old
    · exact eq
    · exact absurd takes.1 (others e' old)
  subst same
  have left : liveEntries s₁ = rest := by
    have split := takes.2
    rw [live] at split
    exact (Multiset.cons_inj_right _).mp split.symm
  cases res with
  | error rc => exact absurd delivers (by simp [Delivers])
  | ok out =>
    obtain ⟨command, args, executions, period, node⟩ := out
    simp only [Delivers, row, Option.some.injEq] at delivers
    obtain ⟨rfl, rfl, rfl, rfl, -⟩ := delivers
    obtain ⟨s₂, status₂, write, stocked₂, live₂⟩ := fplLast_write stocked₁ (Int32.ofInt now)
    have built := cmdAddParamsStr_cmdGetStr cmdList e.command e.args (by omega)
    by_cases again : Repeating e
    · obtain ⟨rc, s₃, db₃, status₃, set, stocked₃, puts, -, -⟩ :=
        datSetFp_spec stocked₂ (next again) e.command e.args (e.executions - 1) e.period
      have room : (liveEntries s₂).card < schFpMaxEntries := by
        have le := live_card_le stocked
        rw [live, Multiset.card_cons] at le
        rw [live₂, left]
        omega
      refine ⟨s₃, db₃, status₃, ?_, stocked₃, ?_⟩
      · have cond : e.period > 0 ∧ e.executions > 1 := again
        have sum := checkedAdd_of_nonneg again.1 (next again)
        simp [taskFlightPlanBody, run, fits, write, cond, sum, set, built]
      · rw [puts.2.1 (puts.1.mpr room), live₂, left]
        simp [again, row]
    · refine ⟨s₂, db₁, status₂, ?_, stocked₂, ?_⟩
      · have cond : ¬ (e.period > 0 ∧ e.executions > 1) := again
        simp [taskFlightPlanBody, run, fits, write, cond, built]
      · rw [live₂, left]
        simp [again]

/-! One second of the schedule. -/

/-- A flight plan to be executed from second `start` on. Times are those the
    store accepts, and the texts fit the buffers of the task, as they do in
    every command that `cmdFP.c` enters. -/
structure Plan (cmdList : Nat → CmdList F) (start : Int) (entries : List PlanEntry) : Prop where
  distinct : ((expanded entries).map Prod.fst).Nodup
  later : ∀ x ∈ expanded entries, start < x.1
  below : ∀ x ∈ expanded entries, x.1 < 2147483648
  accepted : ∀ e ∈ entries, 0 ≤ e.time
  registered : ∀ e ∈ entries, Registered cmdList e.command
  fits : ∀ e ∈ entries, strlen e.command < schCmdMaxStrName ∧ strlen e.args < schCmdMaxStrParams

def Executed (cmdList : Nat → CmdList F) (entries : List PlanEntry) (now : Int)
    (sent : List (Cmd F)) : Prop :=
  ∃ due : List (Int × PlanEntry),
    due.Perm ((expanded entries).filter fun x => x.1 ≤ now) ∧
    due.Pairwise (fun a b => a.1 < b.1) ∧
    sent.map some = due.map fun x => commandOf cmdList x.2.command x.2.args

def Pending (c : Config) (entries : List PlanEntry) (now : Int) (s : RamStore) : Prop :=
  liveEntries s = Multiset.ofList ((entries.filterMap (remaining now)).map (row c))

theorem filter_step (entries : List PlanEntry) (now : Int) :
    ((expanded entries).filter fun x => x.1 ≤ now + 1).Perm
      ((expanded entries).filter (fun x => x.1 ≤ now) ++
        (expanded entries).filter fun x => x.1 = now + 1) := by
  have split := List.filter_append_perm (fun x : Int × PlanEntry => decide (x.1 ≤ now))
    ((expanded entries).filter fun x => x.1 ≤ now + 1)
  simp only [List.filter_filter] at split
  have old : (expanded entries).filter (fun x => decide (x.1 ≤ now) && decide (x.1 ≤ now + 1)) =
      (expanded entries).filter fun x => x.1 ≤ now := by
    apply List.filter_congr
    intro x _
    by_cases le : x.1 ≤ now
    · have : x.1 ≤ now + 1 := by omega
      simp [le, this]
    · simp [le]
  have new : (expanded entries).filter (fun x => !decide (x.1 ≤ now) && decide (x.1 ≤ now + 1)) =
      (expanded entries).filter fun x => x.1 = now + 1 := by
    apply List.filter_congr
    intro x _
    by_cases eq : x.1 = now + 1
    · have later : ¬ x.1 ≤ now := by omega
      simp only [eq] at later
      simp [eq, later]
    · by_cases le : x.1 ≤ now
      · simp [eq, le]
      · have : ¬ x.1 ≤ now + 1 := by omega
        simp [eq, this]
  rw [old, new] at split
  exact split.symm

theorem filter_time_unique {l : List (Int × PlanEntry)} (distinct : (l.map Prod.fst).Nodup)
    {x : Int × PlanEntry} (mem : x ∈ l) : l.filter (fun y => y.1 = x.1) = [x] := by
  induction l with
  | nil => simp at mem
  | cons y l ih =>
    simp only [List.map_cons, List.nodup_cons] at distinct
    rcases List.mem_cons.mp mem with eq | tail
    · subst eq
      have none : l.filter (fun y => decide (y.1 = x.1)) = [] := by
        rw [List.filter_eq_nil_iff]
        intro z hz
        simp only [decide_eq_true_eq]
        intro eq
        exact distinct.1 (eq ▸ List.mem_map_of_mem hz)
      simp [none]
    · have ne : y.1 ≠ x.1 := fun eq => distinct.1 (eq ▸ List.mem_map_of_mem tail)
      simp [ne, ih distinct.2 tail]

theorem executed_quiet {entries : List PlanEntry} {now : Int} {sent : List (Cmd F)}
    (executed : Executed cmdList entries now sent)
    (quiet : ∀ x ∈ expanded entries, x.1 ≠ now + 1) : Executed cmdList entries (now + 1) sent := by
  obtain ⟨due, perm, sorted, eq⟩ := executed
  have none : (expanded entries).filter (fun x => decide (x.1 = now + 1)) = [] := by
    rw [List.filter_eq_nil_iff]
    intro x mem
    simpa using quiet x mem
  have step := filter_step entries now
  rw [none, List.append_nil] at step
  exact ⟨due, perm.trans step.symm, sorted, eq⟩

theorem executed_due {entries : List PlanEntry} {now : Int} {sent : List (Cmd F)}
    (executed : Executed cmdList entries now sent)
    (distinct : ((expanded entries).map Prod.fst).Nodup) {x : Int × PlanEntry}
    (mem : x ∈ expanded entries) (time : x.1 = now + 1) {cmd : Cmd F}
    (built : commandOf cmdList x.2.command x.2.args = some cmd) :
    Executed cmdList entries (now + 1) (sent ++ [cmd]) := by
  obtain ⟨due, perm, sorted, eq⟩ := executed
  have step := filter_step entries now
  rw [← time, filter_time_unique distinct mem, time] at step
  refine ⟨due ++ [x], (perm.append_right [x]).trans step.symm, ?_, by simp [eq, built]⟩
  rw [List.pairwise_append]
  refine ⟨sorted, by simp, ?_⟩
  intro a ha b hb
  have reached := (List.mem_filter.mp (perm.mem_iff.mp ha)).2
  simp only [decide_eq_true_eq] at reached
  rw [List.mem_singleton.mp hb, time]
  omega

theorem ofInt_inj {a b : Int} (ha : -2147483648 ≤ a) (ha' : a < 2147483648) (hb : -2147483648 ≤ b)
    (hb' : b < 2147483648) (eq : Int32.ofInt a = Int32.ofInt b) : a = b := by
  have same := congrArg Int32.toInt eq
  rwa [Int32.toInt_ofInt_of_le ha ha', Int32.toInt_ofInt_of_le hb hb'] at same

theorem nextOf_repeating_iff {e : PlanEntry} {k : Nat} (bound : k < total e) :
    Repeating (nextOf e k) ↔ k + 1 < total e := by
  by_cases rep : Repeating e
  · have many : total e = e.executions.toInt.toNat := by simp [total, rep]
    have top := e.executions.toInt_lt
    have lower : (1 : Int) < e.executions.toInt := by
      simpa using Int32.lt_iff_toInt_lt.mp rep.2
    have left : (e.executions - Int32.ofNat k).toInt = e.executions.toInt - k := by
      rw [Int32.toInt_sub, Int32.toInt_ofNat_of_lt (by omega)]
      exact Int.bmod_eq_of_le (by omega) (by omega)
    have test : e.executions - Int32.ofNat k > 1 ↔ k + 1 < total e := by
      rw [gt_iff_lt, Int32.lt_iff_toInt_lt, left]
      simp
      omega
    simp only [Repeating, nextOf] at rep ⊢
    rw [test]
    exact ⟨fun h => h.2, fun h => ⟨rep.1, h⟩⟩
  · have one : total e = 1 := by simp [total, rep]
    have zero : k = 0 := by omega
    subst zero
    have same : Repeating (nextOf e 0) ↔ Repeating e := by simp [Repeating, nextOf]
    rw [same, one]
    simp [rep]

theorem nextOf_step {e : PlanEntry} {k : Nat} {now : Int} (due : occurrence e k = now) :
    ({ nextOf e k with time := Int32.ofInt now + e.period,
                       executions := (nextOf e k).executions - 1 } : PlanEntry) =
      nextOf e (k + 1) := by
  have time : Int32.ofInt now + e.period = Int32.ofInt (occurrence e (k + 1)) := by
    have sum : occurrence e (k + 1) = now + e.period.toInt := by
      rw [← due, occurrence, occurrence]
      push_cast
      rw [Int.add_mul]
      omega
    rw [sum, Int32.ofInt_add, Int32.ofInt_toInt]
  have count : e.executions - Int32.ofNat k - 1 = e.executions - Int32.ofNat (k + 1) := by
    rw [← ofNat_add_one, Int32.sub_sub]
  simp [nextOf, time, count]

theorem pending_quiet {entries : List PlanEntry} {now : Int} (pending : Pending c entries now s)
    (quiet : ∀ x ∈ expanded entries, x.1 ≠ now + 1) : Pending c entries (now + 1) s := by
  have same : entries.filterMap (remaining (now + 1)) = entries.filterMap (remaining now) := by
    apply List.filterMap_congr
    intro e mem
    apply remaining_of_not_due
    intro k bound
    exact quiet (occurrence e k, e) (mem_expanded.mpr ⟨mem, k, bound, rfl⟩)
  rw [Pending, same]
  exact pending

section Step
variable {start now : Int} {entries : List PlanEntry}

theorem rows_time_ne (plan : Plan cmdList start entries) (clock : -2147483648 ≤ start)
    (after : start ≤ now) {part : List PlanEntry} (among : ∀ e ∈ part, e ∈ entries)
    (quiet : ∀ e ∈ part, ∀ k < total e, occurrence e k ≠ now + 1) :
    ∀ x ∈ Multiset.ofList ((part.filterMap (remaining now)).map (row c)),
      x.unixtime ≠ Int32.ofInt (now + 1) := by
  intro x mem hit
  rw [Multiset.mem_coe, List.mem_map] at mem
  obtain ⟨next, inner, eq⟩ := mem
  obtain ⟨e, he, left⟩ := List.mem_filterMap.mp inner
  obtain ⟨k, bound, later, same⟩ := remaining_cases left
  have top := plan.below (occurrence e k, e) (mem_expanded.mpr ⟨among e he, k, bound, rfl⟩)
  simp only at top
  rw [← eq, same] at hit
  exact quiet e he k bound (ofInt_inj (by omega) (by omega) (by omega) (by omega) hit)

theorem second_quiet (plan : Plan cmdList start entries) (clock : -2147483648 ≤ start)
    (after : start ≤ now) (stocked : Stocked c s db status) (pending : Pending c entries now s)
    (real : Int32.ofInt (now + 1) ≠ stFpNull) (quiet : ∀ x ∈ expanded entries, x.1 ≠ now + 1) :
    taskFlightPlanBody (ramStorage c) c cmdList (now + 1) s = some (none, s) := by
  refine body_idle stocked real ?_
  rw [pending]
  refine rows_time_ne plan clock after (fun _ mem => mem) ?_
  intro e he k bound
  exact quiet (occurrence e k, e) (mem_expanded.mpr ⟨he, k, bound, rfl⟩)

theorem others_not_due {pre post : List PlanEntry} {e : PlanEntry} {k : Nat}
    (distinct : ((expanded (pre ++ e :: post)).map Prod.fst).Nodup) (bound : k < total e) :
    ∀ e' ∈ pre ++ post, ∀ j < total e', occurrence e' j ≠ occurrence e k := by
  intro e' mem j bound' eq
  have split : expanded (pre ++ e :: post) = expanded pre ++ (occurrences e ++ expanded post) := by
    simp [expanded]
  have here : occurrence e k ∈ (occurrences e).map Prod.fst := by
    simp only [occurrences, List.map_map, List.mem_map, List.mem_range]
    exact ⟨k, bound, rfl⟩
  rw [split, List.map_append, List.map_append, List.nodup_append] at distinct
  obtain ⟨-, tail, apart⟩ := distinct
  rcases List.mem_append.mp mem with left | right
  · have there : occurrence e' j ∈ (expanded pre).map Prod.fst :=
      List.mem_map.mpr ⟨(occurrence e' j, e'), mem_expanded.mpr ⟨left, j, bound', rfl⟩, rfl⟩
    exact apart _ there _ (List.mem_append_left _ here) eq
  · have there : occurrence e' j ∈ (expanded post).map Prod.fst :=
      List.mem_map.mpr ⟨(occurrence e' j, e'), mem_expanded.mpr ⟨right, j, bound', rfl⟩, rfl⟩
    exact (List.nodup_append.mp tail).2.2 _ here _ there eq.symm

theorem rows_middle (pre post : List PlanEntry) (e : PlanEntry) :
    (Multiset.ofList (((pre ++ e :: post).filterMap (remaining now)).map (row c))) =
      Multiset.ofList ((remaining now e).toList.map (row c)) +
        Multiset.ofList (((pre ++ post).filterMap (remaining now)).map (row c)) := by
  rw [Multiset.coe_add, Multiset.coe_eq_coe]
  cases left : remaining now e with
  | none => simp [left]
  | some next => simp [left]

theorem occurrence_nonneg (plan : Plan cmdList start entries) {x : Int × PlanEntry}
    (mem : x ∈ expanded entries) : 0 ≤ x.1 := by
  obtain ⟨he, k, bound, eq⟩ := mem_expanded.mp mem
  have zero : (0 : Int) ≤ x.2.time.toInt := by
    simpa using Int32.le_iff_toInt_le.mp (plan.accepted x.2 he)
  have at_zero : occurrence x.2 0 = x.2.time.toInt := by simp [occurrence]
  rcases Nat.eq_zero_or_pos k with rfl | pos
  · omega
  · have := occurrence_lt pos bound
    omega

theorem next_time_accepted (plan : Plan cmdList start entries) {e : PlanEntry} (mem : e ∈ entries)
    {k : Nat} (more : k + 1 < total e) : 0 ≤ (nextOf e (k + 1)).time := by
  have inside := mem_expanded (x := (occurrence e (k + 1), e)).mpr ⟨mem, k + 1, more, rfl⟩
  have top := plan.below _ inside
  have low := occurrence_nonneg plan inside
  rw [Int32.le_iff_toInt_le, nextOf, Int32.toInt_ofInt_of_le (by omega) (by omega)]
  simpa using low

theorem second_due (plan : Plan cmdList start entries) (clock : -2147483648 ≤ start)
    (after : start ≤ now) (stocked : Stocked c s db status) (pending : Pending c entries now s)
    (real : Int32.ofInt (now + 1) ≠ stFpNull) {e : PlanEntry} (mem : e ∈ entries) {k : Nat}
    (bound : k < total e) (due : occurrence e k = now + 1) :
    ∃ s' db' status', taskFlightPlanBody (ramStorage c) c cmdList (now + 1) s =
        some (commandOf cmdList e.command e.args, s') ∧ Stocked c s' db' status' ∧
      Pending c entries (now + 1) s' := by
  obtain ⟨pre, post, rfl⟩ := List.append_of_mem mem
  have others := others_not_due plan.distinct bound
  rw [due] at others
  have keep : (pre ++ post).filterMap (remaining (now + 1)) =
      (pre ++ post).filterMap (remaining now) :=
    List.filterMap_congr fun e' he' => remaining_of_not_due (others e' he')
  have live : liveEntries s = row c (nextOf e k) ::ₘ
      Multiset.ofList (((pre ++ post).filterMap (remaining now)).map (row c)) := by
    rw [pending, rows_middle, remaining_before bound due]
    exact Multiset.singleton_add _ _
  have restOthers : ∀ x ∈ Multiset.ofList (((pre ++ post).filterMap (remaining now)).map (row c)),
      x.unixtime ≠ Int32.ofInt (now + 1) := by
    refine rows_time_ne plan clock after ?_ others
    intro e' he'
    rcases List.mem_append.mp he' with h | h <;> simp [h]
  have step := nextOf_step due
  obtain ⟨s', db', status', run, stocked', after'⟩ :=
    body_fires cmdList stocked live
      (show (nextOf e k).time = Int32.ofInt (now + 1) by simp [nextOf, due]) real restOthers
      (plan.fits e mem) (by
        intro again
        have time := next_time_accepted plan mem ((nextOf_repeating_iff bound).mp again)
        rwa [← step] at time)
  refine ⟨s', db', status', run, stocked', ?_⟩
  rw [Pending, after', rows_middle, remaining_after bound due, keep]
  by_cases more : k + 1 < total e
  · have again := (nextOf_repeating_iff bound).mpr more
    rw [if_pos again, if_pos more, ← step]
    simp
    rfl
  · have last : ¬ Repeating (nextOf e k) := fun again =>
      more ((nextOf_repeating_iff bound).mp again)
    simp [last, more]

/-- A second whose cast is `ST_FP_NULL` is harmless only when no slot is free. -/
theorem second_null (stocked : Stocked c s db status) (null : Int32.ofInt now = stFpNull) :
    taskFlightPlanBody (ramStorage c) c cmdList now s =
      if (liveEntries s).card < schFpMaxEntries then none else some (none, s) := by
  simp only [taskFlightPlanBody, null, datGetFp_null stocked]
  by_cases room : (liveEntries s).card < schFpMaxEntries
  · simp [room]
  · simp [room, schStError]

theorem pending_card (pending : Pending c entries now s) :
    (liveEntries s).card = (entries.filterMap (remaining now)).length := by
  rw [pending]
  simp

theorem null_seconds {second : Int} (clock : -2147483648 ≤ second)
    (null : Int32.ofInt second = stFpNull) : second = -1 ∨ 4294967295 ≤ second := by
  have value := congrArg Int32.toInt null
  rw [Int32.toInt_ofInt, show stFpNull.toInt = -1 from rfl, Int.bmod_def] at value
  simp only [Int32.size] at value
  omega

theorem remaining_start (plan : Plan cmdList start entries) :
    entries.filterMap (remaining start) = entries := by
  have whole : ∀ e ∈ entries, remaining start e = some e := by
    intro e mem
    have later := plan.later (occurrence e 0, e) (mem_expanded.mpr ⟨mem, 0, total_pos e, rfl⟩)
    simp only at later
    have scan : first (total e) (fun k => decide (start < occurrence e k)) = some 0 :=
      first_eq_some_iff.mpr ⟨total_pos e, by simpa using later, by simp⟩
    have same : nextOf e 0 = e := by simp [nextOf, occurrence]
    simp [remaining, scan, same]
  rw [List.filterMap_congr whole, List.filterMap_some]

theorem remaining_before_epoch (plan : Plan cmdList start entries) (early : now < 0) :
    entries.filterMap (remaining now) = entries.filterMap (remaining start) := by
  apply List.filterMap_congr
  intro e mem
  unfold remaining
  congr 1
  apply first_congr
  intro k bound
  have inside := mem_expanded (x := (occurrence e k, e)).mpr ⟨mem, k, bound, rfl⟩
  have low := occurrence_nonneg plan inside
  have later := plan.later _ inside
  simp only [decide_eq_decide] at *
  omega

theorem remaining_after_wrap (plan : Plan cmdList start entries) (late : 2147483647 ≤ now) :
    entries.filterMap (remaining now) = [] := by
  rw [List.filterMap_eq_nil_iff]
  intro e mem
  by_contra some
  obtain ⟨next, left⟩ := Option.ne_none_iff_exists'.mp some
  obtain ⟨k, bound, later, -⟩ := remaining_cases left
  have top := plan.below (occurrence e k, e) (mem_expanded.mpr ⟨mem, k, bound, rfl⟩)
  simp only at top
  omega

/-- The condition on the clock: no second of the run is cast to `ST_FP_NULL`,
    except second -1 with every slot taken. -/
def ClockSafe (start : Int) (n : Nat) (entries : List PlanEntry) : Prop :=
  ∀ second, start < second → second ≤ start + n → Int32.ofInt second = stFpNull →
    second = -1 ∧ entries.length = schFpMaxEntries

theorem run_exact (plan : Plan cmdList start entries) (clock : -2147483648 ≤ start)
    (stocked : Stocked c s db status)
    (table : liveEntries s = Multiset.ofList (entries.map (row c))) (n : Nat)
    (safe : ClockSafe start n entries) :
    ∃ sent s' db' status', runSeconds (ramStorage c) c cmdList start s n = some (sent, s') ∧
      Stocked c s' db' status' ∧ Executed cmdList entries (start + n) sent ∧
      Pending c entries (start + n) s' := by
  induction n with
  | zero =>
    refine ⟨[], s, db, status, rfl, stocked, ⟨[], ?_, List.Pairwise.nil, rfl⟩, ?_⟩
    · have none : (expanded entries).filter (fun x => decide (x.1 ≤ start + (0 : Nat))) = [] := by
        rw [List.filter_eq_nil_iff]
        intro x mem
        have := plan.later x mem
        simp only [decide_eq_true_eq]
        omega
      rw [none]
    · have here : start + ((0 : Nat) : Int) = start := by omega
      rw [Pending, here, remaining_start plan]
      exact table
  | succ n ih =>
    obtain ⟨sent, s', db', status', run, stocked', executed, pending⟩ :=
      ih fun second after upto => safe second after (by push_cast; omega)
    have clock' : start ≤ start + n := by omega
    have last : start + ((n + 1 : Nat) : Int) = start + n + 1 := by push_cast; omega
    rw [last]
    by_cases due : ∃ x ∈ expanded entries, x.1 = start + n + 1
    · obtain ⟨x, mem, time⟩ := due
      obtain ⟨he, k, bound, eq⟩ := mem_expanded.mp mem
      have real : Int32.ofInt (start + n + 1) ≠ stFpNull := by
        intro null
        have top := plan.below x mem
        have low := occurrence_nonneg plan mem
        rcases null_seconds (by omega) null with h | h <;> omega
      obtain ⟨s'', db'', status'', body, stocked'', pending'⟩ :=
        second_due plan clock clock' stocked' pending real he bound (eq ▸ time)
      obtain ⟨cmd, built⟩ := Option.isSome_iff_exists.mp
        (commandOf_isSome (plan.registered x.2 he) x.2.args)
      refine ⟨sent ++ [cmd], s'', db'', status'', ?_, stocked'',
        executed_due executed plan.distinct mem time built, pending'⟩
      simp [runSeconds, run, body, built]
    · have quiet : ∀ x ∈ expanded entries, x.1 ≠ start + n + 1 := by
        intro x mem time
        exact due ⟨x, mem, time⟩
      have idle : taskFlightPlanBody (ramStorage c) c cmdList (start + n + 1) s' =
          some (none, s') := by
        by_cases null : Int32.ofInt (start + n + 1) = stFpNull
        · obtain ⟨minus, full⟩ := safe (start + n + 1) (by omega) (by push_cast; omega) null
          -- at second -1 no entry has been executed yet
          rw [second_null stocked' null, pending_card pending,
            remaining_before_epoch plan (by omega), remaining_start plan, full]
          simp
        · exact second_quiet plan clock clock' stocked' pending null quiet
      refine ⟨sent, s', db', status', ?_, stocked', executed_quiet executed quiet,
        pending_quiet pending quiet⟩
      simp [runSeconds, run, idle]

def ScheduleExact (c : Config) (cmdList : Nat → CmdList F) (start : Int)
    (entries : List PlanEntry) (s : RamStore) (n : Nat) : Prop :=
  ∃ sent s', runSeconds (ramStorage c) c cmdList start s n = some (sent, s') ∧
    Executed cmdList entries (start + n) sent ∧ Pending c entries (start + n) s'

/-- A run that is defined has a safe clock: at the first unsafe second the
    lookup would copy the `NULL` command of a free slot. -/
theorem clockSafe_of_run (plan : Plan cmdList start entries) (clock : -2147483648 ≤ start)
    (stocked : Stocked c s db status)
    (table : liveEntries s = Multiset.ofList (entries.map (row c))) (n : Nat)
    (run : (runSeconds (ramStorage c) c cmdList start s n).isSome) :
    ClockSafe start n entries := by
  induction n with
  | zero =>
    intro second after upto
    simp only [Int.natCast_zero] at upto
    omega
  | succ n ih =>
    have before : (runSeconds (ramStorage c) c cmdList start s n).isSome := by
      by_contra stuck
      simp only [Option.not_isSome_iff_eq_none] at stuck
      simp [runSeconds, stuck] at run
    have safe := ih before
    obtain ⟨sent, s', db', status', reached, stocked', -, pending⟩ :=
      run_exact plan clock stocked table n safe
    intro second after upto null
    push_cast at upto
    by_cases earlier : second ≤ start + n
    · exact safe second after earlier null
    · have last : second = start + n + 1 := by omega
      subst last
      -- the body is defined at this second, so every slot is taken
      have taken : ¬ (liveEntries s').card < schFpMaxEntries := by
        intro room
        simp [runSeconds, reached, second_null stocked' null, room] at run
      have upper := live_card_le stocked
      rw [table, Multiset.coe_card, List.length_map] at upper
      have few := List.length_filterMap_le (remaining (start + n)) entries
      rw [pending_card pending] at taken
      have full : entries.length = schFpMaxEntries := by omega
      refine ⟨?_, full⟩
      rcases null_seconds (by omega) null with minus | wrapped
      · exact minus
      · simp [remaining_after_wrap plan (show 2147483647 ≤ start + (n : Int) by omega),
          schFpMaxEntries] at taken

/-- The task executes the schedule exactly as long as the clock, cast to `int`,
    keeps clear of `ST_FP_NULL`. The clock is set through an `int`. -/
theorem schedule_exact_iff_clock_safe (plan : Plan cmdList start entries)
    (clock : -2147483648 ≤ start) (stocked : Stocked c s db status)
    (table : liveEntries s = Multiset.ofList (entries.map (row c))) (n : Nat) :
    ScheduleExact c cmdList start entries s n ↔ ClockSafe start n entries := by
  constructor
  · rintro ⟨sent, s', run, -, -⟩
    exact clockSafe_of_run plan clock stocked table n (by simp [run])
  · intro safe
    obtain ⟨sent, s', -, -, run, -, executed, pending⟩ :=
      run_exact plan clock stocked table n safe
    exact ⟨sent, s', run, executed, pending⟩

end Step

def pingList (i : Nat) : CmdList Unit :=
  ⟨0, noText, if i = 0 then pingText else noText, ()⟩

def pingThrice : PlanEntry := ⟨10, 3, 60, pingText, noText⟩

theorem pingThrice_plan {start : Int} (early : start < 10) : Plan pingList start [pingThrice] where
  distinct := by decide
  later := by
    intro x mem
    obtain ⟨here, k, -, eq⟩ := mem_expanded.mp mem
    rw [List.mem_singleton.mp here] at eq
    simp only [occurrence, pingThrice, Int32.reduceToInt] at eq
    omega
  below := by decide
  accepted := by decide
  registered := by
    intro e mem
    rw [List.mem_singleton.mp mem]
    exact ⟨0, by decide, rfl⟩
  fits := by decide

theorem pingThrice_stored :
    ∃ s₀ s db status, datRepoInit simpleConfig 1 = some s₀ ∧
      datSetFp (ramStorage simpleConfig) simpleConfig s₀ 10 (some pingText) (some noText) 3 60 =
        some (schStOk, s) ∧
      Stocked simpleConfig s db status ∧
      liveEntries s = Multiset.ofList ([pingThrice].map (row simpleConfig)) := by
  obtain ⟨s₀, boot, fresh⟩ := datRepoInit_fresh simpleConfig 1
  obtain ⟨⟨db, status, stocked, -⟩, empty⟩ := fresh.kept
  obtain ⟨rc, s, db', status', run, stocked', puts, -, -⟩ :=
    datSetFp_spec stocked (show (0 : Int32) ≤ 10 by decide) pingText noText 3 60
  have ok : rc = schStOk := puts.1.mpr (by simp [empty, schFpMaxEntries])
  subst ok
  refine ⟨s₀, s, db', status', boot, run, stocked', ?_⟩
  rw [puts.2.1 rfl, empty]
  rfl

theorem schedule_exact_of_ping :
    ∃ s₀ s, datRepoInit simpleConfig 1 = some s₀ ∧
      datSetFp (ramStorage simpleConfig) simpleConfig s₀ 10 (some pingText) (some noText) 3 60 =
        some (schStOk, s) ∧
      ScheduleExact simpleConfig pingList 5 [pingThrice] s 100 := by
  obtain ⟨s₀, s, db, status, boot, set, stocked, live⟩ := pingThrice_stored
  refine ⟨s₀, s, boot, set, ?_⟩
  refine (schedule_exact_iff_clock_safe (pingThrice_plan (by omega)) (by omega) stocked live
    100).mpr ?_
  intro second after upto null
  rcases null_seconds (by omega) null with minus | wrapped <;> omega

theorem schedule_stops_before_epoch :
    ∃ s₀ s, datRepoInit simpleConfig 1 = some s₀ ∧
      datSetFp (ramStorage simpleConfig) simpleConfig s₀ 10 (some pingText) (some noText) 3 60 =
        some (schStOk, s) ∧
      Plan pingList (-2) [pingThrice] ∧
      liveEntries s = Multiset.ofList ([pingThrice].map (row simpleConfig)) ∧
      ¬ ScheduleExact simpleConfig pingList (-2) [pingThrice] s 1 := by
  obtain ⟨s₀, s, db, status, boot, set, stocked, live⟩ := pingThrice_stored
  have plan := pingThrice_plan (show (-2 : Int) < 10 by omega)
  refine ⟨s₀, s, boot, set, plan, live, ?_⟩
  rintro ⟨sent, s', run, -, -⟩
  have safe := clockSafe_of_run plan (by omega) stocked live 1 (by simp [run])
  have full := (safe (-1) (by omega) (by omega) (by decide)).2
  simp [schFpMaxEntries] at full

end FlightPlanTask
