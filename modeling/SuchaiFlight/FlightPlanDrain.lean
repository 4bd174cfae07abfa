import SuchaiFlight.FlightPlanTask

/-!
The flight plan task on a table whose entries may share a second. The RAM back
end stores any number of entries of one time; the task takes one entry in each
second and looks for that time only in that second.
-/
namespace FlightPlanDrain
open CStrings StorageApi RepoData SlotTable RamStorage RamFlightPlan FlightPlanCalls RepoCommand
open FlightPlanTask

variable {F : Type} {c : Config} {cmdList : Nat → CmdList F} {s : RamStore}
  {db : Nat → FpEntry} {status : Nat → UInt32} {start now : Int} {entries : List PlanEntry}

structure Batch (cmdList : Nat → CmdList F) (start : Int) (entries : List PlanEntry) : Prop where
  single : ∀ e ∈ entries, ¬ Repeating e
  later : ∀ e ∈ entries, start < e.time.toInt
  accepted : ∀ e ∈ entries, 0 ≤ e.time
  registered : ∀ e ∈ entries, Registered cmdList e.command
  fits : ∀ e ∈ entries, strlen e.command < schCmdMaxStrName ∧ strlen e.args < schCmdMaxStrParams

theorem body_sends {s₁ : RamStore} {db₁ : Nat → FpEntry} {status₁ : Nat → UInt32} {e : PlanEntry}
    {out : FpArgs} (run : datGetFp (ramStorage c) c s (Int32.ofInt now) = some (.ok out, s₁))
    (stocked₁ : Stocked c s₁ db₁ status₁) (delivers : Delivers (some (row c e)) (.ok out))
    (single : ¬ Repeating e)
    (fits : strlen e.command < schCmdMaxStrName ∧ strlen e.args < schCmdMaxStrParams) :
    ∃ s' status', taskFlightPlanBody (ramStorage c) c cmdList now s =
        some (commandOf cmdList e.command e.args, s') ∧ Stocked c s' db₁ status' ∧
      liveEntries s' = liveEntries s₁ := by
  obtain ⟨command, args, executions, period, node⟩ := out
  simp only [Delivers, row, Option.some.injEq] at delivers
  obtain ⟨rfl, rfl, rfl, rfl, -⟩ := delivers
  obtain ⟨s', status', write, stocked', live⟩ := fplLast_write stocked₁ (Int32.ofInt now)
  have built := cmdAddParamsStr_cmdGetStr cmdList e.command e.args (by omega)
  have cond : ¬ (e.period > 0 ∧ e.executions > 1) := single
  refine ⟨s', status', ?_, stocked', live⟩
  simp [taskFlightPlanBody, run, fits, write, cond, built]

theorem body_takes_one (stocked : Stocked c s db status) (batch : Batch cmdList start entries)
    {kept : List PlanEntry} (among : ∀ e ∈ kept, e ∈ entries)
    (table : liveEntries s = Multiset.ofList (kept.map (row c)))
    (real : Int32.ofInt now ≠ stFpNull) (due : ∃ e ∈ kept, e.time = Int32.ofInt now) :
    ∃ pre e post s' db' status', kept = pre ++ e :: post ∧ e.time = Int32.ofInt now ∧
      taskFlightPlanBody (ramStorage c) c cmdList now s =
        some (commandOf cmdList e.command e.args, s') ∧ Stocked c s' db' status' ∧
      liveEntries s' = Multiset.ofList ((pre ++ post).map (row c)) := by
  obtain ⟨found, res, s₁, db₁, status₁, run, stocked₁, delivers, takes, -, -⟩ :=
    datGetFp_spec stocked real
  obtain ⟨x, rfl⟩ : ∃ x, found = some x := by
    obtain ⟨e, mem, time⟩ := due
    have inTable : row c e ∈ liveEntries s := by
      rw [table, Multiset.mem_coe]
      exact List.mem_map_of_mem mem
    have hit := (takes_isSome_iff takes).mpr ⟨row c e, inTable, time⟩
    exact Option.isSome_iff_exists.mp hit
  obtain ⟨time, split⟩ := takes
  have inTable : x ∈ liveEntries s := by
    rw [split]
    exact Multiset.mem_cons_self x _
  rw [table, Multiset.mem_coe, List.mem_map] at inTable
  obtain ⟨e, mem, rfl⟩ := inTable
  obtain ⟨pre, post, rfl⟩ := List.append_of_mem mem
  have left : liveEntries s₁ = Multiset.ofList ((pre ++ post).map (row c)) := by
    rw [table] at split
    have front : Multiset.ofList ((pre ++ e :: post).map (row c)) =
        row c e ::ₘ Multiset.ofList ((pre ++ post).map (row c)) := by
      rw [Multiset.cons_coe, Multiset.coe_eq_coe]
      simp
    rw [front] at split
    exact ((Multiset.cons_inj_right _).mp split).symm
  cases res with
  | error rc => exact absurd delivers (by simp [Delivers])
  | ok out =>
    obtain ⟨s', status', body, stocked', live⟩ := body_sends run stocked₁ delivers
      (batch.single e (among e mem)) (batch.fits e (among e mem))
    exact ⟨pre, e, post, s', db₁, status', rfl, time, body, stocked', live.trans left⟩

structure OnePerSecond (entries : List PlanEntry) (now : Int) (sent kept : List PlanEntry) :
    Prop where
  split : (sent ++ kept).Perm entries
  ordered : sent.Pairwise fun a b => a.time < b.time
  reached : ∀ e ∈ sent, e.time.toInt ≤ now
  served : ∀ e ∈ entries, e.time.toInt ≤ now → ∃ f ∈ sent, f.time = e.time

theorem onePerSecond_start (batch : Batch cmdList start entries) :
    OnePerSecond entries start [] entries where
  split := List.Perm.refl _
  ordered := List.Pairwise.nil
  reached := nofun
  served := by
    intro e mem due
    have later := batch.later e mem
    omega

theorem OnePerSecond.kept_mem {sent kept : List PlanEntry}
    (served : OnePerSecond entries now sent kept) {e : PlanEntry} (mem : e ∈ kept) :
    e ∈ entries := served.split.mem_iff.mp (List.mem_append_right _ mem)

theorem OnePerSecond.quiet {sent kept : List PlanEntry}
    (served : OnePerSecond entries now sent kept)
    (none : ∀ e ∈ entries, e.time.toInt ≠ now + 1) : OnePerSecond entries (now + 1) sent kept where
  split := served.split
  ordered := served.ordered
  reached := by
    intro e mem
    have before := served.reached e mem
    omega
  served := by
    intro e mem due
    have other := none e mem
    exact served.served e mem (by omega)

theorem OnePerSecond.take {sent pre post : List PlanEntry} {e : PlanEntry}
    (served : OnePerSecond entries now sent (pre ++ e :: post)) (due : e.time.toInt = now + 1) :
    OnePerSecond entries (now + 1) (sent ++ [e]) (pre ++ post) where
  split := by
    have moved : (e :: (pre ++ post)).Perm (pre ++ e :: post) := List.perm_middle.symm
    rw [List.append_assoc, List.singleton_append]
    exact (moved.append_left sent).trans served.split
  ordered := by
    rw [List.pairwise_append]
    refine ⟨served.ordered, List.pairwise_singleton _ _, ?_⟩
    intro a ha b hb
    have before := served.reached a ha
    rw [List.mem_singleton.mp hb, Int32.lt_iff_toInt_lt]
    omega
  reached := by
    intro f mem
    rcases List.mem_append.mp mem with old | new
    · have before := served.reached f old
      omega
    · rw [List.mem_singleton.mp new]
      omega
  served := by
    intro f mem reached
    by_cases old : f.time.toInt ≤ now
    · obtain ⟨g, hg, same⟩ := served.served f mem old
      exact ⟨g, List.mem_append_left _ hg, same⟩
    · refine ⟨e, List.mem_append_right _ List.mem_cons_self, ?_⟩
      rw [← Int32.toInt_inj]
      omega

theorem second_bound {n : Nat} (safe : ClockSafe start n entries)
    (batch : Batch cmdList start entries) {e : PlanEntry} (mem : e ∈ entries) :
    start + n < 4294967295 := by
  by_contra past
  have later := batch.later e mem
  have top := e.time.toInt_lt
  have minus := (safe 4294967295 (by omega) (by omega) (by decide)).1
  omega

theorem cast_eq_iff {e : PlanEntry} (low : -2147483648 ≤ now) (top : now < 4294967295)
    (accepted : 0 ≤ e.time) : e.time = Int32.ofInt now ↔ e.time.toInt = now := by
  have zero : (0 : Int) ≤ e.time.toInt := by simpa using Int32.le_iff_toInt_le.mp accepted
  have upper := e.time.toInt_lt
  rw [← Int32.toInt_inj, Int32.toInt_ofInt, Int.bmod_def]
  simp only [Int32.size]
  omega

theorem OnePerSecond.kept_length {sent kept : List PlanEntry}
    (served : OnePerSecond entries now sent kept) (batch : Batch cmdList start entries)
    (before : now < 0) : kept.length = entries.length := by
  have unsent : sent = [] := by
    rw [List.eq_nil_iff_forall_not_mem]
    intro e mem
    have reached := served.reached e mem
    have inside := served.split.mem_iff.mp (List.mem_append_left _ mem)
    have zero := Int32.le_iff_toInt_le.mp (batch.accepted e inside)
    simp only [Int32.reduceToInt] at zero
    omega
  have length := served.split.length_eq
  rw [unsent, List.nil_append] at length
  exact length

theorem body_waits (stocked : Stocked c s db status) (batch : Batch cmdList start entries)
    {sent kept : List PlanEntry} (served : OnePerSecond entries now sent kept)
    (table : liveEntries s = Multiset.ofList (kept.map (row c)))
    (safe : Int32.ofInt (now + 1) = stFpNull →
      now + 1 = -1 ∧ entries.length = schFpMaxEntries)
    (none : ∀ e ∈ entries, e.time ≠ Int32.ofInt (now + 1)) :
    taskFlightPlanBody (ramStorage c) c cmdList (now + 1) s = some (Option.none, s) := by
  by_cases null : Int32.ofInt (now + 1) = stFpNull
  · obtain ⟨minus, full⟩ := safe null
    have length := served.kept_length batch (by omega)
    rw [second_null stocked null, table, Multiset.coe_card, List.length_map, length, full]
    simp
  · apply body_idle stocked null
    intro x mem hit
    rw [table, Multiset.mem_coe, List.mem_map] at mem
    obtain ⟨e, left, rfl⟩ := mem
    exact none e (served.kept_mem left) hit

theorem run_one_per_second (batch : Batch cmdList start entries) (clock : -2147483648 ≤ start)
    (stocked : Stocked c s db status)
    (table : liveEntries s = Multiset.ofList (entries.map (row c))) (n : Nat)
    (safe : ClockSafe start n entries) :
    ∃ sent kept cmds s' db' status',
      runSeconds (ramStorage c) c cmdList start s n = some (cmds, s') ∧
      Stocked c s' db' status' ∧ OnePerSecond entries (start + n) sent kept ∧
      cmds.map some = sent.map (fun e => commandOf cmdList e.command e.args) ∧
      liveEntries s' = Multiset.ofList (kept.map (row c)) := by
  induction n with
  | zero =>
    have here : start + ((0 : Nat) : Int) = start := by omega
    rw [here]
    exact ⟨[], entries, [], s, db, status, rfl, stocked, onePerSecond_start batch, rfl, table⟩
  | succ n ih =>
    obtain ⟨sent, kept, cmds, s', db', status', run, stocked', served, built, live⟩ :=
      ih fun second after upto => safe second after (by push_cast; omega)
    have last : start + ((n + 1 : Nat) : Int) = start + n + 1 := by push_cast; omega
    have low : -2147483648 ≤ start + n + 1 := by omega
    have cast : ∀ e ∈ entries,
        (e.time = Int32.ofInt (start + n + 1) ↔ e.time.toInt = start + n + 1) := by
      intro e mem
      have top := second_bound safe batch mem
      exact cast_eq_iff low (by omega) (batch.accepted e mem)
    rw [last]
    by_cases due : ∃ e ∈ kept, e.time.toInt = start + n + 1
    · obtain ⟨e, mem, time⟩ := due
      have real : Int32.ofInt (start + n + 1) ≠ stFpNull := by
        rw [← (cast e (served.kept_mem mem)).mpr time]
        exact ne_stFpNull (batch.accepted e (served.kept_mem mem))
      obtain ⟨pre, f, post, s'', db'', status'', rfl, same, body, stocked'', left⟩ :=
        body_takes_one stocked' batch (fun e => served.kept_mem) live real
          ⟨e, mem, (cast e (served.kept_mem mem)).mpr time⟩
      have inside : f ∈ entries := served.kept_mem (by simp)
      obtain ⟨cmd, exists_cmd⟩ := Option.isSome_iff_exists.mp
        (commandOf_isSome (batch.registered f inside) f.args)
      refine ⟨sent ++ [f], pre ++ post, cmds ++ [cmd], s'', db'', status'', ?_, stocked'',
        served.take ((cast f inside).mp same), by simp [built, exists_cmd], left⟩
      simp [runSeconds, run, body, exists_cmd]
    · have none : ∀ e ∈ entries, e.time.toInt ≠ start + n + 1 := by
        intro e mem time
        rcases List.mem_append.mp (served.split.mem_iff.mpr mem) with old | left
        · have before := served.reached e old
          omega
        · exact due ⟨e, left, time⟩
      have idle : taskFlightPlanBody (ramStorage c) c cmdList (start + n + 1) s' =
          some (Option.none, s') := by
        apply body_waits stocked' batch served live
        · exact safe (start + n + 1) (by omega) (by push_cast; omega)
        · intro e mem hit
          exact none e mem ((cast e mem).mp hit)
      refine ⟨sent, kept, cmds, s', db', status', ?_, stocked', served.quiet none, built, live⟩
      simp [runSeconds, run, idle]

def Drained (c : Config) (cmdList : Nat → CmdList F) (start : Int) (entries : List PlanEntry)
    (s : RamStore) (n : Nat) : Prop :=
  ∃ (cmds : List (Cmd F)) (s' : RamStore) (due : List PlanEntry),
    runSeconds (ramStorage c) c cmdList start s n = some (cmds, s') ∧
    due.Perm (entries.filter fun e => e.time.toInt ≤ start + n) ∧
    cmds.map some = due.map (fun e => commandOf cmdList e.command e.args) ∧
    ∀ x ∈ liveEntries s', ¬ x.unixtime.toInt ≤ start + n

def TimesDistinct (entries : List PlanEntry) (now : Int) : Prop :=
  ((entries.filter fun e => e.time.toInt ≤ now).map PlanEntry.time).Nodup

theorem OnePerSecond.due_perm {sent kept : List PlanEntry}
    (served : OnePerSecond entries now sent kept) :
    (sent ++ kept.filter fun e => e.time.toInt ≤ now).Perm
      (entries.filter fun e => e.time.toInt ≤ now) := by
  have whole := served.split.filter fun e => decide (e.time.toInt ≤ now)
  have all : sent.filter (fun e => decide (e.time.toInt ≤ now)) = sent := by
    rw [List.filter_eq_self]
    intro e mem
    simpa using served.reached e mem
  rwa [List.filter_append, all] at whole

theorem OnePerSecond.sent_times {sent kept : List PlanEntry}
    (served : OnePerSecond entries now sent kept) : (sent.map PlanEntry.time).Nodup := by
  rw [List.nodup_iff_pairwise_ne, List.pairwise_map]
  apply served.ordered.imp
  intro a b before same
  rw [same] at before
  exact Int32.lt_irrefl before

theorem OnePerSecond.none_left_iff {sent kept : List PlanEntry}
    (served : OnePerSecond entries now sent kept) :
    (∀ e ∈ kept, ¬ e.time.toInt ≤ now) ↔ TimesDistinct entries now := by
  have times := served.due_perm.map PlanEntry.time
  constructor
  · intro none
    have empty : kept.filter (fun e => decide (e.time.toInt ≤ now)) = [] := by
      rw [List.filter_eq_nil_iff]
      intro e mem
      simpa using none e mem
    rw [empty, List.append_nil] at times
    exact times.nodup_iff.mp served.sent_times
  · intro distinct e mem due
    obtain ⟨f, sent, same⟩ := served.served e (served.kept_mem mem) due
    have nodup := times.nodup_iff.mpr distinct
    rw [List.map_append] at nodup
    apply List.disjoint_of_nodup_append nodup (List.mem_map_of_mem sent)
    rw [same]
    exact List.mem_map_of_mem (List.mem_filter.mpr ⟨mem, by simpa using due⟩)

theorem drained_iff (batch : Batch cmdList start entries) (clock : -2147483648 ≤ start)
    (stocked : Stocked c s db status)
    (table : liveEntries s = Multiset.ofList (entries.map (row c))) (n : Nat)
    (safe : ClockSafe start n entries) :
    Drained c cmdList start entries s n ↔ TimesDistinct entries (start + n) := by
  obtain ⟨sent, kept, cmds, s', -, -, run, -, served, built, live⟩ :=
    run_one_per_second batch clock stocked table n safe
  have rows : (∀ x ∈ liveEntries s', ¬ x.unixtime.toInt ≤ start + n) ↔
      ∀ e ∈ kept, ¬ e.time.toInt ≤ start + n := by
    rw [live]
    simp [row]
  rw [← served.none_left_iff, ← rows]
  constructor
  · rintro ⟨cmds', s'', due, run', -, -, none⟩
    rw [run] at run'
    cases run'
    exact none
  · intro none
    have perm := served.due_perm
    have empty : kept.filter (fun e => decide (e.time.toInt ≤ start + n)) = [] := by
      rw [List.filter_eq_nil_iff]
      intro e mem
      simpa using rows.mp none e mem
    rw [empty, List.append_nil] at perm
    exact ⟨cmds, s', sent, run, perm, built, none⟩

theorem one_entry_per_second (batch : Batch cmdList start entries) (clock : -2147483648 ≤ start)
    (stocked : Stocked c s db status)
    (table : liveEntries s = Multiset.ofList (entries.map (row c))) (n : Nat)
    (safe : ClockSafe start n entries) :
    (∃ sent kept cmds s', runSeconds (ramStorage c) c cmdList start s n = some (cmds, s') ∧
      OnePerSecond entries (start + n) sent kept ∧
      cmds.map some = sent.map (fun e => commandOf cmdList e.command e.args) ∧
      liveEntries s' = Multiset.ofList (kept.map (row c))) ∧
    (Drained c cmdList start entries s n ↔ TimesDistinct entries (start + n)) := by
  constructor
  · obtain ⟨sent, kept, cmds, s', -, -, run, -, served, built, live⟩ :=
      run_one_per_second batch clock stocked table n safe
    exact ⟨sent, kept, cmds, s', run, served, built, live⟩
  · exact drained_iff batch clock stocked table n safe

/-! Two commands for one second. -/

def pingOnce : PlanEntry := ⟨10, 1, 0, pingText, noText⟩

theorem pingOnce_batch : Batch pingList 5 [pingOnce, pingOnce] where
  single := by decide
  later := by decide
  accepted := by decide
  registered := by
    intro e mem
    have same : e = pingOnce := by simpa using mem
    rw [same]
    exact ⟨0, by decide, rfl⟩
  fits := by decide

theorem pingOnce_stored :
    ∃ s₀ s₁ s db status, datRepoInit simpleConfig 1 = some s₀ ∧
      datSetFp (ramStorage simpleConfig) simpleConfig s₀ 10 (some pingText) (some noText) 1 0 =
        some (schStOk, s₁) ∧
      datSetFp (ramStorage simpleConfig) simpleConfig s₁ 10 (some pingText) (some noText) 1 0 =
        some (schStOk, s) ∧
      Stocked simpleConfig s db status ∧
      liveEntries s = Multiset.ofList ([pingOnce, pingOnce].map (row simpleConfig)) := by
  obtain ⟨s₀, boot, fresh⟩ := datRepoInit_fresh simpleConfig 1
  obtain ⟨⟨db₀, status₀, stocked₀, -⟩, empty⟩ := fresh.kept
  obtain ⟨rc₁, s₁, db₁, status₁, run₁, stocked₁, puts₁, -, -⟩ :=
    datSetFp_spec stocked₀ (show (0 : Int32) ≤ 10 by decide) pingText noText 1 0
  obtain rfl : rc₁ = schStOk := puts₁.1.mpr (by simp [empty, schFpMaxEntries])
  have one := puts₁.2.1 rfl
  obtain ⟨rc₂, s₂, db₂, status₂, run₂, stocked₂, puts₂, -, -⟩ :=
    datSetFp_spec stocked₁ (show (0 : Int32) ≤ 10 by decide) pingText noText 1 0
  obtain rfl : rc₂ = schStOk := puts₂.1.mpr (by simp [one, empty, schFpMaxEntries])
  refine ⟨s₀, s₁, s₂, db₂, status₂, boot, run₁, run₂, stocked₂, ?_⟩
  rw [puts₂.2.1 rfl, one, empty]
  rfl

theorem pingOnce_clock (n : Nat) (short : n < 100) : ClockSafe 5 n [pingOnce, pingOnce] := by
  intro second after upto null
  rcases null_seconds (by omega) null with minus | wrapped <;> omega

theorem pingOnce_one_per_second :
    ∃ s, liveEntries s = Multiset.ofList ([pingOnce, pingOnce].map (row simpleConfig)) ∧
      (Drained simpleConfig pingList 5 [pingOnce, pingOnce] s 10 ↔
        TimesDistinct [pingOnce, pingOnce] (5 + (10 : Nat))) := by
  obtain ⟨s₀, s₁, s, db, status, boot, set₁, set₂, stocked, live⟩ := pingOnce_stored
  refine ⟨s, live, ?_⟩
  exact (one_entry_per_second pingOnce_batch (by decide) stocked live 10
    (pingOnce_clock 10 (by decide))).2

theorem second_ping_not_drained :
    ∃ s₀ s₁ s, datRepoInit simpleConfig 1 = some s₀ ∧
      datSetFp (ramStorage simpleConfig) simpleConfig s₀ 10 (some pingText) (some noText) 1 0 =
        some (schStOk, s₁) ∧
      datSetFp (ramStorage simpleConfig) simpleConfig s₁ 10 (some pingText) (some noText) 1 0 =
        some (schStOk, s) ∧
      Batch pingList 5 [pingOnce, pingOnce] ∧
      liveEntries s = Multiset.ofList ([pingOnce, pingOnce].map (row simpleConfig)) ∧
      ¬ Drained simpleConfig pingList 5 [pingOnce, pingOnce] s 10 := by
  obtain ⟨s₀, s₁, s, db, status, boot, set₁, set₂, stocked, live⟩ := pingOnce_stored
  refine ⟨s₀, s₁, s, boot, set₁, set₂, pingOnce_batch, live, ?_⟩
  rw [drained_iff pingOnce_batch (by decide) stocked live 10 (pingOnce_clock 10 (by decide))]
  unfold TimesDistinct
  decide

end FlightPlanDrain
