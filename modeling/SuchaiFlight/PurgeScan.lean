import SuchaiFlight.RepoData
import Mathlib.Data.List.Count

/-!
The loop of `dat_purge_fp` over any storage. It looks at `fp_i.unixtime` also
when the read of a slot fails, and then finds what the last successful read has
left there.
-/
namespace PurgeScan
open StorageApi RepoData

variable {σ : Type} {S : Storage σ} {timeMin : Int32} {read : Nat → Option Int32}
  {after : List Nat → σ} {unixtime : Int32} {i : Nat}

/-- Slot `i` gives an entry of time `read i`, or refuses where that is `none`.
    `after cleared` is the store after the deletion of these slots, the last one
    first; the slots behind them are still as they were. -/
structure Scannable (S : Storage σ) (read : Nat → Option Int32) (after : List Nat → σ) : Prop where
  gives : ∀ i < schFpMaxEntries, ∀ t, read i = some t → ∀ cleared, (∀ j ∈ cleared, j < i) →
    ∃ e, S.storageFlightPlanGetIdx (after cleared) (Int32.ofNat i) = some (.ok e) ∧ e.unixtime = t
  refuses : ∀ i < schFpMaxEntries, read i = none → ∀ cleared, (∀ j ∈ cleared, j < i) →
    ∃ rc, S.storageFlightPlanGetIdx (after cleared) (Int32.ofNat i) = some (.error rc)
  deletes : ∀ i < schFpMaxEntries, ∀ cleared,
    ∃ rc, S.storageFlightPlanDeleteRowIdx (after cleared) (Int32.ofNat i) =
      some (rc, after (i :: cleared))

/-- `fp_i.unixtime` is `ST_FP_NULL` when the loop comes to slot `i`: nothing was
    read, or the last slot that was read gave that time. -/
def LeftNull (read : Nat → Option Int32) (unixtime : Int32) (i : Nat) : Prop :=
  (unixtime = stFpNull ∧ ∀ j < i, read j = none) ∨
    ∃ j < i, read j = some stFpNull ∧ ∀ k < i, j < k → read k = none

def Kept (timeMin : Int32) (read : Nat → Option Int32) (unixtime : Int32) (i : Nat) : Prop :=
  match read i with
  | some t => timeMin < t ∨ t = stFpNull
  | none => LeftNull read unixtime i

def counted (timeMin : Int32) (read : Nat → Option Int32) (i : Nat) : Bool :=
  (read i).any (timeMin < ·)

theorem leftNull_zero : LeftNull read unixtime 0 ↔ unixtime = stFpNull := by
  simp [LeftNull]

theorem leftNull_succ_of_read (unixtime : Int32) {t : Int32} (given : read i = some t) :
    LeftNull read unixtime (i + 1) ↔ t = stFpNull := by
  constructor
  · intro left
    rcases left with ⟨-, nothing⟩ | ⟨j, before, null, last⟩
    · rw [nothing i (Nat.lt_succ_self i)] at given
      contradiction
    · rcases Nat.lt_succ_iff_lt_or_eq.mp before with earlier | rfl
      · rw [last i (Nat.lt_succ_self i) earlier] at given
        contradiction
      · exact Option.some.inj (given.symm.trans null)
  · intro null
    exact .inr ⟨i, Nat.lt_succ_self i, null ▸ given, fun k before later => by omega⟩

theorem leftNull_succ_of_none (refused : read i = none) :
    LeftNull read unixtime (i + 1) ↔ LeftNull read unixtime i := by
  refine or_congr (and_congr_right fun _ => ⟨?_, ?_⟩) ⟨?_, ?_⟩
  · intro nothing j before
    exact nothing j (Nat.lt_succ_of_lt before)
  · intro nothing j before
    rcases Nat.lt_succ_iff_lt_or_eq.mp before with earlier | rfl
    · exact nothing j earlier
    · exact refused
  · intro ⟨j, before, null, last⟩
    rcases Nat.lt_succ_iff_lt_or_eq.mp before with earlier | rfl
    · exact ⟨j, earlier, null, fun k below => last k (Nat.lt_succ_of_lt below)⟩
    · rw [refused] at null
      contradiction
  · intro ⟨j, before, null, last⟩
    refine ⟨j, Nat.lt_succ_of_lt before, null, fun k below later => ?_⟩
    rcases Nat.lt_succ_iff_lt_or_eq.mp below with earlier | rfl
    · exact last k earlier later
    · exact refused

theorem purge_step (timeMin : Int32) (scan : Scannable S read after) (inside : i < schFpMaxEntries)
    {cleared : List Nat} (before : ∀ j ∈ cleared, j < i) {last : Int32}
    (known : last = stFpNull ↔ LeftNull read unixtime i) (rest : List Nat) (n : Int32) :
    ∃ last' cleared', purgeEntries S timeMin (i :: rest) last n (after cleared) =
        purgeEntries S timeMin rest last' (if counted timeMin read i then n + 1 else n)
          (after cleared') ∧
      (cleared' = cleared ∧ Kept timeMin read unixtime i ∨
        cleared' = i :: cleared ∧ ¬ Kept timeMin read unixtime i) ∧
      (last' = stFpNull ↔ LeftNull read unixtime (i + 1)) := by
  obtain ⟨rc, delete⟩ := scan.deletes i inside cleared
  cases given : read i with
  | none =>
    obtain ⟨rc', refused⟩ := scan.refuses i inside given cleared before
    have quiet : counted timeMin read i = false := by simp [counted, given]
    have kept : Kept timeMin read unixtime i ↔ last = stFpNull := by simp [Kept, given, known]
    have next : last = stFpNull ↔ LeftNull read unixtime (i + 1) :=
      known.trans (leftNull_succ_of_none given).symm
    by_cases null : last = stFpNull
    · refine ⟨last, cleared, ?_, .inl ⟨rfl, kept.mpr null⟩, next⟩
      simp [purgeEntries, refused, null, quiet]
    · refine ⟨last, i :: cleared, ?_, .inr ⟨rfl, fun stays => null (kept.mp stays)⟩, next⟩
      simp [purgeEntries, refused, null, quiet, delete]
  | some t =>
    obtain ⟨e, taken, rfl⟩ := scan.gives i inside t given cleared before
    have kept : Kept timeMin read unixtime i ↔ timeMin < e.unixtime ∨ e.unixtime = stFpNull := by
      simp [Kept, given]
    have next := (leftNull_succ_of_read unixtime given).symm
    by_cases later : timeMin < e.unixtime
    · refine ⟨e.unixtime, cleared, ?_, .inl ⟨rfl, kept.mpr (.inl later)⟩, next⟩
      simp [purgeEntries, taken, later, counted, given]
    · by_cases null : e.unixtime = stFpNull
      · refine ⟨e.unixtime, cleared, ?_, .inl ⟨rfl, kept.mpr (.inr null)⟩, next⟩
        rw [null] at later
        simp [purgeEntries, taken, later, counted, given, null]
      · refine ⟨e.unixtime, i :: cleared, ?_, .inr ⟨rfl, ?_⟩, next⟩
        · simp [purgeEntries, taken, later, counted, given, null, delete]
        · rw [kept]
          exact not_or_intro later null

theorem purge_loop (timeMin : Int32) (scan : Scannable S read after) (m : Nat)
    (inside : i + m ≤ schFpMaxEntries) {cleared : List Nat} (before : ∀ j ∈ cleared, j < i) {last : Int32}
    (known : last = stFpNull ↔ LeftNull read unixtime i) (n : Nat) :
    ∃ cleared', purgeEntries S timeMin (List.range' i m) last (Int32.ofNat n) (after cleared) =
        some (Int32.ofNat (n + (List.range' i m).countP (counted timeMin read)), after cleared') ∧
      (∀ j < i, j ∈ cleared' ↔ j ∈ cleared) ∧
      ∀ j, i ≤ j → j < i + m → (j ∈ cleared' ↔ ¬ Kept timeMin read unixtime j) := by
  induction m generalizing i cleared last n with
  | zero => exact ⟨cleared, by simp [purgeEntries], fun _ _ => Iff.rfl, fun j low high => by omega⟩
  | succ m ih =>
    obtain ⟨last', next, step, decided, known'⟩ :=
      purge_step timeMin scan (show i < schFpMaxEntries by omega) before known (List.range' (i + 1) m)
        (Int32.ofNat n)
    have fresh : i ∉ cleared := fun mem => absurd (before i mem) (Nat.lt_irrefl i)
    have mem : ∀ j ≠ i, j ∈ next ↔ j ∈ cleared := by
      intro j other
      rcases decided with ⟨same, -⟩ | ⟨more, -⟩
      · rw [same]
      · simp [more, other]
    have here : i ∈ next ↔ ¬ Kept timeMin read unixtime i := by
      rcases decided with ⟨same, kept⟩ | ⟨more, gone⟩
      · simp [same, fresh, kept]
      · simp [more, gone]
    have before' : ∀ j ∈ next, j < i + 1 := by
      intro j taken
      by_cases eq : j = i
      · omega
      · exact Nat.lt_succ_of_lt (before j ((mem j eq).mp taken))
    have total : (if counted timeMin read i then Int32.ofNat n + 1 else Int32.ofNat n) =
        Int32.ofNat (n + if counted timeMin read i then 1 else 0) := by
      split
      · rw [Int32.ofNat_add]
        rfl
      · rfl
    obtain ⟨cleared', run, kept, rest⟩ := ih (by omega) before' known'
      (n + if counted timeMin read i then 1 else 0)
    refine ⟨cleared', ?_, ?_, ?_⟩
    · rw [List.range'_succ, step, total, run, List.countP_cons]
      congr 3
      omega
    · intro j earlier
      rw [kept j (by omega), mem j (by omega)]
    · intro j low high
      rcases Nat.eq_or_lt_of_le low with rfl | later
      · rw [kept i (Nat.lt_succ_self i)]
        exact here
      · exact rest j later (by omega)

/-- The whole purge: the slots that are deleted, and the number that is written
    to `dat_fpl_queue`. -/
theorem purgeEntries_eq (scan : Scannable S read after) (timeMin unixtime : Int32) :
    ∃ cleared, purgeEntries S timeMin (List.range schFpMaxEntries) unixtime 0 (after []) =
        some (Int32.ofNat ((List.range schFpMaxEntries).countP (counted timeMin read)),
          after cleared) ∧
      ∀ j < schFpMaxEntries, (j ∈ cleared ↔ ¬ Kept timeMin read unixtime j) := by
  obtain ⟨cleared, run, -, decided⟩ := purge_loop timeMin scan schFpMaxEntries
    (Nat.le_of_eq (Nat.zero_add _)) (show ∀ j ∈ ([] : List Nat), j < 0 by simp)
    leftNull_zero.symm 0
  rw [Nat.zero_add, ← List.range_eq_range'] at run
  exact ⟨cleared, run, fun j inside => decided j (Nat.zero_le j) (by omega)⟩

theorem purge_undefined
    (deletes : ∀ i < schFpMaxEntries, ∀ cleared,
      ∃ rc, S.storageFlightPlanDeleteRowIdx (after cleared) (Int32.ofNat i) =
        some (rc, after (i :: cleared)))
    (lost : ∀ cleared, (∀ j ∈ cleared, j < i) →
      S.storageFlightPlanGetIdx (after cleared) (Int32.ofNat i) = none)
    (m : Nat) {k : Nat} (low : k ≤ i) (high : i < k + m) (inside : k + m ≤ schFpMaxEntries)
    {cleared : List Nat} (before : ∀ j ∈ cleared, j < k) (last n : Int32) :
    purgeEntries S timeMin (List.range' k m) last n (after cleared) = none := by
  induction m generalizing k cleared last n with
  | zero => omega
  | succ m ih =>
    rw [List.range'_succ]
    rcases Nat.eq_or_lt_of_le low with rfl | below
    · simp [purgeEntries, lost cleared before]
    · obtain ⟨rc, delete⟩ := deletes k (by omega) cleared
      have grown : ∀ j ∈ k :: cleared, j < k + 1 := by
        intro j mem
        rcases List.mem_cons.mp mem with rfl | earlier
        · exact Nat.lt_succ_self j
        · exact Nat.lt_succ_of_lt (before j earlier)
      have kept : ∀ j ∈ cleared, j < k + 1 := fun j mem => Nat.lt_succ_of_lt (before j mem)
      have next {cleared' : List Nat} (before' : ∀ j ∈ cleared', j < k + 1) (last n : Int32) :=
        ih below (by omega) (by omega) before' last n
      cases found : S.storageFlightPlanGetIdx (after cleared) (Int32.ofNat k) with
      | none => simp [purgeEntries, found]
      | some result =>
        cases result with
        | error rc' =>
          by_cases null : last = stFpNull <;>
            simp [purgeEntries, found, null, delete, next kept, next grown]
        | ok e =>
          by_cases later : timeMin < e.unixtime
          · simp [purgeEntries, found, later, next kept]
          · by_cases null : e.unixtime = stFpNull
            · rw [null] at later
              simp [purgeEntries, found, later, null, next kept]
            · simp [purgeEntries, found, later, null, delete, next grown]

end PurgeScan
