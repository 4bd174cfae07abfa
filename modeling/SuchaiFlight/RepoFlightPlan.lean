import SuchaiFlight.RepoData
import Mathlib.Tactic.Common

/-!
Histories of the flight plan calls of `repoData.c` over any back end, and what
each call makes of the calls of the storage behind it.
-/
namespace RepoFlightPlan
open CStrings StorageApi RepoData

inductive PlanCall where
  | set (timetodo : Int32) (command args : Option CString) (executions periodical : Int32)
  | get (elapsedSec : Int32)
  | del (timetodo : Int32)
  | reset
  | deleteMemorySections

section Calls
variable {σ : Type} (S : Storage σ) (c : Config)

def stepPlan (s : σ) : PlanCall → Option (Int32 × σ)
  | .set timetodo command args executions periodical =>
    datSetFp S c s timetodo command args executions periodical
  | .get elapsedSec => do
    match ← datGetFp S c s elapsedSec with
    | (.ok _, s) => return (schStOk, s)
    | (.error rc, s) => return (rc, s)
  | .del timetodo => datDelFp S c s timetodo
  | .reset => datResetFp S c s
  | .deleteMemorySections => datDeleteMemorySections S c s

inductive Reached (s₀ : σ) : List (PlanCall × Int32) → σ → Prop where
  | start : Reached s₀ [] s₀
  | call {history : List (PlanCall × Int32)} {s s' : σ} {call : PlanCall} {rc : Int32}
      (before : Reached s₀ history s) (run : stepPlan S c s call = some (rc, s')) :
      Reached s₀ ((call, rc) :: history) s'

def WasSet (history : List (PlanCall × Int32)) (t : Int32) : Prop :=
  ∃ command args executions periodical,
    (PlanCall.set t command args executions periodical, schStOk) ∈ history

variable {S c}

theorem datSetFp_cases {s s' : σ} {t : Int32} {command args : Option CString}
    {executions periodical rc : Int32}
    (run : datSetFp S c s t command args executions periodical = some (rc, s')) :
    ∃ s₁, S.storageFlightPlanSet s t command args executions periodical c.schCommNode =
        some (rc, s₁) ∧
      (s' = s₁ ∨ ∃ entries rc', datSetSystemVar S c s₁ c.datFplQueue entries = some (rc', s')) := by
  obtain ⟨entries, -, run⟩ := Option.bind_eq_some_iff.mp run
  obtain ⟨⟨rc₁, s₁⟩, set, run⟩ := Option.bind_eq_some_iff.mp run
  dsimp only at run
  split at run
  · obtain ⟨⟨rc₂, s₂⟩, write, eq⟩ := Option.bind_eq_some_iff.mp run
    cases eq
    exact ⟨s₁, set, .inr ⟨_, _, write⟩⟩
  · cases run
    exact ⟨_, set, .inl rfl⟩

theorem datDelFp_cases {s s' : σ} {t rc : Int32} (run : datDelFp S c s t = some (rc, s')) :
    ∃ s₁, S.storageFlightPlanDeleteRow s t = some (rc, s₁) ∧
      (s' = s₁ ∨ ∃ entries rc', datSetSystemVar S c s₁ c.datFplQueue entries = some (rc', s')) := by
  obtain ⟨entries, -, run⟩ := Option.bind_eq_some_iff.mp run
  obtain ⟨⟨rc₁, s₁⟩, delete, run⟩ := Option.bind_eq_some_iff.mp run
  dsimp only at run
  split at run
  · obtain ⟨⟨rc₂, s₂⟩, write, eq⟩ := Option.bind_eq_some_iff.mp run
    cases eq
    exact ⟨s₁, delete, .inr ⟨_, _, write⟩⟩
  · cases run
    exact ⟨_, delete, .inl rfl⟩

theorem fetchAndDelete_cases {s s' : σ} {t : Int32} {res : Except Int32 FpArgs}
    (run : fetchAndDelete S s t = some (res, s')) :
    s' = s ∨ ∃ rc, S.storageFlightPlanDeleteRow s t = some (rc, s') := by
  obtain ⟨got, -, run⟩ := Option.bind_eq_some_iff.mp run
  cases got with
  | error rc =>
    cases run
    exact .inl rfl
  | ok out =>
    obtain ⟨⟨rc₁, s₁⟩, delete, run⟩ := Option.bind_eq_some_iff.mp run
    dsimp only at run
    split at run <;>
    · cases run
      exact .inr ⟨_, delete⟩

theorem datGetFp_cases {s s' : σ} {t : Int32} {res : Except Int32 FpArgs}
    (run : datGetFp S c s t = some (res, s')) :
    ∃ s₁, (s₁ = s ∨ ∃ rc, S.storageFlightPlanDeleteRow s t = some (rc, s₁)) ∧
      (s' = s₁ ∨ ∃ entries rc', datSetSystemVar S c s₁ c.datFplQueue entries = some (rc', s')) := by
  obtain ⟨entries, -, run⟩ := Option.bind_eq_some_iff.mp run
  obtain ⟨⟨got, s₁⟩, fetch, run⟩ := Option.bind_eq_some_iff.mp run
  refine ⟨s₁, fetchAndDelete_cases fetch, ?_⟩
  cases got with
  | error rc =>
    cases run
    exact .inl rfl
  | ok out =>
    obtain ⟨⟨rc₂, s₂⟩, write, eq⟩ := Option.bind_eq_some_iff.mp run
    cases eq
    exact .inr ⟨_, _, write⟩

theorem datResetFp_cases {s s' : σ} {rc : Int32} (run : datResetFp S c s = some (rc, s')) :
    ∃ s₁, S.storageFlightPlanReset s = some (rc, s₁) ∧
      (s' = s₁ ∨ ∃ entries rc', datSetSystemVar S c s₁ c.datFplQueue entries = some (rc', s')) := by
  obtain ⟨⟨rc₁, s₁⟩, reset, run⟩ := Option.bind_eq_some_iff.mp run
  dsimp only at run
  split at run
  · obtain ⟨⟨rc₂, s₂⟩, write, eq⟩ := Option.bind_eq_some_iff.mp run
    cases eq
    exact ⟨s₁, reset, .inr ⟨_, _, write⟩⟩
  · cases run
    exact ⟨_, reset, .inl rfl⟩

theorem WasSet.later {history : List (PlanCall × Int32)} {t : Int32} (set : WasSet history t)
    (last : PlanCall × Int32) : WasSet (last :: history) t := by
  obtain ⟨command, args, executions, periodical, mem⟩ := set
  exact ⟨command, args, executions, periodical, List.mem_cons_of_mem _ mem⟩

theorem schStError_ne : schStError ≠ schStOk := by decide

end Calls

end RepoFlightPlan
