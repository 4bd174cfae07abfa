import Mathlib.Data.List.Basic
import Mathlib.Tactic.Common

/-!
Texts of fields that a separator closes, and tables of such texts in lines. A
table is read back exactly when no field has one of the separators.
-/
namespace DelimitedText
variable {α : Type}

def join (sep : α) (pieces : List (List α)) : List α := pieces.flatMap (· ++ [sep])

def writeTable (comma newline : α) (rows : List (List (List α))) : List α :=
  join newline (rows.map (join comma))

variable {sep comma newline : α}

theorem not_mem_join {pieces : List (List α)} {a : α} (other : a ≠ sep)
    (clean : ∀ piece ∈ pieces, a ∉ piece) : a ∉ join sep pieces := by
  intro mem
  obtain ⟨piece, among, inside⟩ := List.mem_flatMap.mp mem
  rcases List.mem_append.mp inside with here | last
  · exact clean piece among here
  · exact other (List.mem_singleton.mp last)

variable [DecidableEq α]

def parts (sep : α) : List α → List α → List (List α)
  | _, [] => []
  | piece, a :: rest =>
    if a = sep then piece :: parts sep [] rest else parts sep (piece ++ [a]) rest

def readTable (comma newline : α) (text : List α) : List (List (List α)) :=
  (parts newline [] text).map (parts comma [])

theorem parts_piece {piece : List α} (clean : sep ∉ piece) (start rest : List α) :
    parts sep start (piece ++ sep :: rest) = (start ++ piece) :: parts sep [] rest := by
  induction piece generalizing start with
  | nil => simp [parts]
  | cons a piece ih =>
    have other : a ≠ sep := fun same => clean (same ▸ List.mem_cons_self)
    rw [List.cons_append, parts, if_neg other, ih fun mem => clean (List.mem_cons_of_mem a mem),
      List.append_assoc, List.singleton_append]

theorem mem_parts {start text piece : List α} (mem : piece ∈ parts sep start text)
    (clean : sep ∉ start) : sep ∉ piece ∧ ∀ a ∈ piece, a ∈ start ∨ a ∈ text := by
  induction text generalizing start with
  | nil => cases mem
  | cons b rest ih =>
    rw [parts] at mem
    split at mem
    · rcases List.mem_cons.mp mem with rfl | later
      · exact ⟨clean, fun a inside => .inl inside⟩
      · obtain ⟨apart, letters⟩ := ih later List.not_mem_nil
        exact ⟨apart, fun a inside => .inr (List.mem_cons_of_mem b
          ((letters a inside).resolve_left List.not_mem_nil))⟩
    · rename_i other
      obtain ⟨apart, letters⟩ := ih mem (by simpa [Ne.symm other] using clean)
      refine ⟨apart, fun a inside => ?_⟩
      rcases letters a inside with first | later
      · rcases List.mem_append.mp first with before | here
        · exact .inl before
        · exact .inr (List.mem_singleton.mp here ▸ List.mem_cons_self)
      · exact .inr (List.mem_cons_of_mem b later)

theorem parts_join {pieces : List (List α)} (clean : ∀ piece ∈ pieces, sep ∉ piece) :
    parts sep [] (join sep pieces) = pieces := by
  induction pieces with
  | nil => rfl
  | cons piece pieces ih =>
    rw [join, List.flatMap_cons, List.append_assoc, List.singleton_append,
      parts_piece (clean piece List.mem_cons_self), List.nil_append]
    exact congrArg (piece :: ·) (ih fun later mem => clean later (List.mem_cons_of_mem piece mem))

theorem readTable_writeTable_iff (apart : newline ≠ comma) {rows : List (List (List α))} :
    readTable comma newline (writeTable comma newline rows) = rows ↔
      ∀ row ∈ rows, ∀ field ∈ row, comma ∉ field ∧ newline ∉ field := by
  constructor
  · intro same row mem field inside
    rw [← same] at mem
    obtain ⟨line, among, rfl⟩ := List.mem_map.mp mem
    obtain ⟨clean, letters⟩ := mem_parts inside List.not_mem_nil
    have unbroken := (mem_parts among List.not_mem_nil).1
    exact ⟨clean, fun break_ => unbroken ((letters _ break_).resolve_left List.not_mem_nil)⟩
  · intro clean
    have lines : ∀ line ∈ rows.map (join comma), newline ∉ line := by
      intro line mem
      obtain ⟨row, among, rfl⟩ := List.mem_map.mp mem
      exact not_mem_join apart fun field inside => (clean row among field inside).2
    rw [readTable, writeTable, parts_join lines, List.map_map]
    refine (List.map_congr_left fun row mem => ?_).trans (List.map_id _)
    exact parts_join fun field inside => (clean row mem field inside).1

end DelimitedText
