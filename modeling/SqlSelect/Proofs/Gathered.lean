import Mathlib.Data.List.Basic
import SqlSelect.Column.Projected
import SqlSelect.Column.Tuple
/-!
What is gathered from rendered pieces. Rendering puts only text between its parts, so when nothing is
gathered from text, a whole gives what its parts give, one after the other.
-/

namespace SqlSelect

variable {α : Type} {f : Piece → List α}

namespace Rendering

theorem gathered_separated (hf : ∀ s, f (.text s) = []) (separator : String)
    (renderings : List (List Piece)) :
    (separated separator renderings).flatMap f = renderings.flatMap fun ps => ps.flatMap f := by
  induction renderings with
  | nil => rfl
  | cons ps rest ih =>
    cases rest with
    | nil => simp [separated]
    | cons qs rest => simp [separated, hf, ih]

end Rendering

open Rendering

namespace Column

theorem listPieces_eq (separator : String) (cs : List Column) :
    listPieces separator cs = separated separator (cs.map pieces) := by
  induction cs with
  | nil => rfl
  | cons c rest ih =>
    cases rest with
    | nil => rfl
    | cons d rest => simp [listPieces, separated, ih]

theorem gathered_listPieces (hf : ∀ s, f (.text s) = []) (separator : String) (cs : List Column) :
    (listPieces separator cs).flatMap f = cs.flatMap fun c => c.pieces.flatMap f := by
  rw [listPieces_eq, gathered_separated hf, List.flatMap_map]

theorem gathered_aliasPieces (hf : ∀ s, f (.text s) = []) (alias? : Option String) :
    (aliasPieces alias?).flatMap f = [] := by
  cases alias? <;> simp [aliasPieces, hf]

theorem gathered_projectParts_of (hf : ∀ s, f (.text s) = []) {cs : List Column}
    (h : ∀ c ∈ cs, ∀ alias? s,
      (c.project alias? s).pieces.flatMap f = s.pieces.flatMap f ++ c.pieces.flatMap f)
    (alias? : Option String) (s : Projected) :
    (projectParts alias? cs s).pieces.flatMap f =
      s.pieces.flatMap f ++ cs.flatMap fun c => c.pieces.flatMap f := by
  induction cs generalizing s with
  | nil => simp [projectParts]
  | cons c rest ih =>
    have hc := h c List.mem_cons_self
    have hrest := ih fun d hd => h d (List.mem_cons_of_mem _ hd)
    cases rest with
    | nil => simp [projectParts, hc]
    | cons d rest => simp [projectParts, Projected.append, hc, hrest, hf]

/-- Projecting a column gives what the column gives; aliases and commas are text. -/
theorem gathered_project (hf : ∀ s, f (.text s) = []) (c : Column) (alias? : Option String)
    (s : Projected) :
    (c.project alias? s).pieces.flatMap f = s.pieces.flatMap f ++ c.pieces.flatMap f := by
  induction c using Column.induction generalizing alias? s with
  | composite info parts ih =>
    simp only [project, pieces, gathered_projectParts_of hf ih, gathered_listPieces hf]
  | _ => simp [project, Projected.entry, gathered_aliasPieces hf]

theorem gathered_projectParts (hf : ∀ s, f (.text s) = []) (alias? : Option String) (cs : List Column)
    (s : Projected) :
    (projectParts alias? cs s).pieces.flatMap f =
      s.pieces.flatMap f ++ cs.flatMap fun c => c.pieces.flatMap f :=
  gathered_projectParts_of hf (fun c _ => c.gathered_project hf) alias? s

end Column

end SqlSelect
