import SqlSelect.Proofs.Written
/-!
The ways to compile a statement. Each of them renders the statement once for its result, plainly or from
queues, and shows the pieces of every part of it under the renaming that comes to them.
-/

namespace SqlSelect

inductive Compilation where
  | under (settings : RenameSettings)
  | renamed (m : RenameMap)

namespace Statement

def compileBy (s : Statement) : Compilation → Compiled
  | .under settings => s.compile settings
  | .renamed m => s.compileRenamed m

theorem exists_render_eq_compileBy (s : Statement) (way : Compilation) :
    ∃ r, s.compileBy way = s.finish (s.render r) := by
  cases way with
  | renamed m => exact ⟨.queued m, rfl⟩
  | under settings =>
    simp only [compileBy, compile]
    split
    · split
      · exact ⟨.off, rfl⟩
      · exact ⟨.queued _, rfl⟩
    · exact ⟨.off, rfl⟩

/-! ## Parts of the text -/

open Rendering (under)

variable (s : Statement) (way : Compilation) {first part rest : List Piece}

theorem exists_under_eq_append {whole : List Piece} (split : whole = first ++ part ++ rest) (r : Renaming) :
    ∃ before own after, (under whole r).1 = before ++ (under part own).1 ++ after :=
  ⟨_, _, _, by rw [split, Rendering.under_append, Rendering.under_append]⟩

theorem exists_sql_eq :
    ∃ r projection behind, (s.compileBy way).sql =
      s.head ++ projection ++ (under s.sourcePieces r).1 ++ (under s.tailPieces behind).1 := by
  obtain ⟨r, whole⟩ := s.exists_render_eq_compileBy way
  exact ⟨r, _, _, by rw [whole]; rfl⟩

theorem exists_sql_eq_of_sourcePieces (split : s.sourcePieces = first ++ part ++ rest) :
    ∃ before r after, (s.compileBy way).sql = before ++ (under part r).1 ++ after := by
  obtain ⟨r, projection, behind, text⟩ := s.exists_sql_eq way
  obtain ⟨before, own, after, shown⟩ := exists_under_eq_append split r
  refine ⟨s.head ++ projection ++ before, own, after ++ (under s.tailPieces behind).1, ?_⟩
  rw [text, shown]
  simp only [String.append_assoc]

theorem exists_sql_eq_of_tailPieces (split : s.tailPieces = first ++ part ++ rest) :
    ∃ before r after, (s.compileBy way).sql = before ++ (under part r).1 ++ after := by
  obtain ⟨r, projection, behind, text⟩ := s.exists_sql_eq way
  obtain ⟨before, own, after, shown⟩ := exists_under_eq_append split behind
  refine ⟨s.head ++ projection ++ (under s.sourcePieces r).1 ++ before, own, after, ?_⟩
  rw [text, shown]
  simp only [String.append_assoc]

end Statement

end SqlSelect
