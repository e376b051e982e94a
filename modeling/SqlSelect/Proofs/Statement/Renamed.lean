import Mathlib
import SqlSelect.Proofs.Numbered.Statement
/-!
Statements compiled with the aliases of a map. Every occurrence takes the next alias of its table, in
the order in which occurrences are visited, and keeps the table's name when there is none.
-/

namespace SqlSelect

namespace Statement

theorem compile_off (s : Statement) (template? : Option String) :
    s.compile ⟨some false, template?⟩ = s.finish (s.render .off) := rfl

theorem sql_render_off (s : Statement) : (s.render .off).sql = s.sqlAt fun _ => none := by
  rw [render_eq, Renaming.nameAt_off]

theorem finish_render_empty (s : Statement) :
    s.finish (s.render (.queued .empty)) = s.finish (s.render .off) := by
  have unnamed : RenameMap.empty.aliasAt s.visits = fun _ => none := by
    funext i
    cases h : s.visits[i]? <;> simp [RenameMap.aliasAt, h]
  simp [finish, render_eq, Renaming.nameAt_queued, Renaming.nameAt_off, unnamed]

/-- The `j`-th occurrence of a table gets the `j`-th alias queued for it, all other text is the text
without renaming, and the queues lose what was taken. -/
theorem compileRenamed_first_in_first_out (s : Statement) (m : RenameMap) (template? : Option String) :
    (s.compileRenamed m).sql = s.sqlAt (m.aliasAt s.visits) ∧
      (s.compile ⟨some false, template?⟩).sql = s.sqlAt (fun _ => none) ∧
      (∃ left, (s.render (.queued m)).after = .queued left ∧
        ∀ table, left.queue table = (m.queue table).drop
          (min (m.queue table).length (RenameMap.lookupsOf table s.visits))) ∧
      s.compileRenamed .empty = s.compile ⟨some false, template?⟩ := by
  refine ⟨?_, ?_, ⟨m.after s.visits, ?_, ?_⟩, ?_⟩
  · simp only [compileRenamed, finish, render_eq, Renaming.nameAt_queued]
  · rw [compile_off]
    exact s.sql_render_off
  · rw [render_eq, Renaming.after_queued]
  · intro table
    rw [RenameMap.queue_after]
    rcases Nat.le_total (m.queue table).length (RenameMap.lookupsOf table s.visits) with h | h
    · rw [Nat.min_eq_left h, List.drop_length, List.drop_of_length_le h]
    · rw [Nat.min_eq_right h]
  · rw [compileRenamed, compile_off]
    exact s.finish_render_empty

/-- A reader, the reader's guarantor and a loan: `reader` has four occurrences under its own name. -/
def loans : Statement :=
  let reader : Table := ⟨"reader", none, ["reader", "loan"]⟩
  let guarantor := reader.aliased "guarantor"
  let loan : Table := ⟨"loan", none, []⟩
  let column (t : Table) (name : String) : Column := .field ⟨t, none, .text, false⟩ name
  ⟨false, .columns (column reader "name") [column guarantor "name"], reader,
    [⟨.inner, guarantor,
        some (.condition (.eqExpr (.column (column reader "backer")) (.column (column guarantor "id"))))⟩,
      ⟨.left, loan, some (.columns [column loan "number"])⟩],
    some (.isNull (.column (column reader "left")) false), none, [], none⟩

/-- Of three aliases the declaration takes the first, `ON` the second and the projection the third, so that none is
left for `WHERE`. -/
theorem compileRenamed_loans :
    let m := (RenameMap.empty.pushAll "reader" ["r", "s", "t"]).pushAll "loan" ["l", "k"]
    (loans.compileRenamed m).sql =
        "SELECT t.name,guarantor.name FROM reader AS r INNER JOIN reader AS guarantor " ++
          "ON s.backer = guarantor.id LEFT JOIN loan AS l USING (number) WHERE reader.left IS NULL" ∧
      (loans.compileRenamed .empty).sql =
        "SELECT reader.name,guarantor.name FROM reader INNER JOIN reader AS guarantor " ++
          "ON reader.backer = guarantor.id LEFT JOIN loan USING (number) WHERE reader.left IS NULL" ∧
      ∃ left, (loans.render (.queued m)).after = .queued left ∧
        left.queue "reader" = [] ∧ left.queue "loan" = ["k"] := by
  intro m
  obtain ⟨renamed, plain, ⟨left, after, queues⟩, unnamed⟩ := compileRenamed_first_in_first_out loans m none
  refine ⟨renamed.trans (by cbv), ?_, left, after, ?_, ?_⟩
  · rw [unnamed]
    exact plain.trans (by cbv)
  · exact (queues "reader").trans (by decide)
  · exact (queues "loan").trans (by decide)

end Statement

end SqlSelect
