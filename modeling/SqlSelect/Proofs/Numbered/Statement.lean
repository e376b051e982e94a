import SqlSelect.Proofs.Numbered.Condition
import SqlSelect.Statement.Compile
/-!
The text of a statement written out over its syntax, with a name for each occurrence of a table. The
occurrences are numbered in the order in which they are visited, sources first and then the projection,
which is not the order of the text.
-/

namespace SqlSelect

open Rendering

variable (names : Nat → Option String)

def optionalReferences (e? : Option Expression) : List Occurrence :=
  (e?.map Expression.references).getD []

def clauseAt (opening : String) (e? : Option Expression) (i : Nat) : String :=
  (e?.map fun e => opening ++ e.sqlAt names i).getD ""

namespace Projection

def references (p : Projection) : List Occurrence :=
  Column.listReferences p.toList

def sqlAt : Projection → Nat → String
  | all, _ => "*"
  | columns first rest, i => Column.entriesAt names none (first :: rest) i
  | single _ c, i => Column.entriesAt names none [c.column] i

end Projection

namespace Grouping

def references (g : Grouping) : List Occurrence :=
  Column.listReferences g.columns ++ optionalReferences g.having?

def sqlAt (g : Grouping) (i : Nat) : String :=
  " GROUP BY " ++ Column.listSqlAt names "," g.columns i ++
    clauseAt names " HAVING " g.having? (i + (Column.listReferences g.columns).length)

end Grouping

namespace OrderingTerm

def listReferences (terms : List OrderingTerm) : List Occurrence :=
  terms.flatMap fun t => t.column.references

def listSqlAt : List OrderingTerm → Nat → String
  | [], _ => ""
  | [t], i => t.column.sqlAt names i ++ directionText t.direction?
  | t :: rest, i =>
    t.column.sqlAt names i ++ directionText t.direction? ++ "," ++
      listSqlAt rest (i + t.column.references.length)

end OrderingTerm

namespace Statement

def sourceVisits (s : Statement) : List Occurrence :=
  s.table.visits .declaration ++ s.joins.flatMap Join.visits

def tailReferences (s : Statement) : List Occurrence :=
  optionalReferences s.condition? ++ (s.grouping?.map Grouping.references).getD [] ++
    OrderingTerm.listReferences s.ordering

/-- All occurrences in the order in which they are visited. -/
def visits (s : Statement) : List Occurrence :=
  s.sourceVisits ++ s.projection.references ++ s.tailReferences

def sourcesAt (s : Statement) : String :=
  " FROM " ++ s.table.sourceAs (names 0) ++
    Join.listSqlAt names s.joins (s.table.visits .declaration).length

def orderingAt : List OrderingTerm → Nat → String
  | [], _ => ""
  | terms, i => " ORDER BY " ++ OrderingTerm.listSqlAt names terms i

def pagingText (p : Paging) : String :=
  " LIMIT " ++ String.ofList (Numeral.ofNat p.limit) ++
    (p.offset?.map fun n => " OFFSET " ++ String.ofList (Numeral.ofNat n)).getD ""

def tailAt (s : Statement) (i : Nat) : String :=
  let grouping := i + (optionalReferences s.condition?).length
  let ordering := grouping + ((s.grouping?.map Grouping.references).getD []).length
  clauseAt names " WHERE " s.condition? i ++ (s.grouping?.map fun g => g.sqlAt names grouping).getD "" ++
    orderingAt names s.ordering ordering ++ (s.paging?.map pagingText).getD ""

def sqlAt (s : Statement) : String :=
  s.head ++ s.projection.sqlAt names s.sourceVisits.length ++ s.sourcesAt names ++
    s.tailAt names (s.sourceVisits.length + s.projection.references.length)

end Statement

/-! ## Agreement with the pieces -/

namespace Projection

theorem occurrences_pieces (p : Projection) : occurrences p.projected.pieces = p.references := by
  cases p with
  | all => rfl
  | columns first rest =>
    exact (Column.occurrences_projectParts none _ _).trans (List.nil_append _)
  | single t c => exact (Column.occurrences_projectParts none _ _).trans (List.nil_append _)

theorem numbered_pieces (p : Projection) (i : Nat) :
    numbered names p.projected.pieces i = p.sqlAt names i := by
  cases p with
  | all => rfl
  | columns first rest =>
    simp [projected, sqlAt, Column.compileAll, Projected.startingAt, Column.numbered_projectParts]
  | single t c =>
    simp [projected, sqlAt, Column.compileAll, Projected.startingAt, Column.numbered_projectParts]

end Projection

namespace OrderingTerm

theorem occurrences_pieces (t : OrderingTerm) : occurrences t.pieces = t.column.references := by
  simp [pieces, Column.occurrences_pieces]

theorem numbered_pieces (t : OrderingTerm) (i : Nat) :
    numbered names t.pieces i = t.column.sqlAt names i ++ directionText t.direction? := by
  simp [pieces, numbered_append, Column.numbered_pieces]

theorem occurrences_separated (terms : List OrderingTerm) :
    occurrences (separated "," (terms.map pieces)) = listReferences terms := by
  simp [Rendering.occurrences_separated, listReferences, List.flatMap_map, occurrences_pieces]

theorem numbered_separated (terms : List OrderingTerm) (i : Nat) :
    numbered names (separated "," (terms.map pieces)) i = listSqlAt names terms i := by
  induction terms generalizing i with
  | nil => rfl
  | cons t rest ih =>
    cases rest with
    | nil => simp [separated, listSqlAt, numbered_pieces]
    | cons u rest =>
      have step := ih (i + t.column.references.length)
      simp only [List.map_cons] at step ⊢
      simp [separated, listSqlAt, numbered_append, step, numbered_pieces, occurrences_pieces,
        String.append_assoc]

end OrderingTerm

namespace Statement

theorem occurrences_sourcePieces (s : Statement) : occurrences s.sourcePieces = s.sourceVisits := by
  simp [sourcePieces, sourceVisits, Join.occurrences_flatMap]

theorem numbered_sourcePieces (s : Statement) : numbered names s.sourcePieces 0 = s.sourcesAt names := by
  simp [sourcePieces, sourcesAt, Join.numbered_flatMap, String.append_assoc]

theorem occurrences_groupingPieces (g : Grouping) : occurrences (groupingPieces g) = g.references := by
  cases h : g.having? <;>
    simp [groupingPieces, Grouping.references, optionalReferences, h, Column.occurrences_listPieces,
      Expression.occurrences_pieces]

theorem numbered_groupingPieces (g : Grouping) (i : Nat) :
    numbered names (groupingPieces g) i = g.sqlAt names i := by
  cases h : g.having? <;>
    simp [groupingPieces, Grouping.sqlAt, clauseAt, h, numbered_append, Column.numbered_listPieces,
      Column.occurrences_listPieces, Expression.numbered_pieces, String.append_assoc]

theorem occurrences_orderingPieces (terms : List OrderingTerm) :
    occurrences (orderingPieces terms) = OrderingTerm.listReferences terms := by
  cases terms with
  | nil => rfl
  | cons t rest => simpa [orderingPieces] using OrderingTerm.occurrences_separated (t :: rest)

theorem numbered_orderingPieces (terms : List OrderingTerm) (i : Nat) :
    numbered names (orderingPieces terms) i = orderingAt names terms i := by
  cases terms with
  | nil => rfl
  | cons t rest => simpa [orderingPieces, orderingAt] using OrderingTerm.numbered_separated names (t :: rest) i

theorem numbered_pagingPieces (p : Paging) (i : Nat) :
    numbered names (pagingPieces p) i = pagingText p := by
  cases h : p.offset? <;> simp [pagingPieces, pagingText, h, String.append_assoc]

theorem occurrences_pagingPieces (p : Paging) : occurrences (pagingPieces p) = [] := by
  cases h : p.offset? <;> simp [pagingPieces, h]

theorem occurrences_tailPieces (s : Statement) : occurrences s.tailPieces = s.tailReferences := by
  cases hc : s.condition? <;> cases hg : s.grouping? <;> cases hp : s.paging? <;>
    simp [tailPieces, tailReferences, optionalReferences, hc, hg, hp, Expression.occurrences_pieces,
      occurrences_groupingPieces, occurrences_orderingPieces, occurrences_pagingPieces]

theorem numbered_tailPieces (s : Statement) (i : Nat) :
    numbered names s.tailPieces i = s.tailAt names i := by
  cases hc : s.condition? <;> cases hg : s.grouping? <;> cases hp : s.paging? <;>
    simp [tailPieces, tailAt, clauseAt, optionalReferences, hc, hg, hp, numbered_append,
      Expression.numbered_pieces, Expression.occurrences_pieces, numbered_groupingPieces,
      occurrences_groupingPieces, numbered_orderingPieces, numbered_pagingPieces, String.append_assoc]

/-- Rendering under a renaming makes the lookups of all occurrences in the order in which they are
visited, and writes the text with the answers as names. -/
theorem render_eq (s : Statement) (r : Renaming) :
    s.render r =
      ⟨s.sqlAt (r.nameAt s.visits), s.projection.projected.positions, r.after s.visits⟩ := by
  have sources := under_eq s.sourcePieces r [] (s.projection.references ++ s.tailReferences)
  have projection := under_eq s.projection.projected.pieces r s.sourceVisits s.tailReferences
  have tail := under_eq s.tailPieces r (s.sourceVisits ++ s.projection.references) []
  simp only [Renaming.after_nil, List.nil_append, List.length_nil, occurrences_sourcePieces,
    numbered_sourcePieces] at sources
  simp only [Projection.occurrences_pieces, Projection.numbered_pieces] at projection
  simp only [occurrences_tailPieces, numbered_tailPieces, List.append_nil, List.length_append] at tail
  simp only [render, assemble, Projection.compile, sources, projection, tail, sqlAt, visits,
    List.append_assoc]

end Statement

end SqlSelect
