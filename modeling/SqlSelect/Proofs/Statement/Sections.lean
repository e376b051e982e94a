import SqlSelect.Proofs.Numbered.Pieces
import SqlSelect.Statement.Compile
/-!
The sections of a compiled statement. However tables are renamed, the text shows the pieces of the sections
one after the other, and each piece carries its arguments.
-/

namespace SqlSelect

namespace Rendering

/-- What a piece may be shown as: a placeholder is a question mark, and only a table that has a name and no alias of
its own is shown under others. -/
inductive ShownAs : Piece → String → Prop
  | text (s : String) : ShownAs (.text s) s
  | source (t : Table) (name? : Option String) : ShownAs (.source t) (t.sourceAs name?)
  | qualifier (t : Table) (name? : Option String) : ShownAs (.qualifier t) (t.qualifierAs name?)
  | placeholder (argument : String) : ShownAs (.placeholder argument) "?"
  | fragment (sql : String) (arguments : List String) : ShownAs (.fragment sql arguments) sql

/-- A text shows pieces if it is what they may be shown as, one after the other. -/
inductive Shows : List Piece → String → Prop
  | nil : Shows [] ""
  | cons {p : Piece} {own : String} (h : ShownAs p own) {rest : List Piece} {text : String}
      (later : Shows rest text) : Shows (p :: rest) (own ++ text)

theorem shownAs_plain {p : Piece} (h : p.occurrence? = none) : ShownAs p p.plain := by
  cases p with
  | text s => exact .text s
  | source t =>
    have fixed : ¬ t.isRenameable = true := by simpa [Piece.occurrence?] using h
    rw [Piece.plain_source fixed none]
    exact .source t none
  | qualifier t =>
    have fixed : ¬ t.isRenameable = true := by simpa [Piece.occurrence?] using h
    rw [Piece.plain_qualifier fixed none]
    exact .qualifier t none
  | placeholder argument => exact .placeholder argument
  | fragment sql arguments => exact .fragment sql arguments

theorem shownAs_textUnder {p : Piece} {o : Occurrence} (h : p.occurrence? = some o) (name? : Option String) :
    ShownAs p (p.textUnder name?) := by
  cases p with
  | source t =>
    have renameable : t.isRenameable = true := (Option.ite_none_right_eq_some.mp h).1
    rw [Piece.textUnder_source renameable]
    exact .source t name?
  | qualifier t =>
    have renameable : t.isRenameable = true := (Option.ite_none_right_eq_some.mp h).1
    rw [Piece.textUnder_qualifier renameable]
    exact .qualifier t name?
  | _ => exact nomatch h

theorem Shows.append {ps qs : List Piece} {a b : String} (h : Shows ps a) (k : Shows qs b) :
    Shows (ps ++ qs) (a ++ b) := by
  induction h with
  | nil => simpa using k
  | cons own _ ih =>
    rw [String.append_assoc]
    exact .cons own ih

theorem shows_text (s : String) : Shows [.text s] s := by
  simpa using Shows.cons (.text s) .nil

theorem shows_under (ps : List Piece) (r : Renaming) : Shows ps (under ps r).1 := by
  induction ps generalizing r with
  | nil => exact .nil
  | cons p rest ih =>
    cases h : p.occurrence? with
    | none =>
      simp only [under, h]
      exact .cons (shownAs_plain h) (ih r)
    | some o =>
      simp only [under, h]
      exact .cons (shownAs_textUnder h _) (ih (r.ask o).2)

end Rendering

open Rendering

inductive Section where
  | opening
  | projection
  | sources
  | condition
  | shared
  | filter
  | grouping
  | having
  | ordering
  | paging
deriving DecidableEq, Repr

/-- Whether the arguments carried in a section are arguments of the statement. -/
def Section.collects : Section → Bool
  | shared | grouping | ordering => false
  | _ => true

abbrev Sections := List (Section × List Piece)

namespace Sections

def pieces (sections : Sections) : List Piece :=
  sections.flatMap Prod.snd

def carried (sections : Sections) : List String :=
  sections.flatMap fun x => Rendering.arguments x.2

/-- The arguments carried outside `GROUP BY`, `ORDER BY` and `USING`. -/
def collected (sections : Sections) : List String :=
  carried (sections.filter fun x => x.1.collects)

def omitted (sections : Sections) : List String :=
  carried (sections.filter fun x => !x.1.collects)

@[simp] theorem collected_nil : collected [] = [] := rfl

@[simp] theorem omitted_nil : omitted [] = [] := rfl

end Sections

/-! ## The sections of a statement -/

def JoinConstraint.section : JoinConstraint → Section
  | condition _ => .condition
  | columns _ => .shared

def Join.sections (j : Join) : Sections :=
  (.sources, [.text j.operator.spaced, .source j.table]) ::
    (j.clause.constraint?.map fun k => (k.section, k.pieces)).toList

def Grouping.sections (g : Grouping) : Sections :=
  (.grouping, .text " GROUP BY " :: Column.listPieces "," g.columns) ::
    (g.having?.map fun e => (.having, .text " HAVING " :: e.pieces)).toList

namespace Statement

def tailSections (s : Statement) : Sections :=
  (s.condition?.map fun e => (.filter, .text " WHERE " :: e.pieces)).toList ++
    (s.grouping?.map Grouping.sections).getD [] ++ [(.ordering, orderingPieces s.ordering)] ++
    (s.paging?.map fun p => (.paging, pagingPieces p)).toList

def sections (s : Statement) : Sections :=
  (.opening, [.text s.head]) :: (.projection, s.projection.projected.pieces) ::
    (.sources, [.text " FROM ", .source s.table]) :: s.joins.flatMap Join.sections ++ s.tailSections

theorem pieces_joinSections (js : List Join) :
    Sections.pieces (js.flatMap Join.sections) = js.flatMap Join.pieces := by
  induction js with
  | nil => rfl
  | cons j rest ih =>
    simp only [Sections.pieces] at ih
    cases h : j.clause.constraint? <;> simp [Sections.pieces, Join.sections, Join.pieces, h, ih]

theorem pieces_tailSections (s : Statement) : s.tailSections.pieces = s.tailPieces := by
  cases hc : s.condition? <;> cases hg : s.grouping? with
  | none => cases hp : s.paging? <;> simp [Sections.pieces, tailSections, tailPieces, hc, hg, hp]
  | some g =>
    cases hh : g.having? <;> cases hp : s.paging? <;>
      simp [Sections.pieces, tailSections, tailPieces, Grouping.sections, groupingPieces, hc, hg, hh, hp]

theorem pieces_sections (s : Statement) :
    s.sections.pieces = .text s.head :: s.projection.projected.pieces ++ s.sourcePieces ++ s.tailPieces := by
  have joins := pieces_joinSections s.joins
  have tail := s.pieces_tailSections
  simp only [Sections.pieces] at joins tail ⊢
  simp [sections, sourcePieces, joins, tail]

theorem shows_render (s : Statement) (r : Renaming) : Shows s.sections.pieces (s.render r).sql := by
  rw [pieces_sections]
  have head := shows_text s.head
  exact ((head.append (shows_under _ _)).append (shows_under _ _)).append (shows_under _ _)

end Statement

end SqlSelect
