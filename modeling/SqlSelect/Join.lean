import SqlSelect.Expression
/-!
Joins: a table with an optional constraint, and the operator it is attached with. Columns in `USING`
stand under their bare names and are never renamed.
-/

namespace SqlSelect

inductive JoinOperator where
  | comma
  | left
  | leftOuter
  | inner
  | cross
  | natural
  | naturalLeft
  | naturalLeftOuter
  | naturalInner
  | naturalCross
deriving DecidableEq, Repr

namespace JoinOperator

def sql : JoinOperator → String
  | comma => ","
  | left => "LEFT JOIN"
  | leftOuter => "LEFT OUTER JOIN"
  | inner => "INNER JOIN"
  | cross => "CROSS JOIN"
  | natural => "NATURAL JOIN"
  | naturalLeft => "NATURAL LEFT JOIN"
  | naturalLeftOuter => "NATURAL LEFT OUTER JOIN"
  | naturalInner => "NATURAL INNER JOIN"
  | naturalCross => "NATURAL CROSS JOIN"

def spaced : JoinOperator → String
  | comma => ", "
  | operator => " " ++ operator.sql ++ " "

end JoinOperator

inductive JoinConstraint where
  | condition (e : Expression)
  | columns (cs : List Column)
deriving DecidableEq, Repr

/-- A table to be joined; it has no operator until it is attached. -/
structure JoinClause where
  table : Table
  constraint? : Option JoinConstraint
deriving DecidableEq, Repr

structure Join where
  operator : JoinOperator
  clause : JoinClause
deriving DecidableEq, Repr

namespace JoinConstraint

def pieces : JoinConstraint → List Piece
  | condition e => .text " ON " :: e.pieces
  | columns cs =>
    .text " USING (" :: Rendering.separated "," (cs.map Column.barePieces) ++ [.text ")"]

/-- Only a condition contributes arguments. -/
def arguments : JoinConstraint → List String
  | condition e => e.arguments
  | columns _ => []

/-- Only a condition contributes tables. -/
def observe : JoinConstraint → NameSet → NameSet
  | condition e, names => e.observe names
  | columns _, names => names

end JoinConstraint

namespace Join

def table (j : Join) : Table :=
  j.clause.table

def pieces (j : Join) : List Piece :=
  .text j.operator.spaced :: .source j.table :: (j.clause.constraint?.map JoinConstraint.pieces).getD []

def arguments (j : Join) : List String :=
  (j.clause.constraint?.map JoinConstraint.arguments).getD []

def observe (j : Join) (names : NameSet) : NameSet :=
  match j.clause.constraint? with
  | some c => c.observe (names.insert j.table.name)
  | none => names.insert j.table.name

end Join

end SqlSelect
