import SqlSelect.Column.Basic
/-!
What a clause lists: columns, and for an ordering terms of a column and the direction written after it. Lists are
given as single items or as tuples of lists, and read from left to right.
-/

namespace SqlSelect

inductive Direction where
  | ascending
  | descending
deriving DecidableEq, Repr

/-- One term; without a direction the store's default holds. -/
structure OrderingTerm where
  column : Column
  direction? : Option Direction
deriving DecidableEq, Repr

namespace OrderingTerm

def directionText : Option Direction → String
  | some .ascending => " ASC"
  | some .descending => " DESC"
  | none => ""

def pieces (t : OrderingTerm) : List Piece :=
  t.column.pieces ++ [.text (directionText t.direction?)]

end OrderingTerm

/-- An item, or several tuples after one another. -/
inductive Tuple (α : Type) where
  | item (a : α)
  | group (first : Tuple α) (rest : List (Tuple α))

namespace Tuple

mutual

def toList : Tuple α → List α
  | item a => [a]
  | group first rest => toList first ++ groupToList rest

def groupToList : List (Tuple α) → List α
  | [] => []
  | t :: rest => toList t ++ groupToList rest

end

end Tuple

end SqlSelect
