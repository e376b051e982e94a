import SqlSelect.Column.Basic
/-!
Conditions of a statement. A comparison has a bound argument or another expression on its right, and
only `AND`, `OR` and `NOT` write parentheses of their own.
-/

namespace SqlSelect

inductive Connective where
  | conj
  | disj
deriving DecidableEq, Repr

inductive Expression where
  | column (c : Column)
  | compareArgument (left : Expression) (operator argument : String)
  | compare (left : Expression) (operator : String) (right : Expression)
  | like (left : Expression) (pattern : String) (ignoreCase : Bool)
  | member (left : Expression) (arguments : List String) (negated : Bool)
  | isNull (left : Expression) (negated : Bool)
  | logical (left : Expression) (operator : Connective) (right : Expression)
  | not (inner : Expression)
  | raw (sql : String) (arguments tables : List String)
deriving DecidableEq, Repr

namespace Expression

/-! ## Building -/

def against (operator : String) (left : Expression) (t : HostType) (value : t.Carrier) : Expression :=
  compareArgument left operator (t.argument value)

def eq (left : Expression) (t : HostType) (value : t.Carrier) : Expression := against "=" left t value
def ne (left : Expression) (t : HostType) (value : t.Carrier) : Expression := against "!=" left t value
def gt (left : Expression) (t : HostType) (value : t.Carrier) : Expression := against ">" left t value
def lt (left : Expression) (t : HostType) (value : t.Carrier) : Expression := against "<" left t value
def gte (left : Expression) (t : HostType) (value : t.Carrier) : Expression := against ">=" left t value
def lte (left : Expression) (t : HostType) (value : t.Carrier) : Expression := against "<=" left t value

def eqExpr (left right : Expression) : Expression := compare left "=" right
def neExpr (left right : Expression) : Expression := compare left "!=" right

def fragment (sql : String) : Expression := raw sql [] []

/-- Adds arguments to a fragment; no other expression takes any. -/
def withArguments (more : List String) : Expression → Expression
  | raw sql arguments tables => raw sql (arguments ++ more) tables
  | e => e

def observing (more : List String) : Expression → Expression
  | raw sql arguments tables => raw sql arguments (tables ++ more)
  | e => e

/-! ## Rendering -/

def connectiveText : Connective → String
  | .conj => " AND "
  | .disj => " OR "

def placeholders : List String → List Piece
  | [] => []
  | [a] => [.placeholder a]
  | a :: rest => .placeholder a :: .text ", " :: placeholders rest

def pieces : Expression → List Piece
  | column c => c.pieces
  | compareArgument left operator argument =>
    left.pieces ++ [.text (" " ++ operator ++ " "), .placeholder argument]
  | compare left operator right => left.pieces ++ .text (" " ++ operator ++ " ") :: right.pieces
  | like left pattern ignoreCase =>
    if ignoreCase then
      .text "LOWER(" :: left.pieces ++ [.text ") LIKE LOWER(", .placeholder pattern, .text ")"]
    else left.pieces ++ [.text " LIKE ", .placeholder pattern]
  | member left arguments negated =>
    left.pieces ++ .text (if negated then " NOT IN (" else " IN (") :: placeholders arguments ++ [.text ")"]
  | isNull left negated => left.pieces ++ [.text (if negated then " IS NOT NULL" else " IS NULL")]
  | logical left operator right =>
    .text "(" :: left.pieces ++ .text (connectiveText operator) :: right.pieces ++ [.text ")"]
  | not inner => .text "NOT (" :: inner.pieces ++ [.text ")"]
  | raw sql arguments _ => [.fragment sql arguments]

def sql (e : Expression) : String :=
  Rendering.plain e.pieces

/-! ## What an expression contributes -/

def arguments : Expression → List String
  | column c => c.arguments
  | compareArgument left _ argument => left.arguments ++ [argument]
  | compare left _ right => left.arguments ++ right.arguments
  | like left pattern _ => left.arguments ++ [pattern]
  | member left values _ => left.arguments ++ values
  | isNull left _ => left.arguments
  | logical left _ right => left.arguments ++ right.arguments
  | not inner => inner.arguments
  | raw _ values _ => values

def observe : Expression → NameSet → NameSet
  | column c, names => c.observe names
  | compareArgument left _ _, names => left.observe names
  | compare left _ right, names => right.observe (left.observe names)
  | like left _ _, names => left.observe names
  | member left _ _, names => left.observe names
  | isNull left _, names => left.observe names
  | logical left _ right, names => right.observe (left.observe names)
  | not inner, names => inner.observe names
  | raw _ _ tables, names => names.insertMany tables

end Expression

end SqlSelect
