import SqlSelect.Column.Basic
/-!
Projections of columns: the rendered entries and the index of their output names. An alias `a` on a
composite gives each part the alias `a.m`, where `m` is the part's own alias or its bare name.
-/

namespace SqlSelect

/-- The result slot of each output name. -/
abbrev Positions := Std.ExtTreeMap String Nat

/-- A projection rendered so far, with the slot that the next column takes. -/
structure Projected where
  pieces : List Piece
  positions : Positions
  next : Nat

namespace Projected

def startingAt (offset : Nat) : Projected :=
  ⟨[], ∅, offset⟩

def append (s : Projected) (pieces : List Piece) : Projected :=
  { s with pieces := s.pieces ++ pieces }

/-- Adds an entry that takes one slot; an output name seen before is indexed anew. -/
def entry (s : Projected) (pieces : List Piece) (name : String) : Projected :=
  ⟨s.pieces ++ pieces, s.positions.insert name s.next, s.next + 1⟩

end Projected

namespace Column

def aliasPieces : Option String → List Piece
  | none => []
  | some name => [.text " AS '", .text name, .text "'"]

/-- The alias of a part of a composite that has an alias, or has none. -/
def partAlias (alias? : Option String) (part : Column) : Option String :=
  match alias? with
  | none => part.info.alias?
  | some name => some (name ++ "." ++ part.info.alias?.getD part.bareName)

mutual

def project (alias? : Option String) : Column → Projected → Projected
  | composite _ parts, s => projectParts alias? parts s
  | field info name, s =>
    s.entry ((field info name).pieces ++ aliasPieces alias?) (alias?.getD (field info name).sql)
  | literal info sql, s =>
    s.entry ((literal info sql).pieces ++ aliasPieces alias?) (alias?.getD (literal info sql).sql)
  | bound info argument, s =>
    s.entry ((bound info argument).pieces ++ aliasPieces alias?) (alias?.getD (bound info argument).sql)
  | function info o sep c operands, s =>
    s.entry ((function info o sep c operands).pieces ++ aliasPieces alias?)
      (alias?.getD (function info o sep c operands).sql)

def projectParts (alias? : Option String) : List Column → Projected → Projected
  | [], s => s
  | [part], s => project (partAlias alias? part) part s
  | part :: rest, s =>
    projectParts alias? rest ((project (partAlias alias? part) part s).append [.text ","])

end

def compile (c : Column) (s : Projected) : Projected :=
  c.project c.info.alias? s

def compileAll (columns : List Column) (s : Projected) : Projected :=
  projectParts none columns s

end Column

end SqlSelect
