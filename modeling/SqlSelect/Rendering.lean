import SqlSelect.Rename.Map
import SqlSelect.Table
/-!
Rendered SQL as a list of pieces. The plain text, the text under a renaming, the occurrences of tables
and the arguments that the placeholders carry are all read off the same pieces.
-/

namespace SqlSelect

inductive Piece where
  | text (s : String)
  | source (t : Table)
  | qualifier (t : Table)
  | placeholder (argument : String)
  | fragment (sql : String) (arguments : List String)
deriving DecidableEq, Repr

namespace Piece

/-- The occurrence of a table that a piece is; tables that are never renamed have none. -/
def occurrence? : Piece → Option Occurrence
  | .source t => if t.isRenameable then some ⟨t.name, .declaration⟩ else none
  | .qualifier t => if t.isRenameable then some ⟨t.name, .reference⟩ else none
  | _ => none

/-- The text of a piece whose table got an alias, or none. -/
def textUnder : Piece → Option String → String
  | .text s, _ => s
  | .source t, some name => t.declarationAs name
  | .source t, none => t.declaration
  | .qualifier _, some name => name
  | .qualifier t, none => t.reference
  | .placeholder _, _ => "?"
  | .fragment sql _, _ => sql

def plain (p : Piece) : String :=
  p.textUnder none

def arguments : Piece → List String
  | .placeholder argument => [argument]
  | .fragment _ arguments => arguments
  | _ => []

/-- The piece with its table's name fixed, so that no renaming reaches it. -/
def fixed : Piece → Piece
  | .source t => .text t.declaration
  | .qualifier t => .text t.reference
  | p => p

end Piece

namespace Rendering

def plain : List Piece → String
  | [] => ""
  | p :: rest => p.plain ++ plain rest

/-- The text under a renaming, which answers for each occurrence in turn. -/
def under : List Piece → Renaming → String × Renaming
  | [], r => ("", r)
  | p :: rest, r =>
    match p.occurrence? with
    | none =>
      let (text, r) := under rest r
      (p.plain ++ text, r)
    | some o =>
      let (name?, r) := r.ask o
      let (text, r) := under rest r
      (p.textUnder name? ++ text, r)

def occurrences (pieces : List Piece) : List Occurrence :=
  pieces.filterMap Piece.occurrence?

def arguments (pieces : List Piece) : List String :=
  pieces.flatMap Piece.arguments

def separated (separator : String) : List (List Piece) → List Piece
  | [] => []
  | [pieces] => pieces
  | pieces :: rest => pieces ++ .text separator :: separated separator rest

end Rendering

end SqlSelect
