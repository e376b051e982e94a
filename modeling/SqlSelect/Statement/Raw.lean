import SqlSelect.Column.Projected
/-!
Compiled statements: the text with its arguments, the tables that are read, and how results are found and read. A
statement that is given as SQL text compiles to itself; the text is not looked into, and the tables it reads are
declared beside it.
-/

namespace SqlSelect

structure Decoder where
  type : HostType
  name : String
  storage : StorageClass
deriving DecidableEq, Repr

namespace Decoder

/-- Normalises a raw value to the column's storage class and reads it; a type that has no `NULL` refuses
one under the column's name. -/
def decode (d : Decoder) (raw : RawValue) : Except ReadError d.type.Carrier :=
  match d.storage.parse raw with
  | .error e => .error e
  | .ok .null =>
    match d.type.fromRaw? .null with
    | some value => .ok value
    | none => .error (.unexpectedNull d.name)
  | .ok value => d.type.read value.toRaw

end Decoder

structure Compiled where
  sql : String
  arguments : List String
  observed : NameSet
  selected? : Option NameSet
  positions : Positions
  decoder? : Option Decoder

namespace Compiled

def position (c : Compiled) (name : String) : Except ReadError Nat :=
  match c.positions[name]? with
  | some n => .ok n
  | none => .error (.unknownColumn name)

end Compiled

/-! ## Statements given as text -/

structure RawStatement where
  sql : String
  observed : NameSet
  arguments : List String

namespace RawStatement

def ofSql (sql : String) : RawStatement :=
  ⟨sql, ∅, []⟩

def reading (s : RawStatement) (tables : List Table) : RawStatement :=
  { s with observed := s.observed.insertMany (tables.map Table.name) }

def withArguments (s : RawStatement) (more : List String) : RawStatement :=
  { s with arguments := s.arguments ++ more }

def compile (s : RawStatement) : Compiled :=
  ⟨s.sql, s.arguments, s.observed, none, ∅, none⟩

end RawStatement

end SqlSelect
