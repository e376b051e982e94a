import SqlSelect.Column.Basic
/-!
SQL functions as columns. A function is described once and applied to operands, whose arguments and
tables the new column keeps.
-/

namespace SqlSelect

inductive ResultClass where
  | always (c : StorageClass)
  | firstOperand
deriving DecidableEq, Repr

/-- How a function renders. Without a name only the separators stand between the operands. -/
structure FunctionSpec where
  name : String
  result : ResultClass
  distinct : Bool
  separator : String
  closing? : Option String
deriving DecidableEq, Repr

namespace FunctionSpec

def named (name : String) (result : ResultClass) : FunctionSpec :=
  ⟨name, result, false, ",", none⟩

def overDistinct (f : FunctionSpec) : FunctionSpec :=
  { f with distinct := true }

def opening (f : FunctionSpec) : String :=
  if f.name.isEmpty then ""
  else f.name ++ if f.distinct then "(DISTINCT " else "("

def closing (f : FunctionSpec) : String :=
  f.closing?.getD (if f.name.isEmpty then "" else ")")

/-- The storage class of the result over some operands; text where there is no first operand. -/
def storage (f : FunctionSpec) (operands : List Column) : StorageClass :=
  match f.result, operands with
  | .always c, _ => c
  | .firstOperand, c :: _ => c.info.storage
  | .firstOperand, [] => .text

/-- The table of the result: that of a single operand without its alias, else none. -/
def table : List Column → Table
  | [c] => c.info.table.withoutAlias
  | _ => .anonymous

def apply (f : FunctionSpec) (operands : List Column) (nullable : Bool) (t : HostType) : TypedColumn t :=
  ⟨.function ⟨table operands, none, f.storage operands, nullable⟩ f.opening f.separator f.closing operands⟩

end FunctionSpec

end SqlSelect
