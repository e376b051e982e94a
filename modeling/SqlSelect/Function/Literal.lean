import SqlSelect.Column.Basic
import SqlSelect.Text.Basic
/-!
Values written into the SQL text itself: numbers as they are, text between quotes.
-/

namespace SqlSelect

/-- A value that may stand in the text of a statement. -/
inductive Literal where
  | integer (t : IntType) (stored : t.isStored) (i : t.Carrier)
  | single (x : Single)
  | double (x : Double)
  | text (s : String)

namespace Literal

def type : Literal → HostType
  | integer t _ _ => .integer t
  | single _ => .single
  | double _ => .double
  | text _ => .text

def storage : Literal → StorageClass
  | integer _ _ _ => .integer
  | single _ => .real
  | double _ => .real
  | text _ => .text

def sql : Literal → String
  | integer _ _ i => String.ofList (Numeral.ofInt i.val)
  | single x => String.ofList x.text
  | double x => String.ofList x.text
  | text s => Quoted.literal s

def column (l : Literal) : TypedColumn l.type :=
  ⟨.literal ⟨.anonymous, none, l.storage, false⟩ l.sql⟩

end Literal

end SqlSelect
