import SqlSelect.Proofs.Numbered.Condition
import SqlSelect.Rename.Settings
/-!
The shape of a condition: the condition without the values of its arguments. A comparison writes nothing
around its right side, so what is tested or compared there reads as if it were tested or compared on the
left. Moving all of it to the left leaves the text as it is.
-/

namespace SqlSelect

/-- What may stand behind a condition without another condition: a comparison with an argument, `LIKE`, `IN`
with a number of arguments, or a test for `NULL`. -/
inductive Test where
  | argument (operator : String)
  | like
  | member (count : Nat) (negated : Bool)
  | isNull (negated : Bool)
deriving DecidableEq, Repr

/-- `similar` is `LIKE` that ignores case, which has parentheses around the condition. -/
inductive Shape where
  | column (table name : String)
  | tested (left : Shape) (test : Test)
  | compare (left : Shape) (operator : String) (right : Shape)
  | similar (inner : Shape)
  | logical (left : Shape) (operator : Connective) (right : Shape)
  | not (inner : Shape)
deriving DecidableEq, Repr

namespace Test

def text : Test → String
  | argument operator => " " ++ operator ++ " " ++ "?"
  | like => " LIKE ?"
  | member count negated =>
    (if negated then " NOT IN (" else " IN (") ++ ", ".intercalate (List.replicate count "?") ++ ")"
  | isNull negated => if negated then " IS NOT NULL" else " IS NULL"

end Test

namespace Shape

def text : Shape → String
  | column table name => table ++ "." ++ name
  | tested left test => left.text ++ test.text
  | compare left operator right => left.text ++ (" " ++ operator ++ " ") ++ right.text
  | similar inner => "LOWER(" ++ inner.text ++ ") LIKE LOWER(?)"
  | logical left operator right =>
    "(" ++ left.text ++ Expression.connectiveText operator ++ right.text ++ ")"
  | not inner => "NOT (" ++ inner.text ++ ")"

/-! ## Moving to the left -/

/-- Compares with the first part of what stands on the right; the tests behind that part are then tests of
the comparison. -/
def attach (left : Shape) (operator : String) : Shape → Shape
  | tested right test => tested (attach left operator right) test
  | compare right other last => compare (attach left operator right) other last
  | right => compare left operator right

/-- The shape that a text is read as, from left to right. -/
def leftward : Shape → Shape
  | column table name => column table name
  | tested left test => tested left.leftward test
  | compare left operator right => attach left.leftward operator right.leftward
  | similar inner => similar inner.leftward
  | logical left operator right => logical left.leftward operator right.leftward
  | not inner => not inner.leftward

/-- A column, or a condition in parentheses. -/
def isClosed : Shape → Bool
  | column _ _ | similar _ | logical _ _ _ | not _ => true
  | tested _ _ | compare _ _ _ => false

/-- Nothing is tested or compared on the right of a comparison without parentheses. -/
def isLeftward : Shape → Bool
  | column _ _ => true
  | tested left _ => left.isLeftward
  | compare left _ right => left.isLeftward && right.isLeftward && right.isClosed
  | similar inner => inner.isLeftward
  | logical left _ right => left.isLeftward && right.isLeftward
  | not inner => inner.isLeftward

theorem attach_of_isClosed {right : Shape} (closed : right.isClosed = true) (left : Shape) (operator : String) :
    attach left operator right = compare left operator right := by
  cases right with
  | tested => contradiction
  | compare => contradiction
  | _ => rfl

/-- Comparisons in a row are made from left to right, however they were grouped. -/
theorem attach_attach (left middle right : Shape) (operator other : String) :
    attach left operator (attach middle other right) = attach (attach left operator middle) other right := by
  induction right with
  | tested right test ih => exact congrArg (tested · test) ih
  | compare right last closed ih => exact congrArg (compare · last closed) ih
  | _ => rfl

theorem text_attach (left right : Shape) (operator : String) :
    (attach left operator right).text = left.text ++ (" " ++ operator ++ " ") ++ right.text := by
  induction right with
  | tested right test ih => simp only [attach, text, ih, String.append_assoc]
  | compare right other last ih => simp only [attach, text, ih, String.append_assoc]
  | _ => rfl

theorem text_leftward (s : Shape) : s.leftward.text = s.text := by
  induction s with
  | column => rfl
  | tested left test ih => simp only [leftward, text, ih]
  | compare left operator right ihl ihr => simp only [leftward, text_attach, text, ihl, ihr]
  | similar inner ih => simp only [leftward, text, ih]
  | logical left operator right ihl ihr => simp only [leftward, text, ihl, ihr]
  | not inner ih => simp only [leftward, text, ih]

theorem isLeftward_attach {left right : Shape} (hl : left.isLeftward = true) (hr : right.isLeftward = true)
    (operator : String) : (attach left operator right).isLeftward = true := by
  induction right with
  | tested right test ih => exact ih hr
  | compare right other last ih =>
    simp only [isLeftward, Bool.and_eq_true] at hr
    simp only [attach, isLeftward, ih hr.1.1, hr.1.2, hr.2, Bool.and_self]
  | _ => simp_all [attach, isLeftward, isClosed]

/-- So every text of a condition is the text of one that has nothing to move. -/
theorem isLeftward_leftward (s : Shape) : s.leftward.isLeftward = true := by
  induction s with
  | column => rfl
  | tested left test ih => exact ih
  | compare left operator right ihl ihr => exact isLeftward_attach ihl ihr operator
  | similar inner ih => exact ih
  | logical left operator right ihl ihr => simp only [leftward, isLeftward, ihl, ihr, Bool.and_self]
  | not inner ih => exact ih

theorem leftward_of_isLeftward {s : Shape} (h : s.isLeftward = true) : s.leftward = s := by
  induction s with
  | column => rfl
  | tested left test ih => rw [leftward, ih h]
  | compare left operator right ihl ihr =>
    simp only [isLeftward, Bool.and_eq_true] at h
    rw [leftward, ihl h.1.1, ihr h.1.2, attach_of_isClosed h.2]
  | similar inner ih => rw [leftward, ih h]
  | logical left operator right ihl ihr =>
    simp only [isLeftward, Bool.and_eq_true] at h
    rw [leftward, ihl h.1, ihr h.2]
  | not inner ih => rw [leftward, ih h]

end Shape

namespace Expression

def operators : List String :=
  ["=", "!=", ">", "<", ">=", "<="]

/-- The conditions over stored columns, in tables without aliases, with their shapes. -/
inductive HasShape : Expression → Shape → Prop where
  | column {info : ColumnInfo} {name : String} (unaliased : info.table.alias? = none)
    (table : isIdentifier info.table.name = true) (own : isIdentifier name = true) :
    HasShape (.column (.field info name)) (.column info.table.name name)
  | compareArgument {left : Expression} {s : Shape} (h : HasShape left s) {operator : String}
    (known : operator ∈ operators) (argument : String) :
    HasShape (.compareArgument left operator argument) (.tested s (.argument operator))
  | compare {left right : Expression} {s t : Shape} (hl : HasShape left s) {operator : String}
    (known : operator ∈ operators) (hr : HasShape right t) :
    HasShape (.compare left operator right) (.compare s operator t)
  | like {left : Expression} {s : Shape} (h : HasShape left s) (pattern : String) :
    HasShape (.like left pattern false) (.tested s .like)
  | similar {left : Expression} {s : Shape} (h : HasShape left s) (pattern : String) :
    HasShape (.like left pattern true) (.similar s)
  | member {left : Expression} {s : Shape} (h : HasShape left s) (arguments : List String) (negated : Bool) :
    HasShape (.member left arguments negated) (.tested s (.member arguments.length negated))
  | isNull {left : Expression} {s : Shape} (h : HasShape left s) (negated : Bool) :
    HasShape (.isNull left negated) (.tested s (.isNull negated))
  | logical {left right : Expression} {s t : Shape} (hl : HasShape left s) (operator : Connective)
    (hr : HasShape right t) : HasShape (.logical left operator right) (.logical s operator t)
  | not {inner : Expression} {s : Shape} (h : HasShape inner s) : HasShape (.not inner) (.not s)

/-- The text of a condition is that of its shape. -/
theorem HasShape.sql_eq {e : Expression} {s : Shape} (h : HasShape e s) : e.sql = s.text := by
  have written (i : Nat) : e.sqlAt (fun _ => none) i = s.text := by
    induction h generalizing i with
    | @column info name unaliased table own =>
      have named : info.table.isAnonymous = false := by
        rw [Table.isAnonymous, Bool.eq_false_iff]
        intro empty
        rw [String.isEmpty_iff.mp empty] at table
        exact absurd table (by decide)
      simp [sqlAt, Column.sqlAt, Shape.text, named, Table.qualifierAs, Table.aliasAs, unaliased]
    | compareArgument h known argument ih => simp [sqlAt, Shape.text, Test.text, ih, String.append_assoc]
    | compare hl known hr ihl ihr => simp [sqlAt, Shape.text, ihl, ihr, String.append_assoc]
    | like h pattern ih => simp [sqlAt, Shape.text, Test.text, ih]
    | similar h pattern ih => simp [sqlAt, Shape.text, ih]
    | member h arguments negated ih => simp [sqlAt, Shape.text, Test.text, ih, String.append_assoc]
    | isNull h negated ih => simp [sqlAt, Shape.text, Test.text, ih]
    | logical hl operator hr ihl ihr => simp [sqlAt, Shape.text, ihl, ihr]
    | not h ih => simp [sqlAt, Shape.text, ih]
  rw [sql, ← Rendering.numbered_none _ 0, numbered_pieces]
  exact written 0

end Expression

end SqlSelect
