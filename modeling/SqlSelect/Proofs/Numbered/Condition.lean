import SqlSelect.Join
import SqlSelect.Proofs.Numbered.Column
/-!
The text of conditions and joins written out over their syntax, with a name for each occurrence of a
table. Columns in `USING` have no occurrences.
-/

namespace SqlSelect

open Rendering

variable (names : Nat → Option String)

namespace Expression

def references : Expression → List Occurrence
  | column c => c.references
  | compareArgument left _ _ => left.references
  | compare left _ right => left.references ++ right.references
  | like left _ _ => left.references
  | member left _ _ => left.references
  | isNull left _ => left.references
  | logical left _ right => left.references ++ right.references
  | not inner => inner.references
  | raw _ _ _ => []

def sqlAt : Expression → Nat → String
  | column c, i => c.sqlAt names i
  | compareArgument left operator _, i => sqlAt left i ++ " " ++ operator ++ " ?"
  | compare left operator right, i =>
    sqlAt left i ++ " " ++ operator ++ " " ++ sqlAt right (i + left.references.length)
  | like left _ true, i => "LOWER(" ++ sqlAt left i ++ ") LIKE LOWER(?)"
  | like left _ false, i => sqlAt left i ++ " LIKE ?"
  | member left arguments negated, i =>
    sqlAt left i ++ (if negated then " NOT IN (" else " IN (") ++
      ", ".intercalate (List.replicate arguments.length "?") ++ ")"
  | isNull left negated, i => sqlAt left i ++ if negated then " IS NOT NULL" else " IS NULL"
  | logical left operator right, i =>
    "(" ++ sqlAt left i ++ connectiveText operator ++ sqlAt right (i + left.references.length) ++ ")"
  | not inner, i => "NOT (" ++ sqlAt inner i ++ ")"
  | raw sql _ _, _ => sql

theorem occurrences_placeholders (arguments : List String) : occurrences (placeholders arguments) = [] := by
  induction arguments with
  | nil => rfl
  | cons a rest ih =>
    cases rest with
    | nil => rfl
    | cons b rest => simpa [placeholders] using ih

theorem numbered_placeholders (arguments : List String) (i : Nat) :
    numbered names (placeholders arguments) i =
      ", ".intercalate (List.replicate arguments.length "?") := by
  induction arguments with
  | nil => rfl
  | cons a rest ih =>
    cases rest with
    | nil => rfl
    | cons b rest =>
      simp only [List.length_cons, List.replicate_succ] at ih ⊢
      simp [placeholders, ih, ← String.append_assoc]

theorem occurrences_pieces (e : Expression) : occurrences e.pieces = e.references := by
  induction e with
  | column c => exact c.occurrences_pieces
  | member left arguments negated ih => simp [pieces, references, ih, occurrences_placeholders]
  | like left pattern ignoreCase ih => cases ignoreCase <;> simp [pieces, references, ih]
  | compare left operator right ihl ihr => simp [pieces, references, ihl, ihr]
  | logical left operator right ihl ihr => simp [pieces, references, ihl, ihr]
  | compareArgument left operator argument ih => simp [pieces, references, ih]
  | isNull left negated ih => simp [pieces, references, ih]
  | not inner ih => simp [pieces, references, ih]
  | raw sql arguments tables => rfl

theorem numbered_pieces (e : Expression) (i : Nat) : numbered names e.pieces i = e.sqlAt names i := by
  induction e generalizing i with
  | column c => exact c.numbered_pieces names i
  | member left arguments negated ih =>
    simp [pieces, sqlAt, numbered_append, ih, numbered_placeholders, String.append_assoc]
  | like left pattern ignoreCase ih =>
    cases ignoreCase <;> simp [pieces, sqlAt, numbered_append, ih, String.append_assoc]
  | compare left operator right ihl ihr =>
    simp [pieces, sqlAt, numbered_append, ihl, ihr, occurrences_pieces, String.append_assoc]
  | logical left operator right ihl ihr =>
    simp [pieces, sqlAt, numbered_append, ihl, ihr, occurrences_pieces, String.append_assoc]
  | compareArgument left operator argument ih =>
    simp [pieces, sqlAt, numbered_append, ih, String.append_assoc]
  | isNull left negated ih => simp [pieces, sqlAt, numbered_append, ih]
  | not inner ih => simp [pieces, sqlAt, numbered_append, ih, String.append_assoc]
  | raw sql arguments tables => simp [pieces, sqlAt]

end Expression

namespace JoinConstraint

def references : JoinConstraint → List Occurrence
  | condition e => e.references
  | columns _ => []

def sqlAt : JoinConstraint → Nat → String
  | condition e, i => " ON " ++ e.sqlAt names i
  | columns cs, _ => " USING (" ++ ",".intercalate (cs.map Column.bareText) ++ ")"

theorem occurrences_shared (cs : List Column) :
    occurrences (separated "," (cs.map Column.barePieces)) = [] := by
  simp [occurrences_separated, Column.occurrences_barePieces]

theorem numbered_shared (cs : List Column) (i : Nat) :
    numbered names (separated "," (cs.map Column.barePieces)) i =
      ",".intercalate (cs.map Column.bareText) := by
  induction cs generalizing i with
  | nil => rfl
  | cons c rest ih =>
    cases rest with
    | nil => simpa [separated] using c.numbered_barePieces names i
    | cons d rest =>
      have step := ih i
      simp only [List.map_cons] at step ⊢
      simp [separated, numbered_append, Column.numbered_barePieces, Column.occurrences_barePieces, step,
        String.append_assoc]

theorem occurrences_pieces (k : JoinConstraint) : occurrences k.pieces = k.references := by
  cases k with
  | condition e => simp [pieces, references, e.occurrences_pieces]
  | columns cs => simp [pieces, references, occurrences_shared]

theorem numbered_pieces (k : JoinConstraint) (i : Nat) : numbered names k.pieces i = k.sqlAt names i := by
  cases k with
  | condition e => simp [pieces, sqlAt, e.numbered_pieces]
  | columns cs => simp [pieces, sqlAt, numbered_append, numbered_shared, String.append_assoc]

end JoinConstraint

namespace Join

/-- The occurrences of a join: its table, then the references of its condition. -/
def visits (j : Join) : List Occurrence :=
  j.table.visits .declaration ++ (j.clause.constraint?.map JoinConstraint.references).getD []

def sqlAt (j : Join) (i : Nat) : String :=
  j.operator.spaced ++ j.table.sourceAs (names i) ++
    (j.clause.constraint?.map fun k => k.sqlAt names (i + (j.table.visits .declaration).length)).getD ""

def listSqlAt : List Join → Nat → String
  | [], _ => ""
  | j :: rest, i => j.sqlAt names i ++ listSqlAt rest (i + j.visits.length)

theorem occurrences_pieces (j : Join) : occurrences j.pieces = j.visits := by
  cases h : j.clause.constraint? <;> simp [pieces, visits, h, JoinConstraint.occurrences_pieces]

theorem numbered_pieces (j : Join) (i : Nat) : numbered names j.pieces i = j.sqlAt names i := by
  cases h : j.clause.constraint? <;>
    simp [pieces, sqlAt, h, JoinConstraint.numbered_pieces, String.append_assoc]

theorem occurrences_flatMap (js : List Join) :
    occurrences (js.flatMap pieces) = js.flatMap visits := by
  induction js with
  | nil => rfl
  | cons j rest ih => simp [ih, occurrences_pieces]

theorem numbered_flatMap (js : List Join) (i : Nat) :
    numbered names (js.flatMap pieces) i = listSqlAt names js i := by
  induction js generalizing i with
  | nil => rfl
  | cons j rest ih => simp [listSqlAt, numbered_append, numbered_pieces, occurrences_pieces, ih]

end Join

end SqlSelect
