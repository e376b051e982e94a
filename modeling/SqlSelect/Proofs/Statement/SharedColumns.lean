import SqlSelect.Proofs.Leaves
import SqlSelect.Proofs.Numbered.Condition
import SqlSelect.Proofs.Statement.Compilation
import SqlSelect.Proofs.Statement.Visible
/-!
Shared columns of joins. No renaming reaches a `USING` list. A stored column stands in it under its name alone, but
a composite with its parts as they are qualified elsewhere, by tables that may have another name in the statement.
-/

namespace SqlSelect

open Rendering (under)

namespace Column

/-- A stored column, or a composite of such columns that is nested to any depth. -/
inductive Stored : Column → Prop where
  | field (info : ColumnInfo) (name : String) : Stored (field info name)
  | composite (info : ColumnInfo) {parts : List Column} :
    parts ≠ [] → (∀ part ∈ parts, Stored part) → Stored (composite info parts)

theorem Stored.filled {c : Column} (h : c.Stored) : c.Filled := by
  induction h with
  | field info name => exact .field info name
  | composite info nonempty _ ih => exact .composite info nonempty ih

mutual

/-- The names of the stored columns that a column is made of. -/
def fieldNames : Column → List String
  | field _ name => [name]
  | composite _ parts => listFieldNames parts
  | _ => []

def listFieldNames : List Column → List String
  | [] => []
  | c :: rest => fieldNames c ++ listFieldNames rest

end

/-- What a `USING` list has for a column. -/
def sharedNames : Column → List String
  | field _ name => [name]
  | c => c.leaves.map sql

/-! ## Texts in a list -/

theorem sql_eq_intercalate {c : Column} (filled : c.Filled) : c.sql = ",".intercalate (c.leaves.map sql) := by
  rw [sql, pieces_eq_separated filled c.info.alias?, Rendering.plain_separated, List.map_map]
  rfl

theorem bareText_composite (info : ColumnInfo) (parts : List Column) :
    (composite info parts).bareText = (composite info parts).sql := by
  rw [sql, ← Rendering.numbered_none _ 0, numbered_pieces]
  rfl

theorem Stored.bareText_eq {c : Column} (stored : c.Stored) : c.bareText = ",".intercalate c.sharedNames := by
  have text := sql_eq_intercalate stored.filled
  cases stored with
  | field info name => exact (String.intercalate_singleton).symm
  | composite info nonempty parts => exact (bareText_composite info _).trans text

theorem Stored.sharedNames_ne_nil {c : Column} (stored : c.Stored) : c.sharedNames ≠ [] := by
  have leaves := leavesUnder_ne_nil stored.filled c.info.alias?
  cases stored with
  | field info name => exact List.cons_ne_nil name []
  | composite info nonempty parts => exact fun unwritten => leaves (List.map_eq_nil_iff.mp unwritten)

/-! ## Names of leaves -/

/-- A stored column of the name. -/
def IsField (c : Column) (name : String) : Prop :=
  ∃ info, c = field info name

theorem listFieldNames_eq (parts : List Column) : listFieldNames parts = parts.flatMap fieldNames := by
  induction parts with
  | nil => rfl
  | cons part rest ih => rw [listFieldNames, ih, List.flatMap_cons]

/-- The leaves of a stored column are stored columns of its names. -/
theorem Stored.leavesUnder {c : Column} (stored : c.Stored) (alias? : Option String) :
    List.Forall₂ IsField (c.leavesUnder alias?) c.fieldNames := by
  induction stored generalizing alias? with
  | field info name => exact .cons ⟨_, rfl⟩ .nil
  | composite info _ _ ih =>
    rw [Column.leavesUnder, listLeavesUnder_eq, fieldNames, listFieldNames_eq]
    exact forall₂_flatMap fun part member => ih part member _

variable (info : ColumnInfo) (name : String)

theorem sql_field : (field info name).sql =
    if info.table.isAnonymous then name else info.table.reference ++ "." ++ name := by
  by_cases own : info.table.isAnonymous <;>
    simp [sql, pieces, own, Rendering.plain, Piece.plain, Piece.textUnder, String.append_assoc]

theorem length_name_le : name.length ≤ (field info name).sql.length := by
  rw [sql_field]
  split
  · exact Nat.le_refl _
  · simp only [String.length_append]
    omega

/-- Only a table without a name leaves its columns unqualified. -/
theorem name_eq_sql_iff : name = (field info name).sql ↔ info.table.isAnonymous = true := by
  rw [sql_field]
  split
  case isTrue own => simp [own]
  case isFalse own =>
    refine iff_of_false ?_ own
    intro same
    have lengths := congrArg String.length same
    have point : ".".length = 1 := rfl
    simp only [String.length_append, point] at lengths
    omega

theorem names_le {leaves : List Column} {names : List String}
    (named : List.Forall₂ IsField leaves names) :
    List.Forall₂ (fun a b => a.length ≤ b.length) names (leaves.map sql) := by
  induction named with
  | nil => exact .nil
  | cons first _ ih =>
    obtain ⟨info, rfl⟩ := first
    exact .cons (length_name_le info _) ih

theorem names_eq_iff {leaves : List Column} {names : List String}
    (named : List.Forall₂ IsField leaves names) :
    names = leaves.map sql ↔ ∀ leaf ∈ leaves, leaf.info.table.isAnonymous = true := by
  induction named with
  | nil => simp
  | cons first _ ih =>
    obtain ⟨info, rfl⟩ := first
    rw [List.map_cons, List.cons.injEq, name_eq_sql_iff, ih, List.forall_mem_cons]
    rfl

theorem Stored.names_le {c : Column} (stored : c.Stored) :
    List.Forall₂ (fun a b => a.length ≤ b.length) c.fieldNames c.sharedNames := by
  have leaves := Column.names_le (stored.leavesUnder c.info.alias?)
  cases stored with
  | field info name => exact .cons (Nat.le_refl _) .nil
  | composite info nonempty parts => exact leaves

/-- A column in a list has the names alone if it is a stored column itself, or no leaf of it has a table with a
name. -/
theorem Stored.names_eq_iff {c : Column} (stored : c.Stored) :
    c.fieldNames = c.sharedNames ↔
      (∃ name, c.IsField name) ∨ ∀ leaf ∈ c.leaves, leaf.info.table.isAnonymous = true := by
  have leaves := Column.names_eq_iff (stored.leavesUnder c.info.alias?)
  cases stored with
  | field info name => exact iff_of_true rfl (.inl ⟨name, info, rfl⟩)
  | composite info nonempty parts =>
    refine Iff.trans leaves (or_iff_right ?_).symm
    rintro ⟨name, other, same⟩
    exact nomatch same

end Column

/-! ## Lists -/

namespace JoinConstraint

open Column

theorem under_columns {columns : List Column} (stored : ∀ c ∈ columns, c.Stored) (r : Renaming) :
    under (JoinConstraint.columns columns).pieces r =
      (" USING (" ++ ",".intercalate (columns.flatMap sharedNames) ++ ")", r) := by
  have unvisited : Rendering.occurrences (JoinConstraint.columns columns).pieces = [] := occurrences_pieces _
  have text := Rendering.under_eq (JoinConstraint.columns columns).pieces r [] []
  have bare : columns.map bareText = columns.map fun c => ",".intercalate c.sharedNames :=
    List.map_congr_left fun c member => (stored c member).bareText_eq
  rw [unvisited, numbered_pieces, sqlAt, bare,
    intercalate_flatMap "," sharedNames fun c member => (stored c member).sharedNames_ne_nil] at text
  simpa only [Renaming.after_nil, List.append_nil] using text

end JoinConstraint

namespace Statement

open Column

/-- The `USING` list of a join is the same under every renaming. It has the names alone just if no composite among
its columns has a part from a table with a name. -/
theorem shared_names_bare_iff (s : Statement) {j : Join} (joined : j ∈ s.joins) {columns : List Column}
    (shared : j.clause.constraint? = some (.columns columns)) (stored : ∀ c ∈ columns, c.Stored) :
    let list (names : List String) := " USING (" ++ ",".intercalate names ++ ")"
    (∀ way, ∃ before after, (s.compileBy way).sql = before ++ list (columns.flatMap sharedNames) ++ after) ∧
      (∀ r, under (JoinConstraint.columns columns).pieces r = (list (columns.flatMap sharedNames), r)) ∧
      (list (columns.flatMap sharedNames) = list (columns.flatMap fieldNames) ↔
        ∀ c ∈ columns, (∃ name, c.IsField name) ∨ ∀ leaf ∈ c.leaves, leaf.info.table.isAnonymous = true) := by
  intro list
  have written := JoinConstraint.under_columns stored
  refine ⟨?_, written, ?_⟩
  · intro way
    obtain ⟨earlier, later, split⟩ := List.append_of_mem joined
    have parts : s.sourcePieces =
        (.text " FROM " :: .source s.table :: earlier.flatMap Join.pieces ++
          [.text j.operator.spaced, .source j.table]) ++
        (JoinConstraint.columns columns).pieces ++ later.flatMap Join.pieces := by
      simp [sourcePieces, split, Join.pieces, shared]
    obtain ⟨before, r, after, text⟩ := s.exists_sql_eq_of_sourcePieces way parts
    rw [written] at text
    exact ⟨before, after, text⟩
  · have shorter := forall₂_flatMap fun c member => (stored c member).names_le
    rw [String.append_left_inj, String.append_right_inj, eq_comm, intercalate_eq_iff_of_le shorter,
      flatMap_eq_iff fun c member => (stored c member).names_le.length_eq]
    exact forall₂_congr fun c member => (stored c member).names_eq_iff

theorem shared_names_bare_for_fields :
    let person : Table := ⟨"person", none, ["pet"]⟩
    let id : Column := .field ⟨person, none, .integer, false⟩ "id"
    let name : Column := .field ⟨person, none, .text, false⟩ "name"
    let j : Join := ⟨.left, .named "pet", some (.columns [id, name])⟩
    let s : Statement := { select false .all person with joins := [j] }
    (∀ c ∈ [id, name], c.Stored) ∧
      ∀ way, ∃ before after, (s.compileBy way).sql = before ++ " USING (id,name)" ++ after := by
  intro person id name j s
  have stored : ∀ c ∈ [id, name], c.Stored :=
    List.forall_mem_cons.mpr ⟨.field _ _, List.forall_mem_singleton.mpr (.field _ _)⟩
  obtain ⟨shown, -, bare⟩ := shared_names_bare_iff s (j := j) List.mem_cons_self rfl stored
  have alone := bare.mpr (List.forall_mem_cons.mpr
    ⟨.inl ⟨"id", _, rfl⟩, List.forall_mem_singleton.mpr (.inl ⟨"name", _, rfl⟩)⟩)
  have list : " USING (" ++ ",".intercalate ["id", "name"] ++ ")" = " USING (id,name)" := by decide
  rw [alone] at shown
  rw [← list]
  exact ⟨stored, shown⟩

/-- In a table that is joined to itself, the parts of a composite are qualified by a name that no table has. -/
theorem shared_names_qualified :
    let person : Table := ⟨"person", none, ["person"]⟩
    let id : Column := .field ⟨person, none, .integer, false⟩ "id"
    let name : Column := .field ⟨person, none, .text, false⟩ "name"
    let key : Column := .composite ⟨person, none, .text, false⟩ [id, name]
    let s := (select false .all person).join .inner ⟨person, some (.columns [key])⟩
    key.fieldNames = ["id", "name"] ∧
      (s.compile .standard).sql =
        "SELECT * FROM person AS person_1 INNER JOIN person AS person_2 USING (person.id,person.name)" ∧
      (s.compile .standard).sql ≠
        "SELECT * FROM person AS person_1 INNER JOIN person AS person_2 USING (" ++
          ",".intercalate key.fieldNames ++ ")" := by
  intro person id name key s
  have text : (s.compile .standard).sql =
      "SELECT * FROM person AS person_1 INNER JOIN person AS person_2 USING (person.id,person.name)" :=
    (s.sql_compile_auto .standard rfl).trans (by cbv)
  refine ⟨rfl, text, ?_⟩
  rw [text]
  decide

end Statement

end SqlSelect
