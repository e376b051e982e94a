import SqlSelect.Proofs.Numbered.Statement
import SqlSelect.Proofs.Rename.Queues
/-!
Declarations among the occurrences of a statement. Columns and conditions only refer to tables, so a
table is declared as often as it stands among the sources without an alias of its own.
-/

namespace SqlSelect

open RenameMap (declarations declarations_append)

def OnlyReferences (visits : List Occurrence) : Prop :=
  ∀ o ∈ visits, o.kind = .reference

theorem OnlyReferences.nil : OnlyReferences [] := by
  simp [OnlyReferences]

theorem OnlyReferences.append {seen rest : List Occurrence} (h : OnlyReferences seen)
    (hr : OnlyReferences rest) : OnlyReferences (seen ++ rest) := by
  intro o ho
  rcases List.mem_append.mp ho with ho | ho
  · exact h o ho
  · exact hr o ho

theorem OnlyReferences.declarations {visits : List Occurrence} (h : OnlyReferences visits)
    (table : String) : declarations visits table = 0 := by
  refine List.countP_eq_zero.mpr fun o ho => ?_
  simp [h o ho]

namespace Table

theorem onlyReferences_visits (t : Table) : OnlyReferences (t.visits .reference) := by
  by_cases h : t.isRenameable <;> simp [OnlyReferences, visits_eq, h]

theorem declarations_visits (t : Table) (table : String) :
    declarations (t.visits .declaration) table = if t.isRenameable && t.name == table then 1 else 0 := by
  by_cases h : t.isRenameable <;> simp [declarations, visits_eq, h]

end Table

namespace Column

theorem onlyReferences_list {cs : List Column} (h : ∀ c ∈ cs, OnlyReferences c.references) :
    OnlyReferences (listReferences cs) := by
  induction cs with
  | nil => exact .nil
  | cons c rest ih =>
    exact (h c List.mem_cons_self).append (ih fun d hd => h d (List.mem_cons_of_mem _ hd))

theorem onlyReferences (c : Column) : OnlyReferences c.references := by
  induction c using Column.induction with
  | field info name => exact info.table.onlyReferences_visits
  | literal info sql => exact .nil
  | bound info argument => exact .nil
  | function info opening separator closing operands ih => exact onlyReferences_list ih
  | composite info parts ih => exact onlyReferences_list ih

theorem onlyReferences_listReferences (cs : List Column) : OnlyReferences (listReferences cs) :=
  onlyReferences_list fun c _ => c.onlyReferences

end Column

theorem Expression.onlyReferences (e : Expression) : OnlyReferences e.references := by
  induction e with
  | column c => exact c.onlyReferences
  | compare left operator right ihl ihr => exact ihl.append ihr
  | logical left operator right ihl ihr => exact ihl.append ihr
  | raw sql arguments tables => exact .nil
  | compareArgument left operator argument ih => exact ih
  | like left pattern ignoreCase ih => exact ih
  | member left arguments negated ih => exact ih
  | isNull left negated ih => exact ih
  | not inner ih => exact ih

theorem onlyReferences_optional (e? : Option Expression) : OnlyReferences (optionalReferences e?) := by
  cases e? with
  | none => exact .nil
  | some e => exact e.onlyReferences

theorem Join.declarations_visits (j : Join) (table : String) :
    declarations j.visits table = if j.table.isRenameable && j.table.name == table then 1 else 0 := by
  have condition : OnlyReferences ((j.clause.constraint?.map JoinConstraint.references).getD []) := by
    rcases j.clause.constraint? with _ | (e | cs)
    · exact .nil
    · exact e.onlyReferences
    · exact .nil
  rw [visits, declarations_append, j.table.declarations_visits, condition.declarations, Nat.add_zero]

namespace Statement

/-- How often a table stands among the sources without an alias of its own. -/
def declared (s : Statement) (table : String) : Nat :=
  (s.table :: s.joins.map Join.table).countP fun t => t.isRenameable && t.name == table

theorem onlyReferences_tail (s : Statement) : OnlyReferences s.tailReferences := by
  refine ((onlyReferences_optional s.condition?).append ?_).append ?_
  · cases s.grouping? with
    | none => exact .nil
    | some g => exact (Column.onlyReferences_listReferences g.columns).append (onlyReferences_optional g.having?)
  · intro o ho
    obtain ⟨t, -, ht⟩ := List.mem_flatMap.mp ho
    exact t.column.onlyReferences o ht

theorem declarations_joins (js : List Join) (table : String) :
    declarations (js.flatMap Join.visits) table =
      (js.map Join.table).countP fun t => t.isRenameable && t.name == table := by
  induction js with
  | nil => rfl
  | cons j rest ih =>
    rw [List.flatMap_cons, declarations_append, j.declarations_visits, ih, List.map_cons, List.countP_cons,
      Nat.add_comm]

theorem declarations_visits (s : Statement) (table : String) :
    declarations s.visits table = s.declared table := by
  have projection : OnlyReferences s.projection.references := Column.onlyReferences_listReferences _
  rw [visits, declarations_append, declarations_append, projection.declarations,
    s.onlyReferences_tail.declarations, sourceVisits, declarations_append, s.table.declarations_visits,
    declarations_joins, declared, List.countP_cons, Nat.add_zero, Nat.add_comm]

end Statement

end SqlSelect
