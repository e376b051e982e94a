import SqlSelect.Proofs.Statement.Building
import SqlSelect.Proofs.Statement.Compilation
import SqlSelect.Proofs.Statement.Renamed
import SqlSelect.Proofs.Statement.Sections
/-!
Joins one after the other. A join is taken by the relations of the tables before it, and one that is
dropped leaves the statement as it was, so a statement built without the dropped joins is the same one.
-/

namespace SqlSelect

open Rendering

namespace Join

def call (j : Join) : Clause :=
  .join j.operator j.clause

/-- A join written out: the operator, the table, and behind them the condition or the shared columns. -/
def written (j : Join) : List Piece :=
  .text (if j.operator = .comma then ", " else " " ++ j.operator.sql ++ " ") :: .source j.table ::
    match j.clause.constraint? with
    | none => []
    | some (.condition e) => .text " ON " :: e.pieces
    | some (.columns shared) => .text " USING (" :: separated "," (shared.map Column.barePieces) ++ [.text ")"]

theorem pieces_eq_written (j : Join) : j.pieces = j.written := by
  have operator : j.operator.spaced = if j.operator = .comma then ", " else " " ++ j.operator.sql ++ " " := by
    cases j.operator <;> rfl
  rw [pieces, written, operator]
  rcases j.clause.constraint? with _ | (e | shared) <;> rfl

end Join

namespace Statement

/-- No clause stands behind the joins, so more of them may be added. -/
structure Joinable (s : Statement) : Prop where
  noCondition : s.condition? = none
  noGrouping : s.grouping? = none
  noOrdering : s.ordering = []
  noPaging : s.paging? = none

theorem joinable_select (distinct : Bool) (projection : Projection) (table : Table) :
    (select distinct projection table).Joinable :=
  ⟨rfl, rfl, rfl, rfl⟩

/-- A statement takes a join if the call puts it behind the joins taken before. -/
def Takes (s : Statement) (j : Join) : Prop :=
  (s.add j.call).joins = s.joins ++ [j]

instance (s : Statement) (j : Join) : Decidable (s.Takes j) :=
  inferInstanceAs (Decidable ((s.add j.call).joins = s.joins ++ [j]))

/-- The joins that are taken when all are called in turn. -/
def kept (s : Statement) : List Join → List Join
  | [] => []
  | j :: rest => if s.Takes j then j :: kept (s.add j.call) rest else kept (s.add j.call) rest

/-! ## One call -/

theorem reaches_iff (s : Statement) (t : Table) :
    s.reaches t = true ↔ t.name ∈ s.table.relations ∨
      s.projection.isDeep = true ∧ ∃ j ∈ s.joins, t.name ∈ j.table.relations := by
  simp [reaches, Table.isRelatedTo]

section

variable {s : Statement} (h : s.Joinable) (j : Join)
include h

theorem add_call :
    s.add j.call = if s.reaches j.table then { s with joins := s.joins ++ [j] } else s := by
  simp [add, add?, Join.call, join, Join.table, h.noCondition, h.noGrouping, h.noOrdering, h.noPaging]

theorem takes_iff_reaches : s.Takes j ↔ s.reaches j.table = true := by
  rw [Takes, add_call h]
  by_cases reached : s.reaches j.table = true <;> simp [reached]

theorem add_of_takes (taken : s.Takes j) : s.add j.call = { s with joins := s.joins ++ [j] } := by
  rw [add_call h, if_pos ((takes_iff_reaches h j).mp taken)]

theorem add_of_not_takes (dropped : ¬ s.Takes j) : s.add j.call = s := by
  rw [add_call h, if_neg (mt (takes_iff_reaches h j).mpr dropped)]

theorem Joinable.add : (s.add j.call).Joinable := by
  by_cases taken : s.Takes j
  · rw [add_of_takes h j taken]
    exact ⟨h.noCondition, h.noGrouping, h.noOrdering, h.noPaging⟩
  · rwa [add_of_not_takes h j taken]

end

/-! ## Many calls -/

theorem addAll_nil (s : Statement) : s.addAll [] = s := rfl

theorem addAll_cons (s : Statement) (clause : Clause) (rest : List Clause) :
    s.addAll (clause :: rest) = (s.add clause).addAll rest := rfl

section

variable {s : Statement} (h : s.Joinable) (calls : List Join)
include h

theorem addAll_calls :
    s.addAll (calls.map Join.call) = { s with joins := s.joins ++ s.kept calls } := by
  induction calls generalizing s with
  | nil => simp [addAll, kept]
  | cons j rest ih =>
    rw [List.map_cons, addAll_cons, ih (h.add j)]
    by_cases taken : s.Takes j
    · simp [kept, taken, add_of_takes h j taken]
    · simp [kept, taken, add_of_not_takes h j taken]

theorem Joinable.addAll : (s.addAll (calls.map Join.call)).Joinable := by
  rw [addAll_calls h]
  exact ⟨h.noCondition, h.noGrouping, h.noOrdering, h.noPaging⟩

/-- Each join that was taken is taken again when those that were dropped are not called at all. -/
theorem addAll_kept : s.addAll ((s.kept calls).map Join.call) = s.addAll (calls.map Join.call) := by
  induction calls generalizing s with
  | nil => rfl
  | cons j rest ih =>
    by_cases taken : s.Takes j
    · rw [kept, if_pos taken, List.map_cons, List.map_cons, addAll_cons, addAll_cons, ih (h.add j)]
    · rw [kept, if_neg taken, List.map_cons, addAll_cons, add_of_not_takes h j taken, ih h]

end

theorem mem_kept_cons (s : Statement) (j : Join) (rest : List Join) (e : Join) :
    e ∈ s.kept (j :: rest) ↔ j = e ∧ s.Takes e ∨ e ∈ (s.add j.call).kept rest := by
  by_cases taken : s.Takes j
  · rw [kept, if_pos taken, List.mem_cons]
    refine or_congr_left ⟨?_, fun h => h.1.symm⟩
    rintro rfl
    exact ⟨rfl, taken⟩
  · rw [kept, if_neg taken]
    refine ⟨.inr, fun h => h.resolve_left ?_⟩
    rintro ⟨rfl, taken'⟩
    exact taken taken'

/-- The joins taken from the first `i` calls are those that were taken at one of these calls. -/
theorem mem_kept_take (s : Statement) (calls : List Join) (i : Nat) (e : Join) :
    e ∈ s.kept (calls.take i) ↔
      ∃ k < i, calls[k]? = some e ∧ (s.addAll ((calls.take k).map Join.call)).Takes e := by
  induction calls generalizing s i with
  | nil => simp [kept]
  | cons j rest ih =>
    cases i with
    | zero => simp [kept]
    | succ i =>
      rw [List.take_succ_cons, mem_kept_cons, ih, Nat.exists_lt_succ_left]
      simp only [List.getElem?_cons_zero, Option.some.injEq, List.getElem?_cons_succ, List.take_zero,
        List.take_succ_cons, List.map_nil, List.map_cons, addAll_cons, addAll_nil]

theorem kept_sublist (s : Statement) (calls : List Join) : (s.kept calls).Sublist calls := by
  induction calls generalizing s with
  | nil => exact .slnil
  | cons j rest ih =>
    rw [kept]
    split
    · exact (ih _).cons_cons j
    · exact (ih _).cons j

/-! ## Clauses behind the joins -/

theorem table_add (s : Statement) (clause : Clause) : (s.add clause).table = s.table := by
  rcases s.add_eq_self_or_adds clause with same | h
  · rw [same]
  · generalize s.add clause = s' at h
    cases h with
    | join operator clause => unfold join; split <;> rfl
    | _ => rfl

theorem joins_add (s : Statement) (clause : Clause) : s.joins <+: (s.add clause).joins := by
  rcases s.add_eq_self_or_adds clause with same | h
  · simp only [same, List.prefix_rfl]
  · generalize s.add clause = s' at h
    cases h with
    | join operator clause =>
      unfold join
      split
      · exact List.prefix_append _ _
      · exact List.prefix_rfl
    | _ => exact List.prefix_rfl

theorem addAll_keeps (s : Statement) (clauses : List Clause) :
    (s.addAll clauses).table = s.table ∧ s.joins <+: (s.addAll clauses).joins := by
  induction clauses generalizing s with
  | nil => exact ⟨rfl, List.prefix_rfl⟩
  | cons clause rest ih =>
    obtain ⟨table, joins⟩ := ih (s.add clause)
    exact ⟨table.trans (s.table_add clause), (s.joins_add clause).trans joins⟩

theorem shows_compileBy (s : Statement) (way : Compilation) :
    Shows s.sections.pieces (s.compileBy way).sql := by
  obtain ⟨r, same⟩ := s.exists_render_eq_compileBy way
  rw [same]
  exact s.shows_render r

/-! ## Any calls, then any clauses -/

/-- A statement after the first `i` of some join calls. -/
def joinedTo (distinct : Bool) (projection : Projection) (table : Table) (calls : List Join) (i : Nat) :
    Statement :=
  (select distinct projection table).addAll ((calls.take i).map Join.call)

section

variable (distinct : Bool) (projection : Projection) (table : Table) (calls : List Join) (i : Nat)

theorem joinable_joinedTo : (joinedTo distinct projection table calls i).Joinable :=
  (joinable_select distinct projection table).addAll (calls.take i)

theorem joinedTo_eq :
    joinedTo distinct projection table calls i =
      { select distinct projection table with
        joins := (select distinct projection table).kept (calls.take i) } :=
  addAll_calls (joinable_select distinct projection table) (calls.take i)

/-- A join is taken if its table is related to the first table or, for a single column, to the table of
a join that was taken at an earlier call. -/
theorem takes_iff_related (j : Join) :
    (joinedTo distinct projection table calls i).Takes j ↔
      j.table.name ∈ table.relations ∨ projection.isDeep = true ∧
        ∃ k < i, ∃ e, calls[k]? = some e ∧ (joinedTo distinct projection table calls k).Takes e ∧
          j.table.name ∈ e.table.relations := by
  rw [takes_iff_reaches (joinable_joinedTo distinct projection table calls i), reaches_iff, joinedTo_eq]
  refine or_congr_right (and_congr_right fun _ => ?_)
  simp only [mem_kept_take]
  constructor
  · rintro ⟨e, ⟨k, before, called, taken⟩, related⟩
    exact ⟨k, before, e, called, taken, related⟩
  · rintro ⟨k, before, e, called, taken, related⟩
    exact ⟨e, ⟨k, before, called, taken⟩, related⟩

theorem takes_iff_related_of_shallow (shallow : projection.isDeep = false) (j : Join) :
    (joinedTo distinct projection table calls i).Takes j ↔ j.table.name ∈ table.relations := by
  rw [takes_iff_related, shallow]
  simp

/-- Joins are taken by the relation rule and shown in the order of their calls; one that is dropped
changes nothing, neither at its call nor in any statement that is built from there and compiled. -/
theorem joins_follow_relations :
    let joined := joinedTo distinct projection table calls
    let kept := (select distinct projection table).kept calls
    (∀ i j, (joined i).Takes j ↔
      j.table.name ∈ table.relations ∨ projection.isDeep = true ∧
        ∃ k < i, ∃ e, calls[k]? = some e ∧ (joined k).Takes e ∧ j.table.name ∈ e.table.relations) ∧
    (∀ i j, ¬ (joined i).Takes j → (joined i).add j.call = joined i) ∧
    ((joined calls.length).joins = kept ∧ kept.Sublist calls) ∧
    (∀ later way,
      let s := (joined calls.length).addAll later
      kept <+: s.joins ∧
        Shows (.text s.head :: s.projection.projected.pieces ++
          .text " FROM " :: .source table :: s.joins.flatMap Join.written ++ s.tailPieces)
          (s.compileBy way).sql) ∧
    (∀ later way,
      ((joinedTo distinct projection table kept kept.length).addAll later).compileBy way =
        ((joined calls.length).addAll later).compileBy way) ∧
    (projection.isDeep = false → ∀ i j,
      ((joined i).Takes j ↔ (select distinct projection table).Takes j) ∧
      ∀ (t : HostType) (c : TypedColumn t), (joined i).Takes j →
        (joinedTo distinct (.single t c) table calls i).Takes j) := by
  intro joined kept
  have start := joinable_select distinct projection table
  have taken : (joined calls.length).joins = kept := by
    simp only [joined, joinedTo_eq, List.take_length, kept]
  refine ⟨?_, ?_, ⟨taken, kept_sublist _ calls⟩, ?_, ?_, ?_⟩
  · exact takes_iff_related distinct projection table calls
  · intro i j dropped
    exact add_of_not_takes (joinable_joinedTo distinct projection table calls i) j dropped
  · intro later way s
    obtain ⟨sameTable, joins⟩ := (joined calls.length).addAll_keeps later
    have sameTable : s.table = table := by
      rw [sameTable]
      simp only [joined, joinedTo_eq, select]
    have shown := s.shows_compileBy way
    rw [pieces_sections, sourcePieces, sameTable, List.flatMap_congr fun j _ => j.pieces_eq_written] at shown
    exact ⟨taken ▸ joins, shown⟩
  · intro later way
    simp only [joined, joinedTo, List.take_length, kept, addAll_kept start]
  · intro shallow i j
    refine ⟨?_, ?_⟩
    · rw [takes_iff_related_of_shallow distinct projection table calls i shallow]
      exact (takes_iff_related_of_shallow distinct projection table calls 0 shallow j).symm
    · intro t c taken
      have related := (takes_iff_related_of_shallow distinct projection table calls i shallow j).mp taken
      exact (takes_iff_related distinct (.single t c) table calls i j).mpr (.inl related)

end

/-- A car is not related to anyone, and a toy only to the pet that was joined before it. -/
theorem joins_of_pet_owners :
    let person : Table := ⟨"person", none, ["pet"]⟩
    let pet : Table := ⟨"pet", none, ["toy"]⟩
    let column (t : Table) (name : String) : Expression := .column (.field ⟨t, none, .integer, false⟩ name)
    let name : TypedColumn .text := .stored person "name" .text false
    let pets : Join := ⟨.left, pet, some (.condition (.eqExpr (column person "id") (column pet "owner")))⟩
    let toys : Join := ⟨.comma, ⟨.named "toy", none⟩⟩
    let calls : List Join := [⟨.inner, ⟨.named "car", none⟩⟩, pets, toys]
    let later : List Clause := [.filter (.isNull (column pet "age") false)]
    let kept := [pets, toys]
    let way : Compilation := .under ⟨some false, none⟩
    (select false (.single _ name) person).kept calls = kept ∧
      (∀ c : List Join, c = calls ∨ c = kept →
        (((joinedTo false (.single _ name) person c c.length).addAll later).compileBy way).sql =
          "SELECT person.name FROM person LEFT JOIN pet ON person.id = pet.owner, toy WHERE pet.age IS NULL") ∧
      (joinedTo false (.single _ name) person calls 2).Takes toys ∧
      ¬ (joinedTo false (.columns name.column []) person calls 2).Takes toys := by
  intro person pet column name pets toys calls later kept way
  obtain ⟨related, -, -, -, dropped, -⟩ := joins_follow_relations false (.single _ name) person calls
  obtain ⟨shallow, -⟩ := joins_follow_relations false (.columns name.column []) person calls
  have taken : (select false (.single _ name) person).kept calls = kept := by decide
  rw [taken] at dropped
  have plain (s : Statement) : (s.compileBy way).sql = s.sqlAt fun _ => none := s.sql_render_off
  have text : (((joinedTo false (.single _ name) person calls calls.length).addAll later).compileBy way).sql =
      "SELECT person.name FROM person LEFT JOIN pet ON person.id = pet.owner, toy WHERE pet.age IS NULL" :=
    (plain _).trans (by cbv)
  refine ⟨taken, ?_, ?_, ?_⟩
  · rintro c (rfl | rfl)
    · exact text
    · rw [dropped later way]
      exact text
  · refine (related 2 toys).mpr (.inr ⟨rfl, 1, by decide, pets, rfl, ?_, by decide⟩)
    exact (related 1 pets).mpr (.inl (by decide))
  · rw [shallow]
    exact fun reached => reached.elim (by decide) fun deep => Bool.noConfusion deep.1

end Statement

end SqlSelect
