import SqlSelect.Statement.Chain
/-!
Building statements. A clause that is allowed is added to a statement without any later clause, so the
clauses of a statement come in SQL order however it was built.
-/

namespace SqlSelect

namespace Statement

/-- What adding a clause does where the clauses so far allow it. -/
inductive Adds : Statement → Clause → Statement → Prop
  | join {s : Statement} (operator : JoinOperator) (clause : JoinClause) (noCondition : s.condition? = none)
      (noGrouping : s.grouping? = none) (noOrdering : s.ordering = []) (noPaging : s.paging? = none) :
      Adds s (.join operator clause) (s.join operator clause)
  | filter {s : Statement} (e : Expression) (noCondition : s.condition? = none)
      (noGrouping : s.grouping? = none) (noOrdering : s.ordering = []) (noPaging : s.paging? = none) :
      Adds s (.filter e) { s with condition? := some e }
  | groupBy {s : Statement} (columns : List Column) (noGrouping : s.grouping? = none)
      (noOrdering : s.ordering = []) (noPaging : s.paging? = none) :
      Adds s (.groupBy columns) { s with grouping? := some ⟨columns, none⟩ }
  | having {s : Statement} (e : Expression) {columns : List Column}
      (grouping : s.grouping? = some ⟨columns, none⟩) (noOrdering : s.ordering = [])
      (noPaging : s.paging? = none) :
      Adds s (.having e) { s with grouping? := some ⟨columns, some e⟩ }
  | orderBy {s : Statement} (terms : List OrderingTerm) (noOrdering : s.ordering = [])
      (noPaging : s.paging? = none) : Adds s (.orderBy terms) { s with ordering := terms }
  | limit {s : Statement} (n : Nat) (noPaging : s.paging? = none) :
      Adds s (.limit n) { s with paging? := some ⟨n, none⟩ }
  | offset {s : Statement} (n : Nat) {limit : Nat} (paging : s.paging? = some ⟨limit, none⟩) :
      Adds s (.offset n) { s with paging? := some ⟨limit, some n⟩ }

theorem adds_of_add? {s s' : Statement} {clause : Clause} (h : s.add? clause = some s') :
    Adds s clause s' := by
  cases clause with
  | join operator clause =>
    simp only [add?, Option.ite_none_right_eq_some, Option.some.injEq, Bool.and_eq_true,
      Option.isNone_iff_eq_none, List.isEmpty_iff] at h
    obtain ⟨⟨⟨⟨hc, hg⟩, ho⟩, hp⟩, rfl⟩ := h
    exact .join operator clause hc hg ho hp
  | filter e =>
    simp only [add?, Option.ite_none_right_eq_some, Option.some.injEq, Bool.and_eq_true,
      Option.isNone_iff_eq_none, List.isEmpty_iff] at h
    obtain ⟨⟨⟨⟨hc, hg⟩, ho⟩, hp⟩, rfl⟩ := h
    exact .filter e hc hg ho hp
  | groupBy columns =>
    simp only [add?, Option.ite_none_right_eq_some, Option.some.injEq, Bool.and_eq_true,
      Option.isNone_iff_eq_none, List.isEmpty_iff] at h
    obtain ⟨⟨⟨hg, ho⟩, hp⟩, rfl⟩ := h
    exact .groupBy columns hg ho hp
  | having e =>
    simp only [add?] at h
    split at h
    · rename_i columns hg
      simp only [Option.ite_none_right_eq_some, Option.some.injEq, Bool.and_eq_true,
        Option.isNone_iff_eq_none, List.isEmpty_iff] at h
      obtain ⟨⟨ho, hp⟩, rfl⟩ := h
      exact .having e hg ho hp
    · cases h
  | orderBy terms =>
    simp only [add?, Option.ite_none_right_eq_some, Option.some.injEq, Bool.and_eq_true,
      Option.isNone_iff_eq_none, List.isEmpty_iff] at h
    obtain ⟨⟨ho, hp⟩, rfl⟩ := h
    exact .orderBy terms ho hp
  | limit n =>
    simp only [add?, Option.ite_none_right_eq_some, Option.some.injEq, Option.isNone_iff_eq_none] at h
    obtain ⟨hp, rfl⟩ := h
    exact .limit n hp
  | offset n =>
    simp only [add?] at h
    split at h
    · rename_i limit hp
      obtain rfl := Option.some.inj h
      exact .offset n hp
    · cases h

/-- Adds a clause; one that is not allowed changes nothing. -/
def add (s : Statement) (clause : Clause) : Statement :=
  (s.add? clause).getD s

def addAll (s : Statement) (clauses : List Clause) : Statement :=
  clauses.foldl add s

theorem add_eq_self_or_adds (s : Statement) (clause : Clause) :
    s.add clause = s ∨ Adds s clause (s.add clause) := by
  cases h : s.add? clause with
  | none => simp [add, h]
  | some s' =>
    have same : s.add clause = s' := by simp [add, h]
    exact .inr (same ▸ adds_of_add? h)

theorem projection_join (s : Statement) (operator : JoinOperator) (clause : JoinClause) :
    (s.join operator clause).projection = s.projection := by
  unfold join
  split <;> rfl

theorem projection_add (s : Statement) (clause : Clause) : (s.add clause).projection = s.projection := by
  rcases s.add_eq_self_or_adds clause with same | h
  · rw [same]
  · generalize s.add clause = s' at h
    cases h with
    | join operator clause => exact s.projection_join operator clause
    | _ => rfl

end Statement

end SqlSelect
