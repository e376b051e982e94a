import SqlSelect.Proofs.Numbered.Statement
import SqlSelect.Proofs.Reads
import SqlSelect.Proofs.Statement.Compilation
import SqlSelect.Proofs.Statement.Sections
/-!
The observed and the selected tables of a statement. They are gathered by name while the clauses are
read, and take in every table that the recording pass meets outside `GROUP BY`, `ORDER BY` and `USING`.
-/

namespace SqlSelect

open Rendering

namespace Statement

theorem mem_observeOptional (e? : Option Expression) (name : String) (names : NameSet) :
    name ∈ observeOptional e? names ↔ (∃ e, e? = some e ∧ e.Reads name) ∨ name ∈ names := by
  cases e? with
  | none => simp [observeOptional]
  | some e => simp [observeOptional, e.mem_observe]

/-- The condition on groups, if there is one. -/
def having? (s : Statement) : Option Expression :=
  s.grouping?.bind Grouping.having?

theorem mem_observed (s : Statement) (name : String) :
    name ∈ s.observed ↔
      s.table.name = name ∨ (∃ j ∈ s.joins, j.table.name = name) ∨
      (∃ c ∈ s.projection.toList, c.Reads name) ∨
      (∃ j ∈ s.joins, ∃ e, j.condition? = some e ∧ e.Reads name) ∨
      (∃ e, s.condition? = some e ∧ e.Reads name) ∨ ∃ e, s.having? = some e ∧ e.Reads name := by
  simp only [observed, mem_observeOptional, Join.mem_foldl_observe, Std.ExtTreeSet.mem_insert,
    Column.mem_listObserve, having?, and_or_left, exists_or, Std.LawfulEqCmp.compare_eq_iff_eq,
    Std.ExtTreeSet.not_mem_empty, or_false]
  grind

theorem mem_selected (s : Statement) {names : NameSet} (h : s.selected? = some names) (name : String) :
    name ∈ names ↔ ∃ c ∈ s.projection.toList, c.Reads name := by
  simp only [selected?, Option.ite_none_left_eq_some, Option.some.injEq] at h
  obtain ⟨-, rfl⟩ := h
  simp [Column.mem_listObserve]

theorem selected_eq_none_iff (s : Statement) :
    s.selected? = none ↔
      s.projection = .all ∨ ∀ c ∈ s.projection.toList, ∀ t, c.HasOwner t → t.isAnonymous = true := by
  have empty : s.selected? = none ↔ ∀ name, ¬ ∃ c ∈ s.projection.toList, c.Reads name := by
    simp [selected?, Std.ExtTreeSet.eq_empty_iff_forall_not_mem, Column.mem_listObserve]
  rw [empty]
  constructor
  · intro unread
    refine .inr fun c member t owner => ?_
    by_contra named
    exact unread t.name ⟨c, member, t, owner, Bool.eq_false_iff.mpr named, rfl⟩
  · rintro (all | anonymous) name ⟨c, member, t, owner, named, same⟩
    · rw [all] at member
      cases member
    · rw [anonymous c member t owner] at named
      cases named

/-! ## Logged occurrences -/

end Statement

/-- `FROM` with its joins, `ON`, the projection, `WHERE` and `HAVING`. -/
def observedSections : List Section :=
  [.sources, .condition, .projection, .filter, .having]

/-- What the recording pass notes down in one section. -/
def Sections.logged (x : Section × List Piece) : List Occurrence :=
  (under x.2 (.recording [])).2.log

theorem Sections.logged_eq (x : Section × List Piece) : Sections.logged x = occurrences x.2 := by
  have pass := under_eq x.2 (.recording []) [] []
  rw [Renaming.after_nil] at pass
  rw [Sections.logged, pass, List.nil_append, Renaming.after_recording]
  rfl

theorem Table.name_of_mem_visits {t : Table} {kind : OccurrenceKind} {o : Occurrence}
    (h : o ∈ t.visits kind) : t.name = o.table := by
  rw [visits] at h
  split at h
  · obtain rfl := List.mem_singleton.mp h
    rfl
  · cases h

theorem Join.reads_of_mem_sections (j : Join) {x : Section × List Piece} (h : x ∈ j.sections)
    {o : Occurrence} (ho : o ∈ occurrences x.2) :
    j.table.name = o.table ∨ ∃ e, j.condition? = some e ∧ e.Reads o.table := by
  rw [sections, List.mem_cons, Option.mem_toList, Option.map_eq_some_iff] at h
  rcases h with rfl | ⟨constraint, constrained, rfl⟩
  · rw [occurrences_text, occurrences_source, occurrences_nil, List.append_nil] at ho
    exact .inl (Table.name_of_mem_visits ho)
  · rw [JoinConstraint.occurrences_pieces] at ho
    cases constraint with
    | condition e => exact .inr ⟨e, by rw [condition?, constrained], e.reads_of_mem_references ho⟩
    | columns cs => cases ho

namespace Statement

theorem reads_of_mem_tailSections (s : Statement) {x : Section × List Piece} (h : x ∈ s.tailSections)
    (read : x.1 ∈ observedSections) {o : Occurrence} (ho : o ∈ occurrences x.2) :
    (∃ e, s.condition? = some e ∧ e.Reads o.table) ∨ ∃ e, s.having? = some e ∧ e.Reads o.table := by
  simp only [tailSections, List.mem_append, Option.mem_toList, Option.map_eq_some_iff,
    List.mem_singleton] at h
  rcases h with ((⟨e, filtered, rfl⟩ | grouped) | rfl) | ⟨p, -, rfl⟩
  · rw [occurrences_text, e.occurrences_pieces] at ho
    exact .inl ⟨e, filtered, e.reads_of_mem_references ho⟩
  · cases hg : s.grouping? with
    | none => simp [hg] at grouped
    | some g =>
      simp only [hg, Option.map_some, Option.getD_some, Grouping.sections, List.mem_cons,
        Option.mem_toList, Option.map_eq_some_iff] at grouped
      rcases grouped with rfl | ⟨e, having, rfl⟩
      · simp [observedSections] at read
      · rw [occurrences_text, e.occurrences_pieces] at ho
        refine .inr ⟨e, ?_, e.reads_of_mem_references ho⟩
        rw [having?, hg, Option.bind_some, having]
  · simp [observedSections] at read
  · simp [observedSections] at read

theorem observed_of_mem_sections (s : Statement) {x : Section × List Piece} (h : x ∈ s.sections)
    (read : x.1 ∈ observedSections) {o : Occurrence}
    (ho : o ∈ occurrences x.2) : o.table ∈ s.observed := by
  rw [mem_observed]
  simp only [sections, List.cons_append, List.mem_cons, List.mem_append, List.mem_flatMap] at h
  rcases h with rfl | rfl | rfl | ⟨j, joined, inside⟩ | tail
  · simp [observedSections] at read
  · rw [Projection.occurrences_pieces, Projection.references, Column.listReferences_eq] at ho
    obtain ⟨c, member, inside⟩ := List.mem_flatMap.mp ho
    exact .inr (.inr (.inl ⟨c, member, c.reads_of_mem_references inside⟩))
  · rw [occurrences_text, occurrences_source, occurrences_nil, List.append_nil] at ho
    exact .inl (Table.name_of_mem_visits ho)
  · rcases j.reads_of_mem_sections inside ho with same | reads
    · exact .inr (.inl ⟨j, joined, same⟩)
    · exact .inr (.inr (.inr (.inl ⟨j, joined, reads⟩)))
  · rcases s.reads_of_mem_tailSections tail read ho with filter | having
    · exact .inr (.inr (.inr (.inr (.inl filter))))
    · exact .inr (.inr (.inr (.inr (.inr having))))

/-- The recording pass visits the sections, the sources before the projection. -/
theorem perm_log_sections (s : Statement) :
    (s.render (.recording [])).after.log.Perm (s.sections.flatMap Sections.logged) := by
  have log : (s.render (.recording [])).after.log = s.visits := by
    rw [render_eq, Renaming.after_recording]
    rfl
  have logged : s.sections.flatMap Sections.logged =
      s.projection.references ++ s.sourceVisits ++ s.tailReferences := by
    rw [List.flatMap_congr fun x _ => Sections.logged_eq x]
    have whole := congrArg occurrences s.pieces_sections
    rw [Sections.pieces, occurrences_eq, List.flatMap_assoc,
      List.flatMap_congr fun x _ => (occurrences_eq x.2).symm] at whole
    rw [whole]
    simp only [List.cons_append, occurrences_text, occurrences_append, Projection.occurrences_pieces,
      occurrences_sourcePieces, occurrences_tailPieces]
  rw [log, logged, visits]
  exact List.perm_append_comm.append_right _

/-- The observed tables are exactly the sources and what is read outside `GROUP BY`, `ORDER BY` and
`USING`, so every table that may be renamed there is among them. The selected tables are those that the
projection reads. -/
theorem observed_tables_exact (s : Statement) (way : Compilation) :
    let compiled := s.compileBy way
    (∀ name, name ∈ compiled.observed ↔
      s.table.name = name ∨ (∃ j ∈ s.joins, j.table.name = name) ∨
      (∃ c ∈ s.projection.toList, c.Reads name) ∨
      (∃ j ∈ s.joins, ∃ e, j.condition? = some e ∧ e.Reads name) ∨
      (∃ e, s.condition? = some e ∧ e.Reads name) ∨ ∃ e, s.having? = some e ∧ e.Reads name) ∧
    (s.render (.recording [])).after.log.Perm (s.sections.flatMap Sections.logged) ∧
    (∀ x ∈ s.sections, x.1 ∈ observedSections → ∀ o ∈ Sections.logged x, o.table ∈ compiled.observed) ∧
    (compiled.selected? = none ↔
      s.projection = .all ∨ ∀ c ∈ s.projection.toList, ∀ t, c.HasOwner t → t.isAnonymous = true) ∧
    (∀ names, compiled.selected? = some names →
      (∀ name, name ∈ names ↔ ∃ c ∈ s.projection.toList, c.Reads name) ∧
        ∀ name ∈ names, name ∈ compiled.observed) := by
  intro compiled
  obtain ⟨r, way⟩ := s.exists_render_eq_compileBy way
  have observed : compiled.observed = s.observed := congrArg Compiled.observed way
  have selected : compiled.selected? = s.selected? := congrArg Compiled.selected? way
  rw [observed, selected]
  refine ⟨s.mem_observed, s.perm_log_sections, ?_, s.selected_eq_none_iff, ?_⟩
  · intro x member read o logged
    rw [Sections.logged_eq] at logged
    exact s.observed_of_mem_sections member read logged
  · intro names some
    refine ⟨s.mem_selected some, fun name member => ?_⟩
    exact (s.mem_observed name).mpr (.inr (.inr (.inl ((s.mem_selected some name).mp member))))

end Statement

end SqlSelect
