import Mathlib
import SqlSelect.Proofs.Rename.Queues
import SqlSelect.Proofs.Statement.Declarations
import SqlSelect.Proofs.Statement.Renamed
/-!
Statements compiled with automatic renaming. The second pass makes the lookups that the first has noted
down, so the text is that without renaming but for the aliases of repeated tables.
-/

namespace SqlSelect

open RenameMap (declarations disambiguate)

namespace Statement

variable (settings : RenameSettings)

/-- The name of the `i`-th occurrence: the `k`-th declaration of a repeated table has the alias of `k`,
its references have the alias of its first declaration, and nothing else has a name. -/
def autoName (s : Statement) (i : Nat) : Option String :=
  s.visits[i]?.bind fun o =>
    if s.declared o.table < 2 then none
    else some (match o.kind with
      | .declaration => settings.aliasFor o.table ((s.visits.take (i + 1)).count o)
      | .reference => settings.aliasFor o.table 1)

/-- The lookups that rendering under a renaming makes, in order. -/
def lookups (s : Statement) (r : Renaming) : List Occurrence :=
  let sources := Rendering.lookups s.sourcePieces r
  let r := (Rendering.under s.sourcePieces r).2
  let projection := Rendering.lookups s.projection.projected.pieces r
  let r := (Rendering.under s.projection.projected.pieces r).2
  sources ++ projection ++ Rendering.lookups s.tailPieces r

theorem lookups_eq (s : Statement) (r : Renaming) : s.lookups r = s.visits := by
  simp only [lookups, Rendering.lookups_eq, occurrences_sourcePieces, Projection.occurrences_pieces,
    occurrences_tailPieces, visits]

theorem log_render_recording (s : Statement) : (s.render (.recording [])).after.log = s.visits := by
  rw [render_eq, Renaming.after_recording]
  rfl

theorem count_declaration (table : String) (seen : List Occurrence) :
    seen.count ⟨table, .declaration⟩ = declarations seen table := by
  refine List.countP_congr fun o _ => ?_
  rcases o with ⟨name, kind⟩
  simp

theorem aliasAt_disambiguate (s : Statement) :
    (disambiguate s.visits settings).aliasAt s.visits = s.autoName settings := by
  funext i
  rw [RenameMap.aliasAt_disambiguate, autoName]
  cases h : s.visits[i]? with
  | none => rfl
  | some o =>
    have here : s.visits.take (i + 1) = s.visits.take i ++ [o] := by
      rw [List.take_add_one, h]
      rfl
    rcases o with ⟨table, kind⟩
    cases kind <;> simp [declarations_visits, RenameMap.aliasAfter, here, count_declaration]

theorem isEmpty_disambiguate (s : Statement) :
    (disambiguate s.visits settings).isEmpty = true ↔ ∀ table, s.declared table < 2 := by
  simp only [RenameMap.isEmpty_disambiguate, declarations_visits]

theorem compile_of_declared_once (s : Statement) (h : ∀ table, s.declared table < 2) :
    s.compile settings = s.finish (s.render .off) := by
  have empty := (s.isEmpty_disambiguate settings).mpr h
  unfold compile
  rw [log_render_recording]
  split <;> simp [empty]

theorem compile_of_declared_twice (s : Statement) (auto : settings.isAuto = true) {table : String}
    (h : 2 ≤ s.declared table) :
    s.compile settings = s.compileRenamed (disambiguate s.visits settings) := by
  have full : (disambiguate s.visits settings).isEmpty = false := by
    rw [Bool.eq_false_iff]
    intro empty
    have := (s.isEmpty_disambiguate settings).mp empty table
    omega
  unfold compile
  simp [auto, log_render_recording, full]

theorem sql_compileRenamed_disambiguate (s : Statement) :
    (s.compileRenamed (disambiguate s.visits settings)).sql = s.sqlAt (s.autoName settings) := by
  simp only [compileRenamed, finish, render_eq, Renaming.nameAt_queued, aliasAt_disambiguate]

theorem autoName_of_declared_once (s : Statement) (h : ∀ table, s.declared table < 2) :
    s.autoName settings = fun _ => none := by
  funext i
  cases hi : s.visits[i]? <;> simp [autoName, hi, h]

/-- Automatic renaming is a substitution of aliases for the names of repeated tables, and the second pass
repeats the lookups of the first until every queue is empty. -/
theorem compile_auto_substitutes (s : Statement) (auto : settings.isAuto = true)
    (template? : Option String) :
    let plain := s.compile ⟨some false, template?⟩
    let log := (s.render (.recording [])).after.log
    let m := disambiguate log settings
    plain.sql = s.sqlAt (fun _ => none) ∧
      (s.compile settings).sql = s.sqlAt (s.autoName settings) ∧
      ((∀ table, s.declared table < 2) → s.compile settings = plain) ∧
      ((∃ table, 2 ≤ s.declared table) →
        s.compile settings = s.compileRenamed m ∧ log = s.visits ∧ s.lookups (.queued m) = log ∧
          ∃ left, (s.render (.queued m)).after = .queued left ∧ left.isEmpty = true) := by
  intro plain log m
  have hlog : log = s.visits := s.log_render_recording
  have hm : m = disambiguate s.visits settings := by rw [← hlog]
  refine ⟨s.sql_render_off, ?_, ?_, ?_⟩
  · by_cases h : ∀ table, s.declared table < 2
    · rw [s.compile_of_declared_once settings h, s.autoName_of_declared_once settings h]
      exact s.sql_render_off
    · obtain ⟨table, twice⟩ := Classical.not_forall.mp h
      rw [s.compile_of_declared_twice settings auto (Nat.not_lt.mp twice)]
      exact s.sql_compileRenamed_disambiguate settings
  · exact s.compile_of_declared_once settings
  · rintro ⟨table, twice⟩
    refine ⟨?_, hlog, ?_, m.after s.visits, ?_, ?_⟩
    · rw [hm, s.compile_of_declared_twice settings auto twice]
    · rw [lookups_eq, hlog]
    · rw [render_eq, Renaming.after_queued]
    · rw [hm]
      exact RenameMap.isEmpty_after_disambiguate settings s.visits

/-- A person, the person's superior and a friend: `person` stands twice without an alias, once with one. -/
def superiors : Statement :=
  let person : Table := ⟨"person", none, ["person", "company"]⟩
  let column (t : Table) (name : String) : Column := .field ⟨t, none, .text, false⟩ name
  let friend := person.aliased "friend"
  ⟨false, .columns (column person "name") [column friend "name"], person,
    [⟨.left, person, some (.condition (.eqExpr (.column (column person "boss")) (.column (column friend "id"))))⟩,
      ⟨.comma, friend, none⟩],
    some (.isNull (.column (column person "left")) false), none, [], none⟩

theorem compile_superiors :
    RenameSettings.standard.isAuto = true ∧ 2 ≤ superiors.declared "person" ∧
      (superiors.compile .standard).sql =
        "SELECT person_1.name,friend.name FROM person AS person_1 LEFT JOIN person AS person_2 " ++
          "ON person_1.boss = friend.id, person AS friend WHERE person_1.left IS NULL" ∧
      superiors.compile .standard =
        superiors.compileRenamed (disambiguate (superiors.render (.recording [])).after.log .standard) := by
  have on := compile_auto_substitutes .standard superiors rfl none
  have twice : 2 ≤ superiors.declared "person" := by decide
  exact ⟨rfl, twice, on.2.1.trans (by cbv), (on.2.2.2 ⟨"person", twice⟩).1⟩

end Statement

end SqlSelect
