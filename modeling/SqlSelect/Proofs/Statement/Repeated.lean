import SqlSelect.Proofs.Statement.Visible
/-!
Aliases of a repeated table. The number of a declaration tells its alias from those of the other
declarations, whatever the name of the table is.
-/

namespace SqlSelect

namespace Statement

theorem count_take_lt {visits : List Occurrence} {o : Occurrence} {i j : Nat} (before : i < j)
    (h : visits[j]? = some o) : (visits.take (i + 1)).count o < (visits.take (j + 1)).count o := by
  have here : visits.take (j + 1) = visits.take j ++ [o] := by
    rw [List.take_add_one, h]
    rfl
  have kept : (visits.take (i + 1)).count o ≤ (visits.take j).count o :=
    (List.take_sublist_take_left before).count_le o
  rw [here, List.count_append, List.count_singleton_self]
  omega

theorem one_le_count_take {visits : List Occurrence} {o : Occurrence} {i : Nat} (h : visits[i]? = some o) :
    1 ≤ (visits.take (i + 1)).count o := by
  rw [List.take_add_one, h, List.count_append]
  simp

theorem two_le_declared {s : Statement} {table : String} {i j : Nat} (before : i < j)
    (hi : s.visits[i]? = some ⟨table, .declaration⟩) (hj : s.visits[j]? = some ⟨table, .declaration⟩) :
    2 ≤ s.declared table := by
  have first := one_le_count_take hi
  have second := count_take_lt before hj
  have all := (List.take_sublist (j + 1) s.visits).count_le ⟨table, .declaration⟩
  rw [← declarations_visits, ← count_declaration]
  omega

theorem autoName_of_declaration (settings : RenameSettings) {s : Statement} {table : String} {i : Nat}
    (repeated : 2 ≤ s.declared table) (h : s.visits[i]? = some ⟨table, .declaration⟩) :
    s.autoName settings i =
      some (settings.aliasFor table ((s.visits.take (i + 1)).count ⟨table, .declaration⟩)) := by
  simp only [autoName, h, Option.bind_some, if_neg (Nat.not_lt.mpr repeated)]

/-- Two declarations of a table have aliases of different numbers. -/
theorem autoName_of_declarations (settings : RenameSettings) {s : Statement} {table : String} {i j : Nat}
    (apart : i ≠ j) (hi : s.visits[i]? = some ⟨table, .declaration⟩)
    (hj : s.visits[j]? = some ⟨table, .declaration⟩) :
    ∃ k l, k ≠ l ∧ s.autoName settings i = some (settings.aliasFor table k) ∧
      s.autoName settings j = some (settings.aliasFor table l) := by
  wlog before : i < j generalizing i j
  · obtain ⟨k, l, numbers, first, second⟩ := this apart.symm hj hi (by omega)
    exact ⟨l, k, numbers.symm, second, first⟩
  · have repeated := two_le_declared before hi hj
    exact ⟨_, _, Nat.ne_of_lt (count_take_lt before hj), autoName_of_declaration settings repeated hi,
      autoName_of_declaration settings repeated hj⟩

/-- A template with the counter, as every accepted one is, never makes one alias of two numbers, even if the
table's name has placeholders in it. So the declarations of a repeated table are written with distinct aliases
in every statement. -/
theorem repeated_declarations_differ (settings : RenameSettings) :
    (settings.resolve.2 = .ok () → settings.HasCounter) ∧
    (settings.HasCounter → ∀ table n m, settings.aliasFor table n = settings.aliasFor table m → n = m) ∧
    (settings.HasCounter → settings.isAuto = true → ∀ s : Statement,
      (s.compile settings).sql = s.sqlAt (s.autoName settings) ∧
        ∀ table i j, i ≠ j → s.visits[i]? = some ⟨table, .declaration⟩ →
          s.visits[j]? = some ⟨table, .declaration⟩ →
            ∃ name other, name ≠ other ∧ s.autoName settings i = some name ∧
              s.autoName settings j = some other) := by
  refine ⟨RenameSettings.hasCounter_of_resolve, ?_, ?_⟩
  · intro counter table n m same
    exact RenameSettings.aliasFor_injective counter table same
  · intro counter auto s
    refine ⟨s.sql_compile_auto settings auto, ?_⟩
    intro table i j apart hi hj
    obtain ⟨k, l, numbers, first, second⟩ := autoName_of_declarations settings apart hi hj
    refine ⟨_, _, ?_, first, second⟩
    intro same
    exact numbers (RenameSettings.aliasFor_injective counter table same)

/-- A table with a placeholder for its name, declared three times. -/
theorem repeated_placeholders_differ :
    let table : Table := ⟨RenameSettings.counterPlaceholder, none, [RenameSettings.counterPlaceholder]⟩
    let s := (select false .all table).addAll [.join .comma ⟨table, none⟩, .join .comma ⟨table, none⟩]
    RenameSettings.standard.resolve.2 = .ok () ∧ RenameSettings.standard.HasCounter ∧
      RenameSettings.standard.isAuto = true ∧
      (∀ n m, RenameSettings.standard.aliasFor table.name n = RenameSettings.standard.aliasFor table.name m →
        n = m) ∧
      (s.compile .standard).sql = "SELECT * FROM \x7bn\x7d AS 1_1, \x7bn\x7d AS 2_2, \x7bn\x7d AS 3_3" ∧
      s.visits[0]? = some ⟨table.name, .declaration⟩ ∧ s.visits[2]? = some ⟨table.name, .declaration⟩ ∧
      ∃ name other, name ≠ other ∧ s.autoName .standard 0 = some name ∧ s.autoName .standard 2 = some other := by
  intro table s
  obtain ⟨accepts, numbers, statements⟩ := repeated_declarations_differ .standard
  have accepted : RenameSettings.standard.resolve.2 = .ok () := by decide
  have counter := accepts accepted
  obtain ⟨sql, differ⟩ := statements counter rfl s
  exact ⟨accepted, counter, rfl, numbers counter table.name, sql.trans (by cbv), by decide, by decide,
    differ table.name 0 2 (by decide) (by decide) (by decide)⟩

end Statement

end SqlSelect
