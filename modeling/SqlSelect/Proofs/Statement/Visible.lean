import SqlSelect.Proofs.Rename.Aliases
import SqlSelect.Proofs.Statement.Building
import SqlSelect.Proofs.Statement.Disambiguation
/-!
Names of sources under automatic renaming. Each declaration of a repeated table has an alias of its own
among the declarations of that table; nothing keeps it apart from the names of other tables, since one
template makes the aliases of all of them.
-/

namespace SqlSelect

open RenameMap (declarations declarations_append)

/-- The declaration of a source shows the name that its columns are qualified with. -/
theorem Table.sourceAs_eq (t : Table) (name? : Option String) :
    t.sourceAs name? = t.qualifierAs name? ∨ t.sourceAs name? = t.name ++ " AS " ++ t.qualifierAs name? := by
  unfold sourceAs qualifierAs
  cases t.aliasAs name? with
  | none => exact .inl rfl
  | some name => exact .inr rfl

theorem Table.isRenameable_of_plain {t : Table} (own : t.alias? = none) (name : isIdentifier t.name = true) :
    t.isRenameable = true := by
  refine isRenameable_iff.mpr ⟨?_, own⟩
  intro empty
  rw [empty] at name
  exact absurd name (by decide)

/-! ## Ordinals -/

/-- Each name of a list with its number among its equals; the names in `seen` stand before the list. -/
def ordinals (seen : List String) : List String → List (String × Nat)
  | [] => []
  | name :: rest => (name, seen.count name + 1) :: ordinals (name :: seen) rest

theorem mem_ordinals {seen names : List String} {name : String} {k : Nat} :
    (name, k) ∈ ordinals seen names ↔
      seen.count name < k ∧ k ≤ seen.count name + names.count name := by
  induction names generalizing seen with
  | nil => simp [ordinals]
  | cons first rest ih =>
    by_cases same : first = name
    · subst same
      simp only [ordinals, List.mem_cons, Prod.mk.injEq, true_and, ih, List.count_cons_self]
      omega
    · simp [ordinals, ih, same, Ne.symm same]

theorem nodup_ordinals (seen names : List String) : (ordinals seen names).Nodup := by
  induction names generalizing seen with
  | nil => simp [ordinals]
  | cons first rest ih =>
    refine List.nodup_cons.mpr ⟨?_, ih _⟩
    rw [mem_ordinals, List.count_cons_self]
    omega

/-! ## Sources -/

namespace Join

/-- The names under which joined tables are visible; the first occurrence has the number `i`. -/
def listVisibleAt (names : Nat → Option String) : List Join → Nat → List String
  | [], _ => []
  | j :: rest, i => j.table.qualifierAs (names i) :: listVisibleAt names rest (i + j.visits.length)

end Join

namespace Statement

/-- The tables in the order of the FROM clause. -/
def sources (s : Statement) : List Table :=
  s.table :: s.joins.map Join.table

/-- The names under which the sources are visible: an alias where one is rendered, else the table name. -/
def visibleAt (s : Statement) (names : Nat → Option String) : List String :=
  s.table.qualifierAs (names 0) ::
    Join.listVisibleAt names s.joins (s.table.visits .declaration).length

section

variable (s : Statement) (settings : RenameSettings)

/-- The name of the `k`-th declaration of a table. -/
def visibleName (table : String) (k : Nat) : String :=
  if s.declared table < 2 then table else settings.aliasFor table k

/-- Each source's table with the number of the declaration. -/
def declarationsInOrder : List (String × Nat) :=
  ordinals [] (s.sources.map Table.name)

theorem nodup_declarationsInOrder : s.declarationsInOrder.Nodup :=
  nodup_ordinals [] _

theorem sql_compile_auto (auto : settings.isAuto = true) :
    (s.compile settings).sql = s.sqlAt (s.autoName settings) := by
  by_cases once : ∀ table, s.declared table < 2
  · rw [s.compile_of_declared_once settings once, s.autoName_of_declared_once settings once]
    exact s.sql_render_off
  · obtain ⟨table, twice⟩ := Classical.not_forall.mp once
    rw [s.compile_of_declared_twice settings auto (Nat.not_lt.mp twice)]
    exact s.sql_compileRenamed_disambiguate settings

theorem qualifierAs_autoName {t : Table} (renameable : t.isRenameable = true) {seen later : List Occurrence}
    (h : s.visits = seen ++ ⟨t.name, .declaration⟩ :: later) :
    t.qualifierAs (s.autoName settings seen.length) =
      s.visibleName settings t.name (declarations seen t.name + 1) := by
  have here : s.visits.take (seen.length + 1) = seen ++ [⟨t.name, .declaration⟩] := by
    simp [h, List.take_append, List.take_of_length_le]
  have found : s.visits[seen.length]? = some ⟨t.name, .declaration⟩ := by
    simp [h]
  by_cases once : s.declared t.name < 2
  · rw [Table.qualifierAs, Table.aliasAs_eq, if_pos renameable, autoName, found, Option.bind_some, if_pos once,
      visibleName, if_pos once, Option.getD_none]
  · rw [Table.qualifierAs, Table.aliasAs_eq, if_pos renameable, autoName, found, Option.bind_some, if_neg once,
      visibleName, if_neg once, Option.getD_some, here, List.count_append, count_declaration]
    simp

/-- The joins of a statement from some point on: `seen` are the occurrences up to there, and `before` the
tables that they declare. -/
theorem listVisibleAt_autoName (joins : List Join) (seen later : List Occurrence) (before : List String)
    (renameable : ∀ j ∈ joins, j.table.isRenameable = true)
    (h : s.visits = seen ++ joins.flatMap Join.visits ++ later)
    (counted : ∀ table, before.count table = declarations seen table) :
    Join.listVisibleAt (s.autoName settings) joins seen.length =
      (ordinals before (joins.map fun j => j.table.name)).map
        fun declaration => s.visibleName settings declaration.1 declaration.2 := by
  induction joins generalizing seen before with
  | nil => rfl
  | cons j rest ih =>
    have first := renameable j List.mem_cons_self
    let references := (j.clause.constraint?.map JoinConstraint.references).getD []
    have declares : j.visits = ⟨j.table.name, .declaration⟩ :: references := by
      simp [Join.visits, Table.visits_eq, first, references]
    have visits : s.visits =
        seen ++ ⟨j.table.name, .declaration⟩ :: (references ++ (rest.flatMap Join.visits ++ later)) := by
      simp [h, declares]
    have after : s.visits = seen ++ j.visits ++ rest.flatMap Join.visits ++ later := by
      simp [h]
    have countedAfter : ∀ table,
        (j.table.name :: before).count table = declarations (seen ++ j.visits) table := by
      intro table
      rw [declarations_append, j.declarations_visits, ← counted table, List.count_cons, first]
      rfl
    have later := ih (seen ++ j.visits) (j.table.name :: before)
      (fun k hk => renameable k (List.mem_cons_of_mem _ hk)) after countedAfter
    rw [List.length_append] at later
    simp only [Join.listVisibleAt, List.map_cons, ordinals, later, counted,
      s.qualifierAs_autoName settings first visits]

variable {s} (plain : ∀ t ∈ s.sources, t.alias? = none ∧ isIdentifier t.name = true)
include plain

theorem isRenameable_of_mem_sources {t : Table} (h : t ∈ s.sources) : t.isRenameable = true :=
  Table.isRenameable_of_plain (plain t h).1 (plain t h).2

theorem declared_eq_count (table : String) : s.declared table = (s.sources.map Table.name).count table := by
  rw [List.count_eq_countP, List.countP_map]
  refine List.countP_congr fun t ht => ?_
  simp [isRenameable_of_mem_sources plain ht]

theorem isIdentifier_of_declared {table : String} (h : 1 ≤ s.declared table) : isIdentifier table = true := by
  rw [declared_eq_count plain] at h
  obtain ⟨t, ht, rfl⟩ := List.mem_map.mp (List.count_pos_iff.mp h)
  exact (plain t ht).2

theorem mem_declarationsInOrder {table : String} {k : Nat} :
    (table, k) ∈ s.declarationsInOrder ↔ 1 ≤ k ∧ k ≤ s.declared table := by
  rw [declarationsInOrder, mem_ordinals, declared_eq_count plain, List.count_nil, Nat.zero_add]
  rfl

theorem visibleAt_autoName : s.visibleAt (s.autoName settings) =
    s.declarationsInOrder.map fun declaration => s.visibleName settings declaration.1 declaration.2 := by
  have renameable := isRenameable_of_mem_sources plain (t := s.table) List.mem_cons_self
  have declares : s.table.visits .declaration = [⟨s.table.name, .declaration⟩] := by
    simp [Table.visits_eq, renameable]
  let later := s.projection.references ++ s.tailReferences
  have visits : s.visits = [] ++ ⟨s.table.name, .declaration⟩ :: (s.joins.flatMap Join.visits ++ later) := by
    simp [Statement.visits, sourceVisits, declares, later]
  have counted : ∀ table, [s.table.name].count table =
      declarations [⟨s.table.name, .declaration⟩] table := by
    intro table
    simp [declarations, List.count_cons]
  have joined := s.listVisibleAt_autoName settings s.joins [⟨s.table.name, .declaration⟩] later [s.table.name]
    (fun j hj => isRenameable_of_mem_sources plain (List.mem_cons_of_mem _ (List.mem_map_of_mem hj)))
    (by simpa using visits) counted
  have first := s.qualifierAs_autoName settings renameable visits
  simp only [List.length_nil, List.length_singleton] at first joined
  simp only [visibleAt, declares, List.length_singleton, first, joined, declarationsInOrder, sources,
    List.map_cons, ordinals, List.map_map]
  rfl

end

/-! ## Distinct names -/

variable {s : Statement} {settings : RenameSettings}

theorem visibleName_injective (counter : settings.HasCounter) {table : String} {k l : Nat}
    (hk : 1 ≤ k ∧ k ≤ s.declared table) (hl : 1 ≤ l ∧ l ≤ s.declared table)
    (same : s.visibleName settings table k = s.visibleName settings table l) : k = l := by
  by_cases once : s.declared table < 2
  · omega
  · simp only [visibleName, once, if_false] at same
    exact RenameSettings.aliasFor_injective counter table same

theorem nodup_visibleAt_autoName (counter : settings.HasCounter)
    (plain : ∀ t ∈ s.sources, t.alias? = none ∧ isIdentifier t.name = true) :
    (s.visibleAt (s.autoName settings)).Nodup ↔
      ∀ table other k l, table ≠ other → 1 ≤ k ∧ k ≤ s.declared table → 1 ≤ l ∧ l ≤ s.declared other →
        s.visibleName settings table k ≠ s.visibleName settings other l := by
  rw [visibleAt_autoName settings plain, List.nodup_map_iff_inj_on s.nodup_declarationsInOrder]
  constructor
  · intro apart table other k l different hk hl same
    have equal := apart (table, k) ((mem_declarationsInOrder plain).mpr hk) (other, l)
      ((mem_declarationsInOrder plain).mpr hl) same
    exact different (congrArg Prod.fst equal)
  · rintro apart ⟨table, k⟩ hk ⟨other, l⟩ hl same
    rw [mem_declarationsInOrder plain] at hk hl
    by_cases equal : table = other
    · subst equal
      rw [visibleName_injective counter hk hl same]
    · exact (apart table other k l equal hk hl same).elim

/-- With the default template the only clash is that of an alias and a table of that name: a table that is
declared once is called `t_k`, and the table `t` is declared `k` times or more. -/
theorem nodup_visibleAt_of_default (usual : settings.template = RenameSettings.defaultTemplate)
    (plain : ∀ t ∈ s.sources, t.alias? = none ∧ isIdentifier t.name = true) :
    (s.visibleAt (s.autoName settings)).Nodup ↔
      ∀ table k, 2 ≤ s.declared table → 1 ≤ k ∧ k ≤ s.declared table →
        s.declared (table ++ "_" ++ String.ofList (Numeral.ofNat k)) ≠ 1 := by
  rw [nodup_visibleAt_autoName (RenameSettings.hasCounter_of_default usual) plain]
  constructor
  · intro apart table k repeated hk once
    have identifier : isIdentifier table = true := isIdentifier_of_declared plain (by omega)
    have expanded := RenameSettings.aliasFor_default usual identifier k
    rw [← expanded] at once
    have different : table ≠ settings.aliasFor table k := by
      intro same
      rw [← same] at once
      omega
    refine apart table (settings.aliasFor table k) k 1 different hk ⟨Nat.le_refl 1, Nat.le_of_eq once.symm⟩ ?_
    simp [visibleName, once, Nat.not_lt.mpr repeated]
  · intro free table other k l different hk hl same
    have identifier : isIdentifier table = true := isIdentifier_of_declared plain (by omega)
    have identifierOther : isIdentifier other = true := isIdentifier_of_declared plain (by omega)
    by_cases once : s.declared table < 2 <;> by_cases onceOther : s.declared other < 2 <;>
      simp only [visibleName, once, onceOther, if_true, if_false] at same
    · exact different same
    · have taken := free other l (by omega) hl
      rw [← RenameSettings.aliasFor_default usual identifierOther, ← same] at taken
      omega
    · have taken := free table k (by omega) hk
      rw [← RenameSettings.aliasFor_default usual identifier, same] at taken
      omega
    · exact different (RenameSettings.aliasFor_default_injective usual identifier identifierOther same).1

/-- Each source is written as the name it is visible under, or as its table with that name behind it. Two declarations
of one table never share a name, but nothing is checked between tables: all names are distinct just if no table has a
name that another one has, be it an alias or the table's own name; with the default template, if no table that is
declared once is called as an alias of another is. -/
theorem visible_names_distinct_iff (s : Statement) (settings : RenameSettings)
    (accepted : settings.resolve.2 = .ok ()) (auto : settings.isAuto = true)
    (plain : ∀ t ∈ s.sources, t.alias? = none ∧ isIdentifier t.name = true) :
    let names := s.visibleAt (s.autoName settings)
    (s.compile settings).sql = s.sqlAt (s.autoName settings) ∧
      (∀ (t : Table) (name? : Option String), t.sourceAs name? = t.qualifierAs name? ∨
        t.sourceAs name? = t.name ++ " AS " ++ t.qualifierAs name?) ∧
      names = s.declarationsInOrder.map (fun declaration => s.visibleName settings declaration.1 declaration.2) ∧
      (∀ table k l, 1 ≤ k ∧ k ≤ s.declared table → 1 ≤ l ∧ l ≤ s.declared table →
        s.visibleName settings table k = s.visibleName settings table l → k = l) ∧
      (names.Nodup ↔ ∀ table other k l, table ≠ other → 1 ≤ k ∧ k ≤ s.declared table →
        1 ≤ l ∧ l ≤ s.declared other →
          s.visibleName settings table k ≠ s.visibleName settings other l) ∧
      (settings.template = RenameSettings.defaultTemplate →
        (names.Nodup ↔ ∀ table k, 2 ≤ s.declared table → 1 ≤ k ∧ k ≤ s.declared table →
          s.declared (table ++ "_" ++ String.ofList (Numeral.ofNat k)) ≠ 1)) := by
  intro names
  have counter := RenameSettings.hasCounter_of_resolve accepted
  refine ⟨s.sql_compile_auto settings auto, Table.sourceAs_eq, visibleAt_autoName settings plain, ?_, ?_, ?_⟩
  · intro table k l hk hl same
    exact visibleName_injective counter hk hl same
  · exact nodup_visibleAt_autoName counter plain
  · intro usual
    exact nodup_visibleAt_of_default usual plain

/-- A table is joined with itself and with another one, which is joined twice. -/
def borrowings : Statement :=
  let person : Table := ⟨"person", none, ["person", "book"]⟩
  let book : Table := ⟨"book", none, []⟩
  (select false .all person).addAll
    [.join .comma ⟨person, none⟩, .join .comma ⟨book, none⟩, .join .comma ⟨book, none⟩]

theorem borrowings_distinct :
    RenameSettings.standard.resolve.2 = .ok () ∧ RenameSettings.standard.isAuto = true ∧
      (∀ t ∈ borrowings.sources, t.alias? = none ∧ isIdentifier t.name = true) ∧
      (borrowings.compile .standard).sql =
        "SELECT * FROM person AS person_1, person AS person_2, book AS book_1, book AS book_2" ∧
      borrowings.visibleAt (borrowings.autoName .standard) = ["person_1", "person_2", "book_1", "book_2"] ∧
      ∀ k l, 1 ≤ k ∧ k ≤ borrowings.declared "person" → 1 ≤ l ∧ l ≤ borrowings.declared "book" →
        borrowings.visibleName .standard "person" k ≠ borrowings.visibleName .standard "book" l := by
  have plain : ∀ t ∈ borrowings.sources, t.alias? = none ∧ isIdentifier t.name = true := by decide
  obtain ⟨sql, -, names, -, apart, -⟩ := visible_names_distinct_iff borrowings .standard (by decide) rfl plain
  have listed : borrowings.visibleAt (borrowings.autoName .standard) =
      ["person_1", "person_2", "book_1", "book_2"] := names.trans (by cbv)
  refine ⟨by decide, rfl, plain, sql.trans (by cbv), listed, ?_⟩
  intro k l hk hl
  exact apart.mp (by rw [listed]; decide) "person" "book" k l (by decide) hk hl

/-- The template without the table's name is accepted, and two repeated tables get the same aliases. -/
theorem borrowings_clash :
    let numbersOnly : RenameSettings := ⟨some true, some "t\x7bn\x7d"⟩
    numbersOnly.resolve.2 = .ok () ∧ numbersOnly.isAuto = true ∧
      (∀ t ∈ borrowings.sources, t.alias? = none ∧ isIdentifier t.name = true) ∧
      (borrowings.compile numbersOnly).sql =
        "SELECT * FROM person AS t1, person AS t2, book AS t1, book AS t2" ∧
      borrowings.visibleAt (borrowings.autoName numbersOnly) = ["t1", "t2", "t1", "t2"] ∧
      ¬ (borrowings.visibleAt (borrowings.autoName numbersOnly)).Nodup := by
  intro numbersOnly
  have listed : borrowings.visibleAt (borrowings.autoName numbersOnly) = ["t1", "t2", "t1", "t2"] := by cbv
  have sql := borrowings.sql_compile_auto numbersOnly rfl
  refine ⟨by decide, rfl, by decide, sql.trans (by cbv), listed, ?_⟩
  rw [listed]
  decide

end Statement

end SqlSelect
