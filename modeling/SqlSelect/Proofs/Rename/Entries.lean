import SqlSelect.Proofs.Rename.Queues
/-!
Entries of the map that disambiguation builds. A table's entry is made of the table's own occurrences, whatever
stands between them.
-/

namespace SqlSelect

namespace RenameMap

/-- The occurrences of one table, in their order. -/
def occurrencesOf (table : String) (visits : List Occurrence) : List Occurrence :=
  visits.filter fun o => o.table == table

variable (settings : RenameSettings)

/-- One alias for each occurrence of a table that `n` declarations come before: a declaration has that of its own
number, and a reference that of the first. -/
def ownAliases (table : String) (n : Nat) : List Occurrence → List String
  | [] => []
  | ⟨_, .declaration⟩ :: rest => settings.aliasFor table (n + 1) :: ownAliases table (n + 1) rest
  | ⟨_, .reference⟩ :: rest => settings.aliasFor table 1 :: ownAliases table n rest

theorem length_occurrencesOf (table : String) (visits : List Occurrence) :
    (occurrencesOf table visits).length = lookupsOf table visits :=
  List.countP_eq_length_filter.symm

theorem declarations_occurrencesOf (table : String) (visits : List Occurrence) :
    declarations (occurrencesOf table visits) table = declarations visits table := by
  rw [occurrencesOf, declarations, List.countP_filter]
  refine List.countP_congr fun o _ => ?_
  simp only [Bool.and_eq_true]
  exact ⟨And.left, fun h => ⟨h, h.1⟩⟩

/-- Occurrences of other tables do not change a number. -/
theorem aliasesFrom_eq_ownAliases (table : String) (seen visits : List Occurrence) :
    aliasesFrom settings table seen visits =
      ownAliases settings table (declarations seen table) (occurrencesOf table visits) := by
  induction visits generalizing seen with
  | nil => rfl
  | cons o rest ih =>
    rw [aliasesFrom, ih, declarations_append]
    rcases o with ⟨name, kind⟩
    by_cases own : name = table
    · subst own
      cases kind <;> simp [occurrencesOf, ownAliases, aliasAfter, declarations]
    · simp [occurrencesOf, declarations, own]

/-- Nothing is queued for a table that is declared fewer than twice. -/
theorem getElem?_queueFrom_of_declared_once {all : List Occurrence} {table : String}
    (once : declarations all table < 2) (seen rest : List Occurrence) (m : RenameMap) :
    (queueFrom settings all seen m rest).queues[table]? = m.queues[table]? := by
  induction rest generalizing seen m with
  | nil => rfl
  | cons o rest ih =>
    rw [queueFrom, ih]
    split
    · rfl
    · rename_i repeated
      have other : o.table ≠ table := by
        rintro rfl
        exact repeated once
      simp [push, Std.ExtTreeMap.getElem?_insert, other]

theorem getElem?_queues_of_queue {m : RenameMap} {table : String} (queued : m.queue table ≠ []) :
    m.queues[table]? = some (m.queue table) := by
  unfold queue at queued ⊢
  cases entry : m.queues[table]? with
  | none => simp [entry] at queued
  | some names => rfl

theorem getElem?_disambiguate (visits : List Occurrence) (table : String) :
    (disambiguate visits settings).queues[table]? =
      if declarations visits table < 2 then none
      else some (ownAliases settings table 0 (occurrencesOf table visits)) := by
  split
  case isTrue once =>
    rw [disambiguate, getElem?_queueFrom_of_declared_once settings once]
    exact Std.ExtTreeMap.getElem?_empty
  case isFalse repeated =>
    have queue := queue_disambiguate settings visits table
    rw [if_neg repeated] at queue
    have queued : (disambiguate visits settings).queue table ≠ [] := by
      have enough := declarations_le_lookupsOf visits table
      rw [ne_eq, queue, ← List.length_eq_zero_iff, length_aliasesFrom]
      omega
    rw [getElem?_queues_of_queue queued, queue, aliasesFrom_eq_ownAliases]
    rfl

theorem remaining_disambiguate (visits : List Occurrence) (table : String) :
    (disambiguate visits settings).remaining table =
      if declarations visits table < 2 then 0 else (occurrencesOf table visits).length := by
  rw [remaining, queue_disambiguate, length_occurrencesOf]
  split
  · rfl
  · exact length_aliasesFrom settings table [] visits

/-- A table that is declared at least twice has a queue of its own occurrences, with an alias of its number for each
declaration and that of the first for each reference; no other table has one. So lists with the same occurrences of
each table in the same order, as every permutation has that keeps this order, give the same map. -/
theorem queues_hold_own_occurrences (visits : List Occurrence) :
    let m := disambiguate visits settings
    (∀ table, m.queues[table]? =
      if declarations visits table < 2 then none
      else some (ownAliases settings table 0 (occurrencesOf table visits))) ∧
    (∀ table, m.remaining table =
      if declarations visits table < 2 then 0 else (occurrencesOf table visits).length) ∧
    (m.isEmpty = true ↔ ∀ table, declarations visits table < 2) ∧
    ∀ other, (∀ table, occurrencesOf table other = occurrencesOf table visits) →
      disambiguate other settings = m := by
  intro m
  refine ⟨getElem?_disambiguate settings visits, remaining_disambiguate settings visits,
    isEmpty_disambiguate settings visits, ?_⟩
  intro other same
  have entries : (disambiguate other settings).queues = m.queues := by
    refine Std.ExtTreeMap.ext_getElem? fun table => ?_
    rw [getElem?_disambiguate, getElem?_disambiguate, ← declarations_occurrencesOf table other, same table,
      declarations_occurrencesOf]
  exact congrArg RenameMap.mk entries

example :
    let visits : List Occurrence :=
      [⟨"pet", .reference⟩, ⟨"pet", .declaration⟩, ⟨"person", .declaration⟩, ⟨"pet", .declaration⟩]
    (disambiguate visits .standard).queue "pet" = ["pet_1", "pet_1", "pet_2"] := by
  decide +kernel

end RenameMap

end SqlSelect
