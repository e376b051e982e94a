import SqlSelect.Proofs.Rename.Lookup
import SqlSelect.Rename.Map
/-!
The queues that disambiguation builds. The queue of a repeated table holds one alias for each of its
occurrences, so the lookups of these occurrences use it up exactly.
-/

namespace SqlSelect

namespace RenameMap

theorem declarations_append (seen rest : List Occurrence) (table : String) :
    declarations (seen ++ rest) table = declarations seen table + declarations rest table :=
  List.countP_append

variable (settings : RenameSettings)

/-- The aliases of the occurrences of one table in a list that follows those in `seen`. -/
def aliasesFrom (table : String) (seen : List Occurrence) : List Occurrence → List String
  | [] => []
  | o :: rest =>
    if o.table = table then aliasAfter settings seen o :: aliasesFrom table (seen ++ [o]) rest
    else aliasesFrom table (seen ++ [o]) rest

theorem length_aliasesFrom (table : String) (seen visits : List Occurrence) :
    (aliasesFrom settings table seen visits).length = lookupsOf table visits := by
  induction visits generalizing seen with
  | nil => rfl
  | cons o rest ih => by_cases h : o.table = table <;> simp [aliasesFrom, lookupsOf, h, ih]

/-- The place of an occurrence in the queue of its table is the number of lookups of the table before it. -/
theorem getElem?_aliasesFrom {visits : List Occurrence} {i : Nat} {o : Occurrence}
    (h : visits[i]? = some o) (seen : List Occurrence) :
    (aliasesFrom settings o.table seen visits)[lookupsOf o.table (visits.take i)]? =
      some (aliasAfter settings (seen ++ visits.take i) o) := by
  induction visits generalizing seen i with
  | nil => simp at h
  | cons p rest ih =>
    cases i with
    | zero =>
      obtain rfl : p = o := by simpa using h
      simp [aliasesFrom, lookupsOf]
    | succ i =>
      have step := ih (i := i) (by simpa using h) (seen ++ [p])
      by_cases hp : p.table = o.table
      · simpa [aliasesFrom, lookupsOf, hp] using step
      · simpa [aliasesFrom, lookupsOf, hp] using step

theorem queue_queueFrom (all seen rest : List Occurrence) (m : RenameMap) (table : String) :
    (queueFrom settings all seen m rest).queue table = m.queue table ++
      if declarations all table < 2 then [] else aliasesFrom settings table seen rest := by
  induction rest generalizing seen m with
  | nil => simp [queueFrom, aliasesFrom]
  | cons o rest ih =>
    rw [queueFrom, ih]
    by_cases h : o.table = table
    · subst h
      by_cases hd : declarations all o.table < 2
      · rw [if_pos hd, if_pos hd, if_pos hd]
      · rw [if_neg hd, if_neg hd, if_neg hd, aliasesFrom, if_pos rfl, queue_push, if_pos rfl,
          List.append_assoc, List.singleton_append]
    · have hq : (if declarations all o.table < 2 then m else m.push o.table (aliasAfter settings seen o)).queue
          table = m.queue table := by
        split
        · rfl
        · simp [queue_push, h]
      simp only [hq, aliasesFrom, if_neg h]

/-- A table declared fewer than twice has no queue, any other one alias for each of its occurrences. -/
theorem queue_disambiguate (visits : List Occurrence) (table : String) :
    (disambiguate visits settings).queue table =
      if declarations visits table < 2 then [] else aliasesFrom settings table [] visits := by
  rw [disambiguate, queue_queueFrom, queue_empty, List.nil_append]

theorem aliasAt_disambiguate (visits : List Occurrence) (i : Nat) :
    (disambiguate visits settings).aliasAt visits i = visits[i]?.bind fun o =>
      if declarations visits o.table < 2 then none
      else some (aliasAfter settings (visits.take i) o) := by
  cases h : visits[i]? with
  | none => simp [aliasAt, h]
  | some o =>
    have place := getElem?_aliasesFrom settings h []
    by_cases hd : declarations visits o.table < 2
    · simp only [aliasAt, h, Option.bind_some, queue_disambiguate, if_pos hd, List.getElem?_nil]
    · simpa only [aliasAt, h, Option.bind_some, queue_disambiguate, if_neg hd, List.nil_append] using place

theorem declarations_le_lookupsOf (visits : List Occurrence) (table : String) :
    declarations visits table ≤ lookupsOf table visits := by
  refine List.countP_mono_left fun o _ h => ?_
  simp only [Bool.and_eq_true] at h
  exact h.1

theorem isEmpty_disambiguate (visits : List Occurrence) :
    (disambiguate visits settings).isEmpty = true ↔ ∀ table, declarations visits table < 2 := by
  rw [isEmpty_iff]
  constructor
  · intro h table
    rcases Nat.lt_or_ge (declarations visits table) 2 with hd | hd
    · exact hd
    · have empty := h table
      have enough := declarations_le_lookupsOf visits table
      rw [queue_disambiguate, if_neg (Nat.not_lt.mpr hd), ← List.length_eq_zero_iff,
        length_aliasesFrom] at empty
      omega
  · intro h table
    rw [queue_disambiguate, if_pos (h table)]

/-- The lookups for which the queues were built leave no alias behind. -/
theorem isEmpty_after_disambiguate (visits : List Occurrence) :
    ((disambiguate visits settings).after visits).isEmpty = true := by
  rw [isEmpty_iff]
  intro table
  rw [queue_after, queue_disambiguate]
  split
  · exact List.drop_nil
  · exact List.drop_of_length_le (Nat.le_of_eq (length_aliasesFrom settings table [] visits))

end RenameMap

end SqlSelect
