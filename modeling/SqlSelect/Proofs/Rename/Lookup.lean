import SqlSelect.Rename.Map
/-!
Lookups in a row. The answer to a lookup depends only on the lookups before it; with queues, the `j`-th
lookup of a table gets the `j`-th alias that was queued for the table.
-/

namespace SqlSelect

namespace RenameMap

def lookupsOf (table : String) (visits : List Occurrence) : Nat :=
  visits.countP fun o => o.table == table

/-- The alias of the `i`-th lookup, if its table's queue is long enough. -/
def aliasAt (m : RenameMap) (visits : List Occurrence) (i : Nat) : Option String :=
  visits[i]?.bind fun o => (m.queue o.table)[lookupsOf o.table (visits.take i)]?

def after (m : RenameMap) (visits : List Occurrence) : RenameMap :=
  visits.foldl (fun m o => (m.next o.table).2) m

theorem queue_after (m : RenameMap) (visits : List Occurrence) (table : String) :
    (m.after visits).queue table = (m.queue table).drop (lookupsOf table visits) := by
  induction visits generalizing m with
  | nil => rfl
  | cons o rest ih =>
    have step : (m.after (o :: rest)).queue table =
        ((m.next o.table).2.queue table).drop (lookupsOf table rest) := ih _
    rw [step, queue_next]
    by_cases h : o.table = table
    · simp [lookupsOf, h, List.drop_tail]
    · simp [lookupsOf, h]

end RenameMap

namespace Renaming

def after (r : Renaming) (visits : List Occurrence) : Renaming :=
  visits.foldl (fun r o => (r.ask o).2) r

def nameAt (r : Renaming) (visits : List Occurrence) (i : Nat) : Option String :=
  visits[i]?.bind fun o => ((r.after (visits.take i)).ask o).1

@[simp] theorem after_nil (r : Renaming) : r.after [] = r := rfl

theorem after_append (r : Renaming) (seen rest : List Occurrence) :
    r.after (seen ++ rest) = (r.after seen).after rest :=
  List.foldl_append

theorem after_concat (r : Renaming) (seen : List Occurrence) (o : Occurrence) :
    r.after (seen ++ [o]) = ((r.after seen).ask o).2 := by
  rw [after_append]; rfl

/-- The answer to a lookup does not depend on the lookups after it. -/
theorem nameAt_length (r : Renaming) (seen later : List Occurrence) (o : Occurrence) :
    r.nameAt (seen ++ o :: later) seen.length = ((r.after seen).ask o).1 := by
  simp [nameAt]

theorem after_off (visits : List Occurrence) : off.after visits = off := by
  induction visits with
  | nil => rfl
  | cons o rest ih => exact ih

theorem after_recording (log visits : List Occurrence) :
    (recording log).after visits = recording (log ++ visits) := by
  induction visits generalizing log with
  | nil => simp
  | cons o rest ih =>
    have step : (recording log).after (o :: rest) = recording (log ++ [o] ++ rest) := ih _
    rw [step, List.append_assoc, List.singleton_append]

theorem after_queued (m : RenameMap) (visits : List Occurrence) :
    (queued m).after visits = queued (m.after visits) := by
  induction visits generalizing m with
  | nil => rfl
  | cons o rest ih => exact ih _

theorem nameAt_off (visits : List Occurrence) : off.nameAt visits = fun _ => none := by
  funext i
  cases h : visits[i]? <;> simp [nameAt, h, after_off, ask]

theorem nameAt_queued (m : RenameMap) (visits : List Occurrence) :
    (queued m).nameAt visits = m.aliasAt visits := by
  funext i
  cases h : visits[i]? with
  | none => simp [nameAt, RenameMap.aliasAt, h]
  | some o => simp [nameAt, RenameMap.aliasAt, h, after_queued, ask, RenameMap.queue_after]

end Renaming

end SqlSelect
