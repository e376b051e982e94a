import SqlSelect.Rename.Settings
import Std.Data.ExtTreeMap
/-!
Aliases waiting to be used. Each table has a queue; every lookup takes the next alias of its table, and a table whose
queue is empty or missing keeps its name. Queues also tell repeated tables apart: the k-th declaration of a table that
is declared at least twice gets the alias of k, and every reference to it that of its first declaration.
-/

namespace SqlSelect

inductive OccurrenceKind where
  | declaration
  | reference
deriving DecidableEq, Repr

/-- One place of a statement where a table may be renamed. -/
structure Occurrence where
  table : String
  kind : OccurrenceKind
deriving DecidableEq, Repr

/-- The queue of each table. An empty queue is not the same as none. -/
structure RenameMap where
  queues : Std.ExtTreeMap String (List String)
deriving DecidableEq

namespace RenameMap

def empty : RenameMap :=
  ⟨∅⟩

def queue (m : RenameMap) (table : String) : List String :=
  m.queues[table]?.getD []

def push (m : RenameMap) (table name : String) : RenameMap :=
  ⟨m.queues.insert table (m.queue table ++ [name])⟩

def pushAll (m : RenameMap) (table : String) (names : List String) : RenameMap :=
  names.foldl (fun m name => m.push table name) m

/-- Takes the next alias of a table. -/
def next (m : RenameMap) (table : String) : Option String × RenameMap :=
  match m.queue table with
  | [] => (none, m)
  | name :: rest => (some name, ⟨m.queues.insert table rest⟩)

@[simp] theorem queue_empty (table : String) : empty.queue table = [] := by
  simp [queue, empty]

theorem queue_push (m : RenameMap) (table name other : String) :
    (m.push table name).queue other = if table = other then m.queue other ++ [name] else m.queue other := by
  by_cases h : table = other
  · subst h; simp [queue, push]
  · simp [queue, push, Std.ExtTreeMap.getElem?_insert, h]

@[simp] theorem next_fst (m : RenameMap) (table : String) : (m.next table).1 = (m.queue table).head? := by
  unfold next
  split <;> simp_all

/-- A lookup shortens the queue of its own table and no other. -/
theorem queue_next (m : RenameMap) (table other : String) :
    (m.next table).2.queue other = if table = other then (m.queue other).tail else m.queue other := by
  unfold next
  split
  case h_1 h =>
    split
    case isTrue e => simp [← e, h]
    case isFalse => rfl
  case h_2 name rest h =>
    by_cases e : table = other
    · subst e; simp [queue] at h ⊢; simp [h]
    · simp [queue, Std.ExtTreeMap.getElem?_insert, e]

def remaining (m : RenameMap) (table : String) : Nat :=
  (m.queue table).length

def isEmpty (m : RenameMap) : Bool :=
  m.queues.toList.all fun (_, names) => names.isEmpty

theorem isEmpty_iff (m : RenameMap) : m.isEmpty = true ↔ ∀ table, m.queue table = [] := by
  simp only [isEmpty, List.all_eq_true, List.isEmpty_iff, Prod.forall,
    Std.ExtTreeMap.mem_toList_iff_getElem?_eq_some]
  constructor
  · intro h table
    unfold queue
    cases e : m.queues[table]? with
    | none => rfl
    | some names => exact h table names e
  · intro h table names e
    simpa [queue, e] using h table

end RenameMap

/-- How the occurrences of a statement are treated: left alone, noted down, or renamed from queues. -/
inductive Renaming where
  | off
  | recording (log : List Occurrence)
  | queued (map : RenameMap)
deriving DecidableEq

namespace Renaming

def ask : Renaming → Occurrence → Option String × Renaming
  | .off, _ => (none, .off)
  | .recording log, o => (none, .recording (log ++ [o]))
  | .queued m, o => ((m.next o.table).1, .queued (m.next o.table).2)

def log : Renaming → List Occurrence
  | .recording log => log
  | _ => []

end Renaming

/-! ## Repeated tables -/

namespace RenameMap

def declarations (occurrences : List Occurrence) (table : String) : Nat :=
  occurrences.countP fun o => o.table == table && o.kind == .declaration

/-- The alias of an occurrence that comes after those in `seen`. -/
def aliasAfter (settings : RenameSettings) (seen : List Occurrence) (o : Occurrence) : String :=
  match o.kind with
  | .declaration => settings.aliasFor o.table (declarations seen o.table + 1)
  | .reference => settings.aliasFor o.table 1

/-- Queues the aliases of the occurrences in `rest`, which follow those in `seen`. -/
def queueFrom (settings : RenameSettings) (all seen : List Occurrence) (m : RenameMap) :
    List Occurrence → RenameMap
  | [] => m
  | o :: rest =>
    let m := if declarations all o.table < 2 then m else m.push o.table (aliasAfter settings seen o)
    queueFrom settings all (seen ++ [o]) m rest

def disambiguate (occurrences : List Occurrence) (settings : RenameSettings) : RenameMap :=
  queueFrom settings occurrences [] empty occurrences

end RenameMap

end SqlSelect
