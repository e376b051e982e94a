import SqlSelect.Proofs.Gathered
import SqlSelect.Proofs.Numbered.Pieces
/-!
The text of a column written out over its syntax, with a name for each occurrence of a table. Numbers
run from left to right, and a table that is never renamed takes none.
-/

namespace SqlSelect

open Rendering

namespace Rendering

variable (names : Nat → Option String) (rest : List Piece) (i : Nat)

@[simp] theorem numbered_text (s : String) :
    numbered names (.text s :: rest) i = s ++ numbered names rest i := rfl

@[simp] theorem numbered_placeholder (argument : String) :
    numbered names (.placeholder argument :: rest) i = "?" ++ numbered names rest i := rfl

@[simp] theorem numbered_fragment (sql : String) (arguments : List String) :
    numbered names (.fragment sql arguments :: rest) i = sql ++ numbered names rest i := rfl

@[simp] theorem numbered_source (t : Table) :
    numbered names (.source t :: rest) i =
      t.sourceAs (names i) ++ numbered names rest (i + (t.visits .declaration).length) := by
  by_cases h : t.isRenameable = true
  · simp [numbered, Piece.occurrence?, Table.visits_eq, h, Piece.textUnder_source h]
  · simp [numbered, Piece.occurrence?, Table.visits_eq, h, Piece.plain_source h (names i)]

@[simp] theorem numbered_qualifier (t : Table) :
    numbered names (.qualifier t :: rest) i =
      t.qualifierAs (names i) ++ numbered names rest (i + (t.visits .reference).length) := by
  by_cases h : t.isRenameable = true
  · simp [numbered, Piece.occurrence?, Table.visits_eq, h, Piece.textUnder_qualifier h]
  · simp [numbered, Piece.occurrence?, Table.visits_eq, h, Piece.plain_qualifier h (names i)]

@[simp] theorem occurrences_text (s : String) : occurrences (.text s :: rest) = occurrences rest := rfl

@[simp] theorem occurrences_placeholder (argument : String) :
    occurrences (.placeholder argument :: rest) = occurrences rest := rfl

@[simp] theorem occurrences_fragment (sql : String) (arguments : List String) :
    occurrences (.fragment sql arguments :: rest) = occurrences rest := rfl

@[simp] theorem occurrences_source (t : Table) :
    occurrences (.source t :: rest) = t.visits .declaration ++ occurrences rest := by
  by_cases h : t.isRenameable <;> simp [occurrences_cons, Piece.occurrence?, Table.visits_eq, h]

@[simp] theorem occurrences_qualifier (t : Table) :
    occurrences (.qualifier t :: rest) = t.visits .reference ++ occurrences rest := by
  by_cases h : t.isRenameable <;> simp [occurrences_cons, Piece.occurrence?, Table.visits_eq, h]

theorem occurrences_eq (ps : List Piece) : occurrences ps = ps.flatMap fun p => p.occurrence?.toList :=
  List.filterMap_eq_flatMap_toList _ ps

theorem occurrences_separated (separator : String) (renderings : List (List Piece)) :
    occurrences (separated separator renderings) = renderings.flatMap occurrences := by
  rw [occurrences_eq, gathered_separated fun _ => rfl]
  exact (List.flatMap_congr fun ps _ => occurrences_eq ps).symm

end Rendering

namespace Column

/-! ## References -/

mutual

def references : Column → List Occurrence
  | field info _ => info.table.visits .reference
  | literal _ _ => []
  | bound _ _ => []
  | function _ _ _ _ operands => listReferences operands
  | composite _ parts => listReferences parts

def listReferences : List Column → List Occurrence
  | [] => []
  | c :: rest => references c ++ listReferences rest

end

/-! ## Text -/

variable (names : Nat → Option String)

mutual

/-- The text of a column whose first reference has the number `i`. -/
def sqlAt : Column → Nat → String
  | field info name, i =>
    if info.table.isAnonymous then name else info.table.qualifierAs (names i) ++ "." ++ name
  | literal _ sql, _ => sql
  | bound _ _, _ => "?"
  | function _ opening separator closing operands, i => opening ++ listSqlAt separator operands i ++ closing
  | composite _ parts, i => listSqlAt "," parts i

def listSqlAt (separator : String) : List Column → Nat → String
  | [], _ => ""
  | [c], i => sqlAt c i
  | c :: rest, i => sqlAt c i ++ separator ++ listSqlAt separator rest (i + (references c).length)

end

/-- The text of a column without its table; only a stored column loses it. -/
def bareText : Column → String
  | field _ name => name
  | c => c.sqlAt (fun _ => none) 0

def aliasText : Option String → String
  | none => ""
  | some name => " AS '" ++ name ++ "'"

mutual

def entryAt (alias? : Option String) : Column → Nat → String
  | composite _ parts, i => entriesAt alias? parts i
  | field info name, i => (field info name).sqlAt names i ++ aliasText alias?
  | literal info sql, i => (literal info sql).sqlAt names i ++ aliasText alias?
  | bound info argument, i => (bound info argument).sqlAt names i ++ aliasText alias?
  | function info opening separator closing operands, i =>
    (function info opening separator closing operands).sqlAt names i ++ aliasText alias?

def entriesAt (alias? : Option String) : List Column → Nat → String
  | [], _ => ""
  | [part], i => entryAt (partAlias alias? part) part i
  | part :: rest, i =>
    entryAt (partAlias alias? part) part i ++ "," ++ entriesAt alias? rest (i + (references part).length)

end

/-! ## Agreement with the pieces -/

theorem listReferences_eq (cs : List Column) : listReferences cs = cs.flatMap references := by
  induction cs with
  | nil => rfl
  | cons c rest ih => rw [listReferences, ih, List.flatMap_cons]

theorem occurrences_listPieces_of {cs : List Column}
    (h : ∀ c ∈ cs, occurrences c.pieces = c.references) (separator : String) :
    occurrences (listPieces separator cs) = listReferences cs := by
  rw [listPieces_eq, occurrences_separated, List.flatMap_map, listReferences_eq]
  exact List.flatMap_congr h

theorem occurrences_pieces (c : Column) : occurrences c.pieces = c.references := by
  induction c using Column.induction with
  | field info name =>
    by_cases h : info.table.isAnonymous
    · simp [pieces, references, h, Table.visits_eq, Table.isRenameable_of_isAnonymous h]
    · simp [pieces, references, h]
  | literal info sql => rfl
  | bound info argument => rfl
  | function info opening separator closing operands ih =>
    simp [pieces, references, occurrences_listPieces_of ih]
  | composite info parts ih => simp [pieces, references, occurrences_listPieces_of ih]

theorem occurrences_listPieces (separator : String) (cs : List Column) :
    occurrences (listPieces separator cs) = listReferences cs :=
  occurrences_listPieces_of (fun c _ => occurrences_pieces c) separator

theorem numbered_listPieces_of {cs : List Column}
    (h : ∀ c ∈ cs, ∀ i, numbered names c.pieces i = c.sqlAt names i) (separator : String) (i : Nat) :
    numbered names (listPieces separator cs) i = listSqlAt names separator cs i := by
  induction cs generalizing i with
  | nil => rfl
  | cons c rest ih =>
    have hc := h c List.mem_cons_self
    have hrest := ih fun d hd => h d (List.mem_cons_of_mem _ hd)
    cases rest with
    | nil => simp [listPieces, listSqlAt, hc]
    | cons d rest =>
      simp [listPieces, listSqlAt, numbered_append, hc, hrest, occurrences_pieces, String.append_assoc]

theorem numbered_pieces (c : Column) (i : Nat) : numbered names c.pieces i = c.sqlAt names i := by
  induction c using Column.induction generalizing i with
  | field info name => by_cases h : info.table.isAnonymous <;> simp [pieces, sqlAt, h, String.append_assoc]
  | literal info sql => simp [pieces, sqlAt]
  | bound info argument => simp [pieces, sqlAt]
  | function info opening separator closing operands ih =>
    simp [pieces, sqlAt, numbered_append, numbered_listPieces_of names ih, String.append_assoc]
  | composite info parts ih => simp [pieces, sqlAt, numbered_listPieces_of names ih]

theorem numbered_listPieces (separator : String) (cs : List Column) (i : Nat) :
    numbered names (listPieces separator cs) i = listSqlAt names separator cs i :=
  numbered_listPieces_of names (fun c _ => numbered_pieces names c) separator i

/-! ## Projections -/

theorem numbered_aliasPieces (alias? : Option String) (i : Nat) :
    numbered names (aliasPieces alias?) i = aliasText alias? := by
  cases alias? <;> simp [aliasPieces, aliasText, String.append_assoc]

theorem occurrences_project (c : Column) (alias? : Option String) (s : Projected) :
    occurrences (c.project alias? s).pieces = occurrences s.pieces ++ c.references := by
  rw [occurrences_eq, gathered_project fun _ => rfl, ← occurrences_eq, ← occurrences_eq, occurrences_pieces]

theorem occurrences_projectParts (alias? : Option String) (cs : List Column) (s : Projected) :
    occurrences (projectParts alias? cs s).pieces = occurrences s.pieces ++ listReferences cs := by
  rw [occurrences_eq, gathered_projectParts fun _ => rfl, ← occurrences_eq, listReferences_eq]
  refine congrArg (occurrences s.pieces ++ ·) (List.flatMap_congr fun c _ => ?_)
  rw [← occurrences_eq, occurrences_pieces]

theorem numbered_projectParts_of {cs : List Column}
    (h : ∀ c ∈ cs, ∀ alias? s i, numbered names (c.project alias? s).pieces i =
      numbered names s.pieces i ++ c.entryAt names alias? (i + (occurrences s.pieces).length))
    (alias? : Option String) (s : Projected) (i : Nat) :
    numbered names (projectParts alias? cs s).pieces i =
      numbered names s.pieces i ++ entriesAt names alias? cs (i + (occurrences s.pieces).length) := by
  induction cs generalizing s with
  | nil => simp [projectParts, entriesAt]
  | cons c rest ih =>
    have hc := h c List.mem_cons_self
    have hrest := ih fun d hd => h d (List.mem_cons_of_mem _ hd)
    cases rest with
    | nil => simp [projectParts, entriesAt, hc]
    | cons d rest =>
      simp [projectParts, entriesAt, Projected.append, hc, hrest, numbered_append, occurrences_project,
        String.append_assoc, Nat.add_assoc]

theorem numbered_project (c : Column) (alias? : Option String) (s : Projected) (i : Nat) :
    numbered names (c.project alias? s).pieces i =
      numbered names s.pieces i ++ c.entryAt names alias? (i + (occurrences s.pieces).length) := by
  induction c using Column.induction generalizing alias? s i with
  | composite info parts ih => simp [project, entryAt, numbered_projectParts_of names ih]
  | _ =>
    simp [project, entryAt, Projected.entry, numbered_append, numbered_pieces, numbered_aliasPieces]

theorem numbered_projectParts (alias? : Option String) (cs : List Column) (s : Projected) (i : Nat) :
    numbered names (projectParts alias? cs s).pieces i =
      numbered names s.pieces i ++ entriesAt names alias? cs (i + (occurrences s.pieces).length) :=
  numbered_projectParts_of names (fun c _ => numbered_project names c) alias? s i

/-! ## Bare names -/

theorem occurrences_barePieces (c : Column) : occurrences c.barePieces = [] := by
  cases c <;> simp [barePieces, occurrences_map_fixed]

theorem numbered_barePieces (c : Column) (i : Nat) : numbered names c.barePieces i = c.bareText := by
  cases c <;> simp [barePieces, bareText, numbered_map_fixed, numbered_pieces]

end Column

end SqlSelect
