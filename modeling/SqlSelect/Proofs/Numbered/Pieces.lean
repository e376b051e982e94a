import SqlSelect.Proofs.Rename.Lookup
import SqlSelect.Rendering
/-!
Pieces under a renaming. A rendering makes one lookup for each occurrence, from left to right, and its text is that of
the pieces with the answers as the names of the occurrences: a declaration shows its table with the alias behind it,
and a reference the alias alone.
-/

namespace SqlSelect

namespace Table

/-- The occurrence of a table; one without a name, or with an alias of its own, has none. -/
def visits (t : Table) (kind : OccurrenceKind) : List Occurrence :=
  if t.name ≠ "" ∧ t.alias? = none then [⟨t.name, kind⟩] else []

/-- The alias of a table: that of the occurrence if it has one, and else the table's own. -/
def aliasAs (t : Table) (name? : Option String) : Option String :=
  if t.name ≠ "" ∧ t.alias? = none then name? else t.alias?

def sourceAs (t : Table) (name? : Option String) : String :=
  match t.aliasAs name? with
  | some name => t.name ++ " AS " ++ name
  | none => t.name

def qualifierAs (t : Table) (name? : Option String) : String :=
  (t.aliasAs name?).getD t.name

theorem isRenameable_iff {t : Table} : t.isRenameable = true ↔ t.name ≠ "" ∧ t.alias? = none := by
  simp [isRenameable, isAnonymous]

theorem isRenameable_of_isAnonymous {t : Table} (h : t.isAnonymous = true) : t.isRenameable = false := by
  simp [isRenameable, h]

theorem visits_eq (t : Table) (kind : OccurrenceKind) :
    t.visits kind = if t.isRenameable = true then [⟨t.name, kind⟩] else [] := by
  simp only [visits, isRenameable_iff]

theorem aliasAs_eq (t : Table) (name? : Option String) :
    t.aliasAs name? = if t.isRenameable = true then name? else t.alias? := by
  simp only [aliasAs, isRenameable_iff]

end Table

namespace Piece

variable {t : Table}

theorem textUnder_source (h : t.isRenameable = true) (name? : Option String) :
    (source t).textUnder name? = t.sourceAs name? := by
  have own := (Table.isRenameable_iff.mp h).2
  cases name? <;> simp [textUnder, Table.declaration, Table.declarationAs, Table.sourceAs, Table.aliasAs_eq, h, own]

theorem textUnder_qualifier (h : t.isRenameable = true) (name? : Option String) :
    (qualifier t).textUnder name? = t.qualifierAs name? := by
  have own := (Table.isRenameable_iff.mp h).2
  cases name? <;> simp [textUnder, Table.reference, Table.qualifierAs, Table.aliasAs_eq, h, own]

/-- What is never renamed is the same under every name. -/
theorem plain_source (h : ¬ t.isRenameable = true) (name? : Option String) :
    (source t).plain = t.sourceAs name? := by
  cases own : t.alias? <;>
    simp [plain, textUnder, Table.declaration, Table.declarationAs, Table.sourceAs, Table.aliasAs_eq, h, own]

theorem plain_qualifier (h : ¬ t.isRenameable = true) (name? : Option String) :
    (qualifier t).plain = t.qualifierAs name? := by
  simp [plain, textUnder, Table.reference, Table.qualifierAs, Table.aliasAs_eq, h]

end Piece

namespace Rendering

/-- The text with a name for each occurrence; the first one has the number `i`. -/
def numbered (names : Nat → Option String) : List Piece → Nat → String
  | [], _ => ""
  | p :: rest, i =>
    match p.occurrence? with
    | none => p.plain ++ numbered names rest i
    | some _ => p.textUnder (names i) ++ numbered names rest (i + 1)

/-- The lookups that a rendering makes, in order. -/
def lookups : List Piece → Renaming → List Occurrence
  | [], _ => []
  | p :: rest, r =>
    match p.occurrence? with
    | none => lookups rest r
    | some o => o :: lookups rest (r.ask o).2

@[simp] theorem occurrences_nil : occurrences [] = [] := rfl

theorem occurrences_cons (p : Piece) (rest : List Piece) :
    occurrences (p :: rest) = p.occurrence?.toList ++ occurrences rest := by
  cases h : p.occurrence? <;> simp [occurrences, h]

@[simp] theorem occurrences_append (ps qs : List Piece) :
    occurrences (ps ++ qs) = occurrences ps ++ occurrences qs :=
  List.filterMap_append

@[simp] theorem numbered_nil (names : Nat → Option String) (i : Nat) : numbered names [] i = "" := rfl

theorem numbered_append (names : Nat → Option String) (ps qs : List Piece) (i : Nat) :
    numbered names (ps ++ qs) i =
      numbered names ps i ++ numbered names qs (i + (occurrences ps).length) := by
  induction ps generalizing i with
  | nil => simp
  | cons p rest ih =>
    cases h : p.occurrence? with
    | none => simp [numbered, occurrences_cons, h, ih, String.append_assoc]
    | some o =>
      simp [numbered, occurrences_cons, h, ih, String.append_assoc, Nat.add_assoc, Nat.add_comm 1]

theorem numbered_none (ps : List Piece) (i : Nat) : numbered (fun _ => none) ps i = plain ps := by
  induction ps generalizing i with
  | nil => rfl
  | cons p rest ih => cases h : p.occurrence? <;> simp [numbered, plain, h, ih, Piece.plain]

theorem occurrences_map_fixed (ps : List Piece) : occurrences (ps.map Piece.fixed) = [] := by
  induction ps with
  | nil => rfl
  | cons p rest ih => cases p <;> simpa [occurrences_cons, Piece.fixed, Piece.occurrence?] using ih

theorem numbered_map_fixed (names : Nat → Option String) (ps : List Piece) (i : Nat) :
    numbered names (ps.map Piece.fixed) i = numbered (fun _ => none) ps 0 := by
  rw [numbered_none]
  induction ps with
  | nil => rfl
  | cons p rest ih =>
    cases p <;> simp [numbered, plain, Piece.fixed, Piece.occurrence?, Piece.plain, Piece.textUnder, ih]

/-- Every rendering makes the same lookups, whatever is answered. -/
theorem lookups_eq (ps : List Piece) (r : Renaming) : lookups ps r = occurrences ps := by
  induction ps generalizing r with
  | nil => rfl
  | cons p rest ih => cases h : p.occurrence? <;> simp [lookups, occurrences_cons, h, ih]

/-- A rendering in the middle of others: `seen` are the lookups before it and `later` those after it. -/
theorem under_eq (ps : List Piece) (r : Renaming) (seen later : List Occurrence) :
    under ps (r.after seen) =
      (numbered (r.nameAt (seen ++ (occurrences ps ++ later))) ps seen.length,
        r.after (seen ++ occurrences ps)) := by
  induction ps generalizing seen with
  | nil => simp [under]
  | cons p rest ih =>
    cases h : p.occurrence? with
    | none => simp [under, numbered, occurrences_cons, h, ih]
    | some o =>
      -- the lookup of `o` moves from the pieces to the lookups already made
      have step := ih (seen ++ [o])
      simp only [Renaming.after_concat, List.append_assoc, List.singleton_append,
        List.length_append, List.length_singleton] at step
      simp [under, numbered, occurrences_cons, h, step, Renaming.nameAt_length]

theorem under_off (ps : List Piece) : under ps .off = (plain ps, .off) := by
  have text := under_eq ps .off [] []
  simpa only [Renaming.after_off, Renaming.nameAt_off, numbered_none] using text

end Rendering

end SqlSelect
