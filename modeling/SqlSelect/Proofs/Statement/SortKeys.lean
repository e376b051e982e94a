import SqlSelect.Proofs.Leaves
import SqlSelect.Proofs.Statement.Compilation
/-!
Sort keys. A term is written as one key for each slot of its column, but the direction stands only once, behind the
last of them. So a direction applies to the whole term just if the term has a single key.
-/

namespace SqlSelect

open Rendering (under separated texts)

namespace OrderingTerm

/-- Keys over columns of one slot each, of which the last alone has the direction. -/
def keysWith (direction? : Option Direction) : List Column → List OrderingTerm
  | [] => []
  | [leaf] => [⟨leaf, direction?⟩]
  | leaf :: rest => ⟨leaf, none⟩ :: keysWith direction? rest

/-- The sort keys that a term is written as. -/
def keys (t : OrderingTerm) : List OrderingTerm :=
  keysWith t.direction? t.column.leaves

/-- A sort key for each slot of a term, each with the term's direction. -/
def directedKeys (t : OrderingTerm) : List OrderingTerm :=
  t.column.leaves.map fun leaf => ⟨leaf, t.direction?⟩

/-- The text of each key and its direction, rendered with the renaming that the key before it left. -/
def keyTexts : List OrderingTerm → Renaming → List String × Renaming
  | [], r => ([], r)
  | key :: rest, r =>
    let (text, r) := under key.column.pieces r
    let (more, r) := keyTexts rest r
    ((text ++ directionText key.direction?) :: more, r)

/-! ## Keys of a term -/

section

variable (direction? : Option Direction)

theorem columns_keysWith (leaves : List Column) : (keysWith direction? leaves).map column = leaves := by
  induction leaves with
  | nil => rfl
  | cons leaf rest ih =>
    cases rest with
    | nil => rfl
    | cons next rest => simpa [keysWith] using ih

/-- All keys but the last stand without the direction, and the last with it. -/
theorem keysWith_concat (leaves : List Column) (last : Column) :
    keysWith direction? (leaves ++ [last]) = leaves.map (⟨·, none⟩) ++ [⟨last, direction?⟩] := by
  induction leaves with
  | nil => rfl
  | cons leaf rest ih =>
    have further : rest ++ [last] ≠ [] := List.append_ne_nil_of_right_ne_nil rest (List.cons_ne_nil last [])
    rw [List.cons_append, keysWith, ih, List.map_cons, List.cons_append]
    exact further

theorem keysWith_eq_map_iff {leaves : List Column} (filled : leaves ≠ []) :
    keysWith direction? leaves = leaves.map (⟨·, direction?⟩) ↔ direction? = none ∨ leaves.length = 1 := by
  obtain ⟨first, last, rfl⟩ : ∃ first last, leaves = first ++ [last] :=
    ⟨_, _, (List.dropLast_append_getLast filled).symm⟩
  rw [keysWith_concat, List.map_append]
  cases first with
  | nil => simp
  | cons leaf rest => cases direction? <;> simp

end

variable (t : OrderingTerm)

theorem columns_keys : t.keys.map column = t.column.leaves :=
  columns_keysWith t.direction? t.column.leaves

theorem length_keys : t.keys.length = t.column.slots := by
  rw [← t.column.length_leaves, ← t.columns_keys, List.length_map]

theorem leaves_ne_nil {t : OrderingTerm} (filled : t.column.Filled) : t.column.leaves ≠ [] :=
  Column.leavesUnder_ne_nil filled _

theorem keys_eq_directedKeys_iff {t : OrderingTerm} (filled : t.column.Filled) :
    t.keys = t.directedKeys ↔ t.direction? = none ∨ t.column.slots = 1 := by
  rw [← t.column.length_leaves]
  exact keysWith_eq_map_iff t.direction? (leaves_ne_nil filled)

theorem exists_leaves_eq_concat {t : OrderingTerm} (filled : t.column.Filled) :
    ∃ first last, t.column.leaves = first ++ [last] :=
  ⟨_, _, (List.dropLast_append_getLast (leaves_ne_nil filled)).symm⟩

/-! ## Texts of keys -/

theorem under_pieces (r : Renaming) :
    under t.pieces r =
      ((under t.column.pieces r).1 ++ directionText t.direction?, (under t.column.pieces r).2) := by
  rw [pieces, Rendering.under_append, Rendering.under_singleton_text]

theorem keyTexts_eq (keys : List OrderingTerm) (r : Renaming) : keyTexts keys r = texts (keys.map pieces) r := by
  induction keys generalizing r with
  | nil => rfl
  | cons key rest ih => simp only [keyTexts, List.map_cons, texts, under_pieces, ih]

/-- Keys with commas between them read like their columns with the direction behind them all. -/
theorem under_keysWith (direction? : Option Direction) {leaves : List Column} (filled : leaves ≠ [])
    (r : Renaming) :
    under (separated "," ((keysWith direction? leaves).map pieces)) r =
      under (separated "," (leaves.map Column.pieces) ++ [.text (directionText direction?)]) r := by
  induction leaves generalizing r with
  | nil => exact (filled rfl).elim
  | cons leaf rest ih =>
    cases rest with
    | nil => rfl
    | cons next rest =>
      have later := ih (List.cons_ne_nil next rest)
      have more : (keysWith direction? (next :: rest)).map pieces ≠ [] := by
        intro unwritten
        have columns := columns_keysWith direction? (next :: rest)
        simp [List.map_eq_nil_iff.mp unwritten] at columns
      have split : separated "," (pieces ⟨leaf, none⟩ :: (keysWith direction? (next :: rest)).map pieces) =
          pieces ⟨leaf, none⟩ ++ .text "," :: separated "," ((keysWith direction? (next :: rest)).map pieces) :=
        Rendering.separated_append "," (List.cons_ne_nil _ []) more
      have whole : separated "," ((leaf :: next :: rest).map Column.pieces) =
          leaf.pieces ++ .text "," :: separated "," ((next :: rest).map Column.pieces) := rfl
      have bare : under (pieces ⟨leaf, none⟩) r = under leaf.pieces r := by
        rw [under_pieces, directionText, String.append_empty]
      rw [keysWith, List.map_cons, split, whole, List.append_assoc, List.cons_append, Rendering.under_append,
        Rendering.under_append leaf.pieces, bare, Rendering.under_cons_text, Rendering.under_cons_text, later]
      exact List.cons_ne_nil next rest

theorem under_pieces_eq_keys {t : OrderingTerm} (filled : t.column.Filled) (r : Renaming) :
    under t.pieces r = under (separated "," (t.keys.map pieces)) r := by
  rw [keys, under_keysWith t.direction? (leaves_ne_nil filled), pieces, Column.pieces_eq_separated filled]
  rfl

/-! ## Keys that lack a direction -/

/-- The same key, perhaps without its direction. -/
structure Lighter (key other : OrderingTerm) : Prop where
  column : key.column = other.column
  direction : key.direction? = none ∨ key.direction? = other.direction?

theorem keysWith_lighter (direction? : Option Direction) (leaves : List Column) :
    List.Forall₂ Lighter (keysWith direction? leaves) (leaves.map (⟨·, direction?⟩)) := by
  induction leaves with
  | nil => exact .nil
  | cons leaf rest ih =>
    cases rest with
    | nil => exact .cons ⟨rfl, .inr rfl⟩ .nil
    | cons next rest => exact .cons ⟨rfl, .inl rfl⟩ ih

theorem keys_lighter : List.Forall₂ Lighter t.keys t.directedKeys :=
  keysWith_lighter t.direction? t.column.leaves

theorem keyTexts_le {keys others : List OrderingTerm} (lighter : List.Forall₂ Lighter keys others)
    (r : Renaming) :
    List.Forall₂ (fun a b => a.length ≤ b.length) (keyTexts keys r).1 (keyTexts others r).1 := by
  induction lighter generalizing r with
  | nil => exact .nil
  | @cons key other keys others first _ ih =>
    simp only [keyTexts, first.column]
    refine .cons ?_ (ih _)
    rcases first.direction with bare | same
    · simp [bare, directionText]
    · rw [same]

theorem directionText_injective : Function.Injective directionText := by
  intro d e same
  rcases d with _ | _ | _ <;> rcases e with _ | _ | _ <;> first | rfl | simp [directionText] at same

theorem keyTexts_eq_iff {keys others : List OrderingTerm} (lighter : List.Forall₂ Lighter keys others)
    (r : Renaming) : (keyTexts keys r).1 = (keyTexts others r).1 ↔ keys = others := by
  refine ⟨?_, fun same => same ▸ rfl⟩
  induction lighter generalizing r with
  | nil => exact fun _ => rfl
  | @cons key other keys others first _ ih =>
    intro same
    simp only [keyTexts, first.column, List.cons.injEq] at same
    have direction := directionText_injective (String.append_right_inj _ |>.mp same.1)
    have head : key = other := by
      obtain ⟨column, _⟩ := key
      obtain ⟨_, _⟩ := other
      cases first.column
      cases direction
      rfl
    rw [head, ih _ same.2]

end OrderingTerm

namespace Statement

open OrderingTerm

theorem under_orderingPieces {terms : List OrderingTerm} (ordered : terms ≠ [])
    (filled : ∀ t ∈ terms, t.column.Filled) (r : Renaming) :
    under (orderingPieces terms) r =
      (" ORDER BY " ++ ",".intercalate (keyTexts (terms.flatMap keys) r).1,
        (keyTexts (terms.flatMap keys) r).2) := by
  have keyed : ∀ t ∈ terms, t.keys.map OrderingTerm.pieces ≠ [] := by
    intro t member unwritten
    have columns := t.columns_keys
    rw [List.map_eq_nil_iff.mp unwritten] at columns
    exact leaves_ne_nil (filled t member) columns.symm
  have joined : under (separated "," (terms.map OrderingTerm.pieces)) r =
      under (separated "," ((terms.flatMap keys).map OrderingTerm.pieces)) r := by
    rw [Rendering.under_separated_congr "," fun t member => under_pieces_eq_keys (filled t member),
      Rendering.separated_flatMap "," _ keyed, List.map_flatMap]
  have opened := Rendering.under_append [.text " ORDER BY "] (separated "," (terms.map OrderingTerm.pieces)) r
  rw [Rendering.under_singleton_text, joined, Rendering.under_separated, ← keyTexts_eq] at opened
  rw [← opened]
  cases terms with
  | nil => exact (ordered rfl).elim
  | cons t rest => rfl

/-- Every key but the last of each term stands without a direction, whatever direction the term is given. So the
clause that gives all keys of a term its direction is written just if each term is without one or has a single key. -/
theorem direction_stands_last (s : Statement) (ordered : s.ordering ≠ [])
    (filled : ∀ t ∈ s.ordering, t.column.Filled) :
    let clause (r : Renaming) := (under (orderingPieces s.ordering) r).1
    let listing (keys : List OrderingTerm) (r : Renaming) := " ORDER BY " ++ ",".intercalate (keyTexts keys r).1
    (∀ way, ∃ before r after, (s.compileBy way).sql = before ++ clause r ++ after) ∧
      (∀ r, clause r = listing (s.ordering.flatMap keys) r) ∧
      (∀ t ∈ s.ordering, t.keys.length = t.column.slots ∧
        ∃ (first : List Column) (last : Column), t.column.leaves = first ++ [last] ∧
          ∀ direction?, keys { t with direction? } = first.map (⟨·, none⟩) ++ [⟨last, direction?⟩]) ∧
      ∀ r, clause r = listing (s.ordering.flatMap directedKeys) r ↔
        ∀ t ∈ s.ordering, t.direction? = none ∨ t.column.slots = 1 := by
  intro clause listing
  have written (r : Renaming) : clause r = listing (s.ordering.flatMap keys) r :=
    congrArg Prod.fst (under_orderingPieces ordered filled r)
  refine ⟨?_, written, ?_, ?_⟩
  · intro way
    exact s.exists_sql_eq_of_tailPieces way rfl
  · intro t member
    obtain ⟨first, last, split⟩ := exists_leaves_eq_concat (filled t member)
    refine ⟨t.length_keys, first, last, split, ?_⟩
    intro direction?
    rw [keys, split, keysWith_concat]
  · intro r
    have lighter := forall₂_flatMap fun t (_ : t ∈ s.ordering) => t.keys_lighter
    rw [written, String.append_right_inj, intercalate_eq_iff_of_le (keyTexts_le lighter r),
      keyTexts_eq_iff lighter, flatMap_eq_iff fun t _ => t.keys_lighter.length_eq]
    exact forall₂_congr fun t member => keys_eq_directedKeys_iff (filled t member)

theorem direction_stands_last_for_fields :
    let person : Table := .named "person"
    let name : Column := .field ⟨person, none, .text, false⟩ "name"
    let age : Column := .field ⟨person, none, .integer, false⟩ "age"
    let both : Column := .composite ⟨person, none, .text, false⟩ [name, age]
    let s : Statement :=
      { select false .all person with ordering := [⟨both, none⟩, ⟨age, some .descending⟩, ⟨name, some .ascending⟩] }
    (∀ t ∈ s.ordering, t.column.Filled) ∧
      (under (orderingPieces s.ordering) .off).1 =
        " ORDER BY person.name,person.age,person.age DESC,person.name ASC" := by
  intro person name age both s
  have parts : ∀ part ∈ [name, age], part.Filled :=
    List.forall_mem_cons.mpr ⟨.field _ _, List.forall_mem_singleton.mpr (.field _ _)⟩
  have filled : ∀ t ∈ s.ordering, t.column.Filled :=
    List.forall_mem_cons.mpr ⟨.composite _ (List.cons_ne_nil _ _) parts,
      List.forall_mem_cons.mpr ⟨.field _ _, List.forall_mem_singleton.mpr (.field _ _)⟩⟩
  obtain ⟨-, -, -, directed⟩ := direction_stands_last s (List.cons_ne_nil _ _) filled
  exact ⟨filled, ((directed .off).mpr (by decide)).trans (by decide)⟩

/-- A composite in descending order is descending in its last part only. -/
theorem direction_misses_first_key :
    let person : Table := .named "person"
    let name : Column := .field ⟨person, none, .text, false⟩ "name"
    let age : Column := .field ⟨person, none, .integer, false⟩ "age"
    let both : OrderingTerm := ⟨.composite ⟨person, none, .text, false⟩ [name, age], some .descending⟩
    let s : Statement := { select false .all person with ordering := [both] }
    (s.compile .standard).sql = "SELECT * FROM person ORDER BY person.name,person.age DESC" ∧
      both.directedKeys = [⟨name, some .descending⟩, ⟨age, some .descending⟩] ∧
      (under (orderingPieces s.ordering) .off).1 ≠
        " ORDER BY " ++ ",".intercalate (keyTexts (s.ordering.flatMap directedKeys) .off).1 := by
  decide

end Statement

end SqlSelect
