import Mathlib.Data.List.Induction
import Mathlib.Order.Bounds.Basic
import SqlSelect.Proofs.Numbered.Column
import SqlSelect.Proofs.Separated
/-!
Leaves of columns. Flattening a composite gives columns of one slot each, and an alias on the way down
becomes the beginning of theirs. Compiling a column appends the entries of its leaves and indexes their
output names, one slot after the other.
-/

namespace SqlSelect

/-! ## The index of consecutive slots -/

namespace Positions

/-- The index with the names of consecutive slots put in, a later one over an equal one before it. -/
def insertFrom (m : Positions) (slot : Nat) : List String → Positions
  | [] => m
  | name :: rest => insertFrom (m.insert name slot) (slot + 1) rest

variable (m : Positions) (slot : Nat)

theorem insertFrom_append (names more : List String) :
    insertFrom m slot (names ++ more) = insertFrom (insertFrom m slot names) (slot + names.length) more := by
  induction names generalizing m slot with
  | nil => rfl
  | cons name rest ih =>
    have next : slot + 1 + rest.length = slot + (name :: rest).length := by
      simp only [List.length_cons]
      omega
    simp only [List.cons_append, insertFrom, ih, next]

theorem insertFrom_concat (names : List String) (last : String) :
    insertFrom m slot (names ++ [last]) = (insertFrom m slot names).insert last (slot + names.length) :=
  insertFrom_append m slot names [last]

theorem getElem?_insertFrom_concat (names : List String) (last name : String) :
    (insertFrom m slot (names ++ [last]))[name]? =
      if last = name then some (slot + names.length) else (insertFrom m slot names)[name]? := by
  rw [insertFrom_concat, Std.ExtTreeMap.getElem?_insert]
  by_cases same : last = name <;> simp [same]

/-- In an index that is built anew a name has the last of its slots. -/
theorem getElem?_insertFrom_eq_some (names : List String) (name : String) (n : Nat) :
    (insertFrom ∅ 0 names)[name]? = some n ↔ IsGreatest {slot | names[slot]? = some name} n := by
  induction names using List.reverseRecOn with
  | nil => simp [insertFrom, IsGreatest]
  | append_singleton names last ih =>
    rw [getElem?_insertFrom_concat, Nat.zero_add]
    by_cases same : last = name
    · subst same
      have top : IsGreatest {slot | (names ++ [last])[slot]? = some last} names.length := by
        refine ⟨by simp, ?_⟩
        intro slot here
        have inside := (List.getElem?_eq_some_iff.mp here).1
        simp only [List.length_append, List.length_singleton] at inside
        omega
      rw [if_pos rfl, Option.some.injEq]
      constructor
      · rintro rfl
        exact top
      · intro greatest
        exact top.unique greatest
    · have slots : {slot : Nat | (names ++ [last])[slot]? = some name} =
          {slot : Nat | names[slot]? = some name} := by
        ext slot
        simp only [Set.mem_ofPred_eq, List.getElem?_append]
        split
        · rfl
        · rename_i beyond
          rw [List.getElem?_eq_none (Nat.le_of_not_lt beyond)]
          simp [List.getElem?_singleton, same]
      rw [if_neg same, slots, ih]

theorem getElem?_insertFrom_eq_none (names : List String) (name : String) :
    (insertFrom ∅ 0 names)[name]? = none ↔ name ∉ names := by
  induction names using List.reverseRecOn with
  | nil => simp [insertFrom]
  | append_singleton names last ih =>
    rw [getElem?_insertFrom_concat]
    by_cases same : last = name
    · simp [same]
    · simp [same, ih, Ne.symm same]

end Positions

/-! ## Leaves -/

namespace Column

/-- The column with another alias, or with none. -/
def labelled (alias? : Option String) : Column → Column
  | field info name => field { info with alias? } name
  | literal info sql => literal { info with alias? } sql
  | bound info argument => bound { info with alias? } argument
  | function info o sep c operands => function { info with alias? } o sep c operands
  | composite info parts => composite { info with alias? } parts

mutual

/-- The columns of one slot each that a column comes down to when it stands under an alias or under none. -/
def leavesUnder (alias? : Option String) : Column → List Column
  | composite _ parts => listLeavesUnder alias? parts
  | field info name => [(field info name).labelled alias?]
  | literal info sql => [(literal info sql).labelled alias?]
  | bound info argument => [(bound info argument).labelled alias?]
  | function info o sep c operands => [(function info o sep c operands).labelled alias?]

def listLeavesUnder (alias? : Option String) : List Column → List Column
  | [] => []
  | part :: rest => leavesUnder (partAlias alias? part) part ++ listLeavesUnder alias? rest

end

/-- The columns of one slot each that a column comes down to. -/
def leaves (c : Column) : List Column :=
  c.leavesUnder c.info.alias?

theorem listLeavesUnder_eq (alias? : Option String) (parts : List Column) :
    listLeavesUnder alias? parts = parts.flatMap fun part => part.leavesUnder (partAlias alias? part) := by
  induction parts with
  | nil => rfl
  | cons part rest ih => rw [listLeavesUnder, ih, List.flatMap_cons]

theorem leaves_labelled (c : Column) (alias? : Option String) :
    (c.labelled alias?).leaves = c.leavesUnder alias? := by
  cases c <;> rfl

/-- Every part of a composite gets its alias first and is flattened then. -/
theorem leaves_composite (info : ColumnInfo) (parts : List Column) :
    (composite info parts).leaves =
      parts.flatMap fun part => (part.labelled (partAlias info.alias? part)).leaves := by
  simp only [leaves_labelled]
  exact listLeavesUnder_eq info.alias? parts

/-- Any other column is its own leaf. -/
theorem composite_or_leaves_eq (c : Column) : (∃ info parts, c = composite info parts) ∨ c.leaves = [c] := by
  cases c with
  | composite info parts => exact .inl ⟨info, parts, rfl⟩
  | _ => exact .inr rfl

theorem length_listLeavesUnder_of {parts : List Column}
    (h : ∀ c ∈ parts, ∀ alias?, (c.leavesUnder alias?).length = c.slots) (alias? : Option String) :
    (listLeavesUnder alias? parts).length = listSlots parts := by
  induction parts with
  | nil => rfl
  | cons part rest ih =>
    have hrest := ih fun c hc => h c (List.mem_cons_of_mem _ hc)
    rw [listLeavesUnder, List.length_append, h part List.mem_cons_self, hrest, listSlots]

theorem length_leavesUnder (c : Column) (alias? : Option String) :
    (c.leavesUnder alias?).length = c.slots := by
  induction c using Column.induction generalizing alias? with
  | composite info parts ih => exact length_listLeavesUnder_of ih alias?
  | _ => rfl

theorem length_leaves (c : Column) : c.leaves.length = c.slots :=
  c.length_leavesUnder c.info.alias?

end Column

/-! ## Slots -/

namespace Projected

open Column (outputName)

/-- What a projection gains from some leaves: a slot for each, indexed by its output name. -/
structure Gains (leaves : List Column) (s t : Projected) : Prop where
  positions : t.positions = Positions.insertFrom s.positions s.next (leaves.map outputName)
  next : t.next = s.next + leaves.length

theorem Gains.nil (s : Projected) : Gains [] s s :=
  ⟨rfl, rfl⟩

theorem Gains.append {leaves more : List Column} {s t u : Projected} (h : Gains leaves s t)
    (g : Gains more t u) : Gains (leaves ++ more) s u := by
  constructor
  · rw [g.positions, h.positions, h.next, List.map_append, Positions.insertFrom_append, List.length_map]
  · rw [g.next, h.next, List.length_append, Nat.add_assoc]

theorem Gains.comma {leaves : List Column} {s t : Projected} (h : Gains leaves s t) :
    Gains leaves s (t.append [.text ","]) :=
  ⟨h.positions, h.next⟩

theorem gains_entry (s : Projected) (pieces : List Piece) (leaf : Column) :
    Gains [leaf] s (s.entry pieces leaf.outputName) :=
  ⟨rfl, rfl⟩

end Projected

namespace Column

open Projected

theorem gains_projectParts_of {parts : List Column}
    (h : ∀ c ∈ parts, ∀ alias? s, Gains (c.leavesUnder alias?) s (c.project alias? s))
    (alias? : Option String) (s : Projected) :
    Gains (listLeavesUnder alias? parts) s (projectParts alias? parts s) := by
  induction parts generalizing s with
  | nil => exact .nil s
  | cons part rest ih =>
    have first := h part List.mem_cons_self (partAlias alias? part) s
    have hrest := ih fun c hc => h c (List.mem_cons_of_mem _ hc)
    cases rest with
    | nil => simpa only [listLeavesUnder, projectParts, List.append_nil] using first
    | cons next rest => exact first.comma.append (hrest _)

/-- Projecting a column takes a slot for each of its leaves, also where a composite has none. -/
theorem gains_project (c : Column) (alias? : Option String) (s : Projected) :
    Gains (c.leavesUnder alias?) s (c.project alias? s) := by
  induction c using Column.induction generalizing alias? s with
  | composite info parts ih => exact gains_projectParts_of ih alias? s
  | _ => exact gains_entry s _ _

theorem gains_projectParts (alias? : Option String) (parts : List Column) (s : Projected) :
    Gains (listLeavesUnder alias? parts) s (projectParts alias? parts s) :=
  gains_projectParts_of (fun c _ => c.gains_project) alias? s

/-! ## Entries -/

/-- Every composite that is flattened has a part, so that each comma stands between two entries. -/
inductive Filled : Column → Prop where
  | field (info : ColumnInfo) (name : String) : Filled (field info name)
  | literal (info : ColumnInfo) (sql : String) : Filled (literal info sql)
  | bound (info : ColumnInfo) (argument : String) : Filled (bound info argument)
  | function (info : ColumnInfo) (opening separator closing : String) (operands : List Column) :
    Filled (function info opening separator closing operands)
  | composite (info : ColumnInfo) {parts : List Column} :
    parts ≠ [] → (∀ part ∈ parts, Filled part) → Filled (composite info parts)

def entryPieces (leaf : Column) : List Piece :=
  leaf.pieces ++ aliasPieces leaf.info.alias?

theorem listLeavesUnder_ne_nil_of {parts : List Column} (filled : parts ≠ [])
    (h : ∀ c ∈ parts, ∀ alias?, c.leavesUnder alias? ≠ []) (alias? : Option String) :
    listLeavesUnder alias? parts ≠ [] := by
  obtain ⟨part, rest, rfl⟩ := List.exists_cons_of_ne_nil filled
  exact List.append_ne_nil_of_left_ne_nil (h part List.mem_cons_self (partAlias alias? part)) _

theorem leavesUnder_ne_nil {c : Column} (filled : c.Filled) (alias? : Option String) :
    c.leavesUnder alias? ≠ [] := by
  induction filled generalizing alias? with
  | composite info nonempty _ ih => exact listLeavesUnder_ne_nil_of nonempty ih alias?
  | _ => exact List.cons_ne_nil _ _

open Rendering (separated)

/-- A column renders as its leaves do with commas between them; their aliases are not part of it. -/
theorem pieces_eq_separated {c : Column} (filled : c.Filled) (alias? : Option String) :
    c.pieces = separated "," ((c.leavesUnder alias?).map pieces) := by
  induction filled generalizing alias? with
  | @composite info parts nonempty filled ih =>
    have parted : parts.map pieces =
        parts.map fun part => separated "," ((part.leavesUnder (partAlias alias? part)).map pieces) :=
      List.map_congr_left fun part member => ih part member _
    have kept : ∀ part ∈ parts, (part.leavesUnder (partAlias alias? part)).map pieces ≠ [] := by
      intro part member
      simpa using leavesUnder_ne_nil (filled part member) (partAlias alias? part)
    rw [pieces, listPieces_eq, parted, Rendering.separated_flatMap "," _ kept, leavesUnder, listLeavesUnder_eq,
      List.map_flatMap]
  | _ => rfl

theorem pieces_projectParts_of {parts : List Column} (filled : ∀ part ∈ parts, part.Filled)
    (h : ∀ c ∈ parts, ∀ alias? s,
      (c.project alias? s).pieces = s.pieces ++ separated "," ((c.leavesUnder alias?).map entryPieces))
    (alias? : Option String) (s : Projected) :
    (projectParts alias? parts s).pieces =
      s.pieces ++ separated "," ((listLeavesUnder alias? parts).map entryPieces) := by
  induction parts generalizing s with
  | nil => simp [projectParts, listLeavesUnder, separated]
  | cons part rest ih =>
    have first := h part List.mem_cons_self (partAlias alias? part) s
    have hrest := ih (fun c hc => filled c (List.mem_cons_of_mem _ hc))
      (fun c hc => h c (List.mem_cons_of_mem _ hc))
    cases rest with
    | nil => simpa only [listLeavesUnder, projectParts, List.append_nil] using first
    | cons next rest =>
      have left : (part.leavesUnder (partAlias alias? part)).map entryPieces ≠ [] := by
        simpa using leavesUnder_ne_nil (filled part List.mem_cons_self) (partAlias alias? part)
      have right : (listLeavesUnder alias? (next :: rest)).map entryPieces ≠ [] := by
        simpa only [ne_eq, List.map_eq_nil_iff] using
          listLeavesUnder_ne_nil_of (List.cons_ne_nil next rest)
            (fun c hc => leavesUnder_ne_nil (filled c (List.mem_cons_of_mem _ hc))) alias?
      have joined := Rendering.separated_append "," left right
      rw [listLeavesUnder, List.map_append, joined, projectParts, hrest]
      · simp only [Projected.append, first, List.append_assoc, List.singleton_append]
      · exact List.cons_ne_nil next rest

/-- Projecting a column appends the entries of its leaves with commas between them. -/
theorem pieces_project {c : Column} (filled : c.Filled) (alias? : Option String) (s : Projected) :
    (c.project alias? s).pieces = s.pieces ++ separated "," ((c.leavesUnder alias?).map entryPieces) := by
  induction filled generalizing alias? s with
  | composite info _ filled ih => exact pieces_projectParts_of filled ih alias? s
  | _ => rfl

theorem pieces_projectParts {parts : List Column} (filled : ∀ part ∈ parts, part.Filled)
    (alias? : Option String) (s : Projected) :
    (projectParts alias? parts s).pieces =
      s.pieces ++ separated "," ((listLeavesUnder alias? parts).map entryPieces) :=
  pieces_projectParts_of filled (fun c hc => pieces_project (filled c hc)) alias? s

/-! ## Texts of entries -/

open Rendering (under)

/-- The entry of each leaf, rendered with the renaming that the entry before it left. -/
def entryTexts : List Column → Renaming → List String × Renaming
  | [], r => ([], r)
  | leaf :: rest, r =>
    let (text, r) := under leaf.pieces r
    let (texts, r) := entryTexts rest r
    ((text ++ aliasText leaf.info.alias?) :: texts, r)

theorem under_aliasPieces (alias? : Option String) (r : Renaming) :
    under (aliasPieces alias?) r = (aliasText alias?, r) := by
  cases alias? <;>
    simp [aliasPieces, aliasText, under, Piece.occurrence?, Piece.plain, Piece.textUnder, String.append_assoc]

theorem under_entryPieces (leaf : Column) (r : Renaming) :
    under leaf.entryPieces r =
      ((under leaf.pieces r).1 ++ aliasText leaf.info.alias?, (under leaf.pieces r).2) := by
  rw [entryPieces, Rendering.under_append, under_aliasPieces]

theorem entryTexts_eq (leaves : List Column) (r : Renaming) :
    entryTexts leaves r = Rendering.texts (leaves.map entryPieces) r := by
  induction leaves generalizing r with
  | nil => rfl
  | cons leaf rest ih => simp only [entryTexts, List.map_cons, Rendering.texts, under_entryPieces, ih]

theorem under_separated_entryPieces (leaves : List Column) (r : Renaming) :
    under (separated "," (leaves.map entryPieces)) r =
      (",".intercalate (entryTexts leaves r).1, (entryTexts leaves r).2) := by
  rw [entryTexts_eq, Rendering.under_separated]

/-- Without a renaming an entry is the leaf's own text and its alias. -/
theorem entryTexts_off (leaves : List Column) :
    entryTexts leaves .off = (leaves.map fun leaf => leaf.sql ++ aliasText leaf.info.alias?, .off) := by
  induction leaves with
  | nil => rfl
  | cons leaf rest ih =>
    simp only [entryTexts, Rendering.under_off, sql, ih, List.map_cons]

end Column

end SqlSelect
