import Mathlib
import SqlSelect.Proofs.Leaves
import SqlSelect.Proofs.Statement.Results
/-!
Slots of compiled statements. The slots of a projection are the leaves of its columns, and a name is found
at the last slot that has it.
-/

namespace SqlSelect

open Column (entryTexts)

namespace Projection

/-- The columns of one slot each that a projection comes down to; everything has none. -/
def leaves (p : Projection) : List Column :=
  p.toList.flatMap Column.leaves

theorem leaves_eq (p : Projection) : p.leaves = Column.listLeavesUnder none p.toList :=
  (Column.listLeavesUnder_eq none p.toList).symm

theorem positions_projected (p : Projection) :
    p.projected.positions = Positions.insertFrom ∅ 0 (p.leaves.map Column.outputName) := by
  rw [leaves_eq]
  cases p with
  | all => rfl
  | columns first rest => exact (Column.gains_projectParts none (first :: rest) (.startingAt 0)).positions
  | single t c => exact (Column.gains_projectParts none [c.column] (.startingAt 0)).positions

/-- With columns to select, the text is that of their leaves, entry by entry. -/
theorem sql_compile (p : Projection) (nonempty : p.toList ≠ []) (filled : ∀ c ∈ p.toList, c.Filled)
    (r : Renaming) : (p.compile r).sql = ",".intercalate (entryTexts p.leaves r).1 := by
  have pieces := Column.pieces_projectParts filled none (.startingAt 0)
  have text := congrArg (fun pieces => (Rendering.under pieces r).1) pieces
  simp only [Projected.startingAt, List.nil_append, ← leaves_eq, Column.under_separated_entryPieces] at text
  cases p with
  | all => exact (nonempty rfl).elim
  | columns first rest => exact text
  | single t c => exact text

end Projection

namespace Statement

/-- However a statement is compiled, its index has the leaves' names in their order. -/
theorem positions_eq_insertFrom (s : Statement) (way : Compilation) :
    (s.compileBy way).positions = Positions.insertFrom ∅ 0 (s.projection.leaves.map Column.outputName) := by
  rw [s.positions_compileBy way .off, ← Projection.written_projected, ← Projection.positions_projected]
  rfl

theorem position_eq_ok (s : Statement) (way : Compilation) (name : String) (n : Nat) :
    (s.compileBy way).position name = .ok n ↔
      IsGreatest {slot | ∃ leaf, s.projection.leaves[slot]? = some leaf ∧ leaf.outputName = name} n := by
  have found := Positions.getElem?_insertFrom_eq_some (s.projection.leaves.map Column.outputName) name n
  simp only [List.getElem?_map, Option.map_eq_some_iff] at found
  rw [← found, ← s.positions_eq_insertFrom way, Compiled.position]
  cases (s.compileBy way).positions[name]? <;> simp

theorem position_eq_error (s : Statement) (way : Compilation) (name : String) :
    (s.compileBy way).position name = .error (.unknownColumn name) ↔
      ∀ leaf ∈ s.projection.leaves, leaf.outputName ≠ name := by
  have missing := Positions.getElem?_insertFrom_eq_none (s.projection.leaves.map Column.outputName) name
  simp only [List.mem_map, not_exists, not_and] at missing
  rw [← missing, ← s.positions_eq_insertFrom way, Compiled.position]
  cases (s.compileBy way).positions[name]? <;> simp

theorem name_of_position {s : Statement} {way : Compilation} {name other : String} {n : Nat}
    (h : (s.compileBy way).position name = .ok n) (g : (s.compileBy way).position other = .ok n) :
    name = other := by
  obtain ⟨leaf, here, named⟩ := ((s.position_eq_ok way name n).mp h).1
  obtain ⟨same, there, namedOther⟩ := ((s.position_eq_ok way other n).mp g).1
  obtain rfl : leaf = same := Option.some.inj (here.symm.trans there)
  exact named.symm.trans namedOther

/-- A column is flattened to leaves. Compiling it, plainly or under a renaming, takes one slot for each leaf
from the next free one on and indexes them by their output names; where every composite has a part, it appends
their entries with commas between them. So a compiled statement finds a name at the last slot whose leaf has
it. -/
theorem slots_are_leaves :
    (∀ info parts, (Column.composite info parts).leaves =
      parts.flatMap fun part => (part.labelled (Column.partAlias info.alias? part)).leaves) ∧
    (∀ c : Column, (∃ info parts, c = .composite info parts) ∨ c.leaves = [c]) ∧
    (∀ (c : Column) (s : Projected) (r : Renaming),
      let before := s.written r
      let after := (c.compile s).written r
      let entries := entryTexts c.leaves before.after
      c.slots = c.leaves.length ∧ after.next = before.next + c.slots ∧
        after.positions =
          Positions.insertFrom before.positions before.next (c.leaves.map Column.outputName) ∧
        (c.Filled → after.text = before.text ++ ",".intercalate entries.1 ∧ after.after = entries.2)) ∧
    (∀ leaves, entryTexts leaves .off =
      (leaves.map fun leaf => leaf.sql ++ Column.aliasText leaf.info.alias?, .off)) ∧
    ∀ (s : Statement) (way : Compilation),
      let leaves := s.projection.leaves
      let compiled := s.compileBy way
      (s.projection.toList ≠ [] → (∀ c ∈ s.projection.toList, c.Filled) →
        ∀ r, (s.projection.compile r).sql = ",".intercalate (entryTexts leaves r).1) ∧
      (∀ name n, compiled.position name = .ok n ↔
        IsGreatest {slot | ∃ leaf, leaves[slot]? = some leaf ∧ leaf.outputName = name} n) ∧
      (∀ name, compiled.position name = .error (.unknownColumn name) ↔
        ∀ leaf ∈ leaves, leaf.outputName ≠ name) ∧
      ∀ name other n, compiled.position name = .ok n → compiled.position other = .ok n → name = other := by
  refine ⟨Column.leaves_composite, Column.composite_or_leaves_eq, ?_, Column.entryTexts_off, ?_⟩
  · intro c s r before after entries
    have gains := c.gains_project c.info.alias? s
    refine ⟨c.length_leaves.symm, ?_, gains.positions, ?_⟩
    · rw [← c.length_leaves]
      exact gains.next
    · intro filled
      have text : Rendering.under (c.compile s).pieces r =
          (before.text ++ ",".intercalate entries.1, entries.2) := by
        rw [Column.compile, Column.pieces_project filled, Rendering.under_append,
          Column.under_separated_entryPieces]
        rfl
      exact ⟨congrArg Prod.fst text, congrArg Prod.snd text⟩
  · intro s way leaves compiled
    refine ⟨?_, s.position_eq_ok way, s.position_eq_error way, ?_⟩
    · intro nonempty filled r
      exact s.projection.sql_compile nonempty filled r
    · intro name other n
      exact name_of_position

/-- A person with a home, each in a composite. -/
def resident : Column :=
  let field (name : String) (alias? : Option String) : Column :=
    .field ⟨.named "person", alias?, .text, false⟩ name
  let home : Column :=
    .composite ⟨.named "person", some "home", .text, false⟩ [field "city" none, field "zip" (some "code")]
  .composite ⟨.named "person", some "owner", .text, false⟩ [field "name" none, home]

theorem filled_resident : resident.Filled := by
  refine .composite _ (List.cons_ne_nil _ _) ?_
  intro part member
  rcases List.mem_pair.mp member with rfl | rfl
  · exact .field _ _
  · refine .composite _ (List.cons_ne_nil _ _) ?_
    intro part member
    rcases List.mem_pair.mp member with rfl | rfl <;> exact .field _ _

/-- The resident behind a column that is there already, and with a nickname under a name given before. -/
theorem slots_of_resident :
    let nick : Column := .field ⟨.named "person", some "owner.name", .text, false⟩ "nick"
    let s := select false (.columns resident [nick]) (.named "person")
    let r := Renaming.queued (RenameMap.empty.pushAll "person" ["p", "q"])
    resident.Filled ∧
      ((resident.compile ⟨[.text "id,"], ∅, 1⟩).written r).text =
        "id,p.name AS 'owner.name',q.city AS 'owner.home.city',person.zip AS 'owner.home.code'" ∧
      (∀ c ∈ s.projection.toList, c.Filled) ∧
      (s.projection.compile r).sql =
        "p.name AS 'owner.name',q.city AS 'owner.home.city',person.zip AS 'owner.home.code'," ++
          "person.nick AS 'owner.name'" ∧
      (s.compile .standard).position "owner.name" = .ok 3 ∧
      IsGreatest {slot | ∃ leaf, s.projection.leaves[slot]? = some leaf ∧ leaf.outputName = "owner.name"} 3 ∧
      ∀ other, (s.compile .standard).position other = .ok 3 → other = "owner.name" := by
  intro nick s r
  obtain ⟨-, -, columns, -, statements⟩ := slots_are_leaves
  obtain ⟨sql, found, -, single⟩ := statements s (.under .standard)
  have filled : ∀ c ∈ s.projection.toList, c.Filled := by
    intro c member
    rcases List.mem_pair.mp member with rfl | rfl
    · exact filled_resident
    · exact .field _ _
  have slot : (s.compile .standard).position "owner.name" = .ok 3 := by decide
  have text := ((columns resident ⟨[.text "id,"], ∅, 1⟩ r).2.2.2 filled_resident).1
  refine ⟨filled_resident, text.trans (by cbv), filled, ?_, slot, (found "owner.name" 3).mp slot, ?_⟩
  · exact (sql (List.cons_ne_nil _ _) filled r).trans (by cbv)
  · intro other same
    exact single other "owner.name" 3 same slot

end Statement

end SqlSelect
