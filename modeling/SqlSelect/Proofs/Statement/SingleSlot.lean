import SqlSelect.Function.Catalogue
import SqlSelect.Proofs.Statement.Slots
/-!
Statements for a single column. A column that is no composite has the one slot of the result, under the name that its
decoder reports. A composite brings a slot for each of its leaves, under the leaf's name, and no slot is under the
composite's own alias.
-/

namespace SqlSelect

namespace Positions

/-- An index has an entry for each name, however often it is used. -/
theorem size_insertFrom (names : List String) : (insertFrom ∅ 0 names).size = names.toFinset.card := by
  induction names using List.reverseRecOn with
  | nil => rfl
  | append_singleton names last ih =>
    have known : (insertFrom ∅ 0 names).contains last = true ↔ last ∈ names := by
      rw [← Std.ExtTreeMap.mem_iff_contains, Std.ExtTreeMap.mem_iff_isSome_getElem?, Option.isSome_iff_ne_none,
        ne_eq, getElem?_insertFrom_eq_none, not_not]
    rw [insertFrom_concat, Std.ExtTreeMap.size_insert, ih, List.toFinset_append]
    by_cases seen : last ∈ names
    · rw [if_pos (known.mpr seen)]
      simp [seen]
    · rw [if_neg (mt known.mp seen)]
      simp [seen]

end Positions

namespace Column

/-- An alias on the way down stays the beginning of the names of all leaves. -/
theorem exists_outputName_eq (c : Column) (label : String) {leaf : Column}
    (member : leaf ∈ c.leavesUnder (some label)) : ∃ rest, leaf.outputName = label ++ rest := by
  induction c using Column.induction generalizing label with
  | composite info parts ih =>
    rw [leavesUnder, listLeavesUnder_eq] at member
    obtain ⟨part, inside, below⟩ := List.mem_flatMap.mp member
    obtain ⟨rest, named⟩ := ih part inside _ below
    exact ⟨"." ++ part.info.alias?.getD part.bareName ++ rest, by rw [named]; simp only [String.append_assoc]⟩
  | _ =>
    obtain rfl := List.mem_singleton.mp member
    exact ⟨"", String.append_empty.symm⟩

/-- No leaf of a composite with an alias has the alias for its name. -/
theorem outputName_ne_of_composite {info : ColumnInfo} {label : String} (named : info.alias? = some label)
    {parts : List Column} {leaf : Column} (member : leaf ∈ (composite info parts).leaves) :
    leaf.outputName ≠ label := by
  rw [leaves, show (composite info parts).info = info from rfl, named, leavesUnder, listLeavesUnder_eq] at member
  obtain ⟨part, -, below⟩ := List.mem_flatMap.mp member
  obtain ⟨rest, begun⟩ := exists_outputName_eq part _ below
  -- behind the alias stands at least the point before the part's name
  intro same
  have lengths := congrArg String.length (begun.symm.trans same)
  have point : ".".length = 1 := rfl
  simp only [String.length_append, point] at lengths
  omega

end Column

namespace Projection

theorem next_projected (p : Projection) : p.projected.next = p.leaves.length := by
  rw [leaves_eq]
  cases p with
  | all => rfl
  | columns first rest =>
    exact (Column.gains_projectParts none (first :: rest) (.startingAt 0)).next.trans (Nat.zero_add _)
  | single t c => exact (Column.gains_projectParts none [c.column] (.startingAt 0)).next.trans (Nat.zero_add _)

theorem leaves_single {t : HostType} (c : TypedColumn t) : (single t c).leaves = c.column.leaves :=
  List.flatMap_singleton Column.leaves c.column

end Projection

namespace Statement

theorem size_positions (s : Statement) (way : Compilation) :
    (s.compileBy way).positions.size = (s.projection.leaves.map Column.outputName).toFinset.card := by
  rw [s.positions_eq_insertFrom way, Positions.size_insertFrom]

/-- The result has one slot, and it is found under the name. -/
def HasSoleSlot (s : Statement) (way : Compilation) (name : String) : Prop :=
  s.projection.projected.next = 1 ∧ (s.compileBy way).positions.size = 1 ∧
    (s.compileBy way).position name = .ok 0

theorem hasSoleSlot_iff (s : Statement) (way : Compilation) (name : String) :
    s.HasSoleSlot way name ↔ s.projection.leaves.map Column.outputName = [name] := by
  constructor
  · rintro ⟨next, -, found⟩
    obtain ⟨leaf, sole⟩ := List.length_eq_one_iff.mp (s.projection.next_projected.symm.trans next)
    obtain ⟨first, here, named⟩ := ((s.position_eq_ok way name 0).mp found).1
    rw [sole] at here ⊢
    obtain rfl := Option.some.inj here
    rw [List.map_singleton, named]
  · intro sole
    obtain ⟨leaf, leaves, named⟩ := List.map_eq_singleton_iff.mp sole
    refine ⟨?_, ?_, ?_⟩
    · rw [Projection.next_projected, leaves]
      rfl
    · rw [size_positions, sole]
      rfl
    · rw [position_eq_ok, leaves]
      refine ⟨⟨leaf, rfl, named⟩, ?_⟩
      rintro slot ⟨other, here, -⟩
      have inside := (List.getElem?_eq_some_iff.mp here).1
      rw [List.length_singleton] at inside
      omega

/-- A statement for a single column has a slot for each leaf of the column and an entry for each of their names, and
its decoder reports errors under the column's output name. They are one slot and one entry that is found under this
name just if the column comes down to one leaf of the name: for every column that is no composite, but for no
composite with an alias, since none of its leaves has it. -/
theorem sole_slot_iff (s : Statement) {t : HostType} {c : TypedColumn t} (single : s.projection = .single t c)
    (way : Compilation) :
    let compiled := s.compileBy way
    let d : Decoder := ⟨t, c.column.outputName, c.column.info.storage⟩
    let names := c.column.leaves.map Column.outputName
    compiled.decoder? = some d ∧
      (∀ raw name, d.decode raw = .error (.unexpectedNull name) → name = d.name) ∧
      s.projection.projected.next = c.column.slots ∧ compiled.positions.size = names.toFinset.card ∧
      (s.HasSoleSlot way d.name ↔ names = [d.name]) ∧
      ((∀ info parts, c.column ≠ .composite info parts) → s.HasSoleSlot way d.name) ∧
      ∀ info parts label, c.column = .composite info parts → info.alias? = some label →
        compiled.position label = .error (.unknownColumn label) ∧ d.name = label := by
  intro compiled d names
  have leaves : s.projection.leaves = c.column.leaves := by
    rw [single, Projection.leaves_single]
  have sole := s.hasSoleSlot_iff way d.name
  rw [leaves] at sole
  refine ⟨?_, ?_, ?_, ?_, sole, ?_, ?_⟩
  · rw [show compiled.decoder? = _ from s.decoder_compileBy way, single]
    rfl
  · intro raw name refused
    exact Decoder.name_of_unexpectedNull refused
  · rw [Projection.next_projected, leaves, Column.length_leaves]
  · rw [show compiled.positions.size = _ from s.size_positions way, leaves]
  · intro plain
    rcases c.column.composite_or_leaves_eq with ⟨info, parts, composite⟩ | own
    · exact (plain info parts composite).elim
    · rw [sole, own]
      rfl
  · intro info parts label composite named
    refine ⟨?_, ?_⟩
    · rw [show compiled.position label = _ ↔ _ from s.position_eq_error way label, leaves, composite]
      intro leaf member
      exact Column.outputName_ne_of_composite named member
    · show c.column.info.alias?.getD c.column.sql = label
      rw [composite, show (Column.composite info parts).info = info from rfl, named, Option.getD_some]

/-- The value for the greatest age is the one that a missing age would be reported for. -/
theorem sole_slot_of_greatest_age :
    let age : TypedColumn (.integer .int64) := .of _ rfl (.named "person") "age"
    let greatest := (Catalogue.max age).withAlias "greatest"
    let s := select true (.single _ greatest) (.named "person")
    let d : Decoder := ⟨.integer .int64, "greatest", .integer⟩
    s.projection = .single _ greatest ∧ s.HasSoleSlot (.under .standard) "greatest" ∧
      (s.compile .standard).decoder? = some d ∧ d.decode .null = .error (.unexpectedNull "greatest") := by
  intro age greatest s d
  obtain ⟨decoder, -, -, -, -, plain, -⟩ := sole_slot_iff s (c := greatest) rfl (.under .standard)
  exact ⟨rfl, plain nofun, decoder, rfl⟩

/-- Two parts take two slots, and a part under an alias is not found by the alias, which a `NULL` would be reported
for. -/
theorem sole_slot_missed_by_composites :
    let name : Column := .field ⟨.named "person", none, .text, false⟩ "name"
    let age : Column := .field ⟨.named "person", none, .integer, false⟩ "age"
    let both : TypedColumn .text := .composite _ (.named "person") [name, age]
    let owner := (TypedColumn.composite .text (.named "person") [name]).withAlias "owner"
    let pairs := select false (.single _ both) (.named "person")
    let owners := select false (.single _ owner) (.named "person")
    let d : Decoder := ⟨.text, "owner", .text⟩
    (pairs.projection.projected.next = 2 ∧ (pairs.compile .standard).positions.size = 2 ∧
      (pairs.compile .standard).position both.column.outputName =
        .error (.unknownColumn "person.name,person.age") ∧
      ¬ pairs.HasSoleSlot (.under .standard) both.column.outputName) ∧
    (owners.compile .standard).decoder? = some d ∧ d.decode .null = .error (.unexpectedNull "owner") ∧
      (owners.compile .standard).position "owner.name" = .ok 0 ∧
      (owners.compile .standard).position "owner" = .error (.unknownColumn "owner") ∧
      ¬ owners.HasSoleSlot (.under .standard) "owner" := by
  intro name age both owner pairs owners d
  have missing : (owners.compile .standard).position "owner" = .error (.unknownColumn "owner") := by decide
  refine ⟨⟨rfl, by decide, by decide, ?_⟩, rfl, rfl, by decide, missing, ?_⟩
  · rintro ⟨next, -⟩
    exact nomatch next
  · rintro ⟨-, -, found⟩
    exact nomatch missing.symm.trans found

end Statement

end SqlSelect
