import SqlSelect.Function.Literal
import SqlSelect.Proofs.Statement.Slots
import SqlSelect.Proofs.Text.Quoted
/-!
Aliases as literals of the projection. An alias is written between quotes as it is, so the literal denotes it
just if no quote is in it; and a quote gets in with any of the aliases and bare names that it is made of.
-/

namespace SqlSelect

namespace Column

/-! ## Labels -/

/-- The alias made of some labels; without labels there is none. -/
def joined : List String → Option String
  | [] => none
  | labels => some (".".intercalate labels)

/-- The labels of a part: its own behind those of the composite, or its own alias alone where that has none. -/
def partLabels (labels : List String) (part : Column) : List String :=
  match labels with
  | [] => part.info.alias?.toList
  | _ => labels ++ [part.info.alias?.getD part.bareName]

mutual

/-- The labels that the alias of each leaf is made of. -/
def leafLabels (labels : List String) : Column → List (List String)
  | composite _ parts => listLeafLabels labels parts
  | field _ _ => [labels]
  | literal _ _ => [labels]
  | bound _ _ => [labels]
  | function _ _ _ _ _ => [labels]

def listLeafLabels (labels : List String) : List Column → List (List String)
  | [] => []
  | part :: rest => leafLabels (partLabels labels part) part ++ listLeafLabels labels rest

end

theorem joined_toList (alias? : Option String) : joined alias?.toList = alias? := by
  cases alias? with
  | none => rfl
  | some name => simp [joined]

theorem partAlias_joined (labels : List String) (part : Column) :
    partAlias (joined labels) part = joined (partLabels labels part) := by
  cases labels with
  | nil => exact (joined_toList part.info.alias?).symm
  | cons first rest =>
    have longer := String.intercalate_append_of_ne_nil (s := ".") (List.cons_ne_nil first rest)
      (List.cons_ne_nil (part.info.alias?.getD part.bareName) [])
    simp only [List.cons_append, String.intercalate_singleton] at longer
    simp only [joined, partAlias, partLabels, List.cons_append, longer]

theorem aliases_listLeavesUnder_of {parts : List Column}
    (h : ∀ c ∈ parts, ∀ labels,
      (c.leavesUnder (joined labels)).map (·.info.alias?) = (c.leafLabels labels).map joined)
    (labels : List String) :
    (listLeavesUnder (joined labels) parts).map (·.info.alias?) =
      (listLeafLabels labels parts).map joined := by
  induction parts with
  | nil => rfl
  | cons part rest ih =>
    have hrest := ih fun c hc => h c (List.mem_cons_of_mem _ hc)
    simp only [listLeavesUnder, listLeafLabels, List.map_append, hrest, partAlias_joined,
      h part List.mem_cons_self]

theorem aliases_leavesUnder (c : Column) (labels : List String) :
    (c.leavesUnder (joined labels)).map (·.info.alias?) = (c.leafLabels labels).map joined := by
  induction c using Column.induction generalizing labels with
  | composite info parts ih => exact aliases_listLeavesUnder_of ih labels
  | _ => rfl

/-- An entry is the rendered leaf with its alias behind it. -/
theorem getElem?_entryTexts {leaves : List Column} {slot : Nat} {leaf : Column}
    (here : leaves[slot]? = some leaf) (r : Renaming) :
    (entryTexts leaves r).1[slot]? =
      some ((Rendering.under leaf.pieces (entryTexts (leaves.take slot) r).2).1 ++ aliasText leaf.info.alias?) := by
  induction leaves generalizing slot r with
  | nil => simp at here
  | cons first rest ih =>
    cases slot with
    | zero =>
      obtain rfl : first = leaf := by simpa using here
      rfl
    | succ slot => exact ih (by simpa using here) _

end Column

namespace Projection

/-- The labels that the alias of each slot is made of. -/
def labels (p : Projection) : List (List String) :=
  Column.listLeafLabels [] p.toList

theorem aliases_leaves (p : Projection) :
    p.leaves.map (·.info.alias?) = p.labels.map Column.joined := by
  rw [leaves_eq]
  exact Column.aliases_listLeavesUnder_of (fun c _ => c.aliases_leavesUnder) []

theorem alias_of_labels {p : Projection} {slot : Nat} {leaf : Column} {labels : List String}
    (here : p.leaves[slot]? = some leaf) (made : p.labels[slot]? = some labels) :
    leaf.info.alias? = Column.joined labels := by
  have slots := congrArg (·[slot]?) p.aliases_leaves
  simp only [List.getElem?_map, here, made, Option.map_some] at slots
  exact Option.some.inj slots

end Projection

/-! ## Literals -/

namespace Quoted

theorem mark_mem_intercalate {labels : List String} :
    mark ∈ (".".intercalate labels).toList ↔ ∃ label ∈ labels, mark ∈ label.toList := by
  induction labels with
  | nil => simp
  | cons label rest ih =>
    cases rest with
    | nil => simp
    | cons next rest =>
      have dot : mark ∉ ".".toList := by decide
      simp only [String.intercalate_cons_cons, String.toList_append, List.mem_append, ih, dot, or_false]
      simp

end Quoted

namespace Statement

open Column (entryTexts)

/-- The text behind ` AS ` is one complete literal just if it is a value with its quotes doubled. Nothing is
doubled there, so the literal denotes the output name of the slot just if no label of the alias has a quote. -/
theorem alias_literal_iff_unquoted (s : Statement) (way : Compilation) (r : Renaming) {slot : Nat}
    {leaf : Column} {labels : List String} (here : s.projection.leaves[slot]? = some leaf)
    (made : s.projection.labels[slot]? = some labels) (named : labels ≠ []) :
    let name := ".".intercalate labels
    let literal := "'" ++ name ++ "'"
    let before := (entryTexts (s.projection.leaves.take slot) r).2
    (entryTexts s.projection.leaves r).1[slot]? =
        some ((Rendering.under leaf.pieces before).1 ++ " AS " ++ literal) ∧
      leaf.outputName = name ∧
      (∀ found, (s.compileBy way).position found = .ok slot → found = name) ∧
      (∀ value, Quoted.read? literal.toList = some (value, []) ↔ name.toList = Quoted.double value) ∧
      (Quoted.read? literal.toList = some (name.toList, []) ↔ ∀ label ∈ labels, Quoted.mark ∉ label.toList) := by
  intro name literal before
  have given : leaf.info.alias? = some name := by
    obtain ⟨first, rest, rfl⟩ := List.exists_cons_of_ne_nil named
    exact Projection.alias_of_labels here made
  have outputName : leaf.outputName = name := by rw [Column.outputName, given, Option.getD_some]
  have between : literal.toList = Quoted.mark :: name.toList ++ [Quoted.mark] := by
    simp only [literal, String.toList_append]
    rfl
  have reads : ∀ value,
      Quoted.read? literal.toList = some (value, []) ↔ name.toList = Quoted.double value := by
    intro value
    rw [between, Quoted.read?_between]
  refine ⟨?_, outputName, ?_, reads, ?_⟩
  · have written : Column.aliasText leaf.info.alias? = " AS " ++ literal := by
      have opening : " AS '" = " AS " ++ "'" := rfl
      rw [given, Column.aliasText, opening]
      simp only [literal, String.append_assoc]
    rw [Column.getElem?_entryTexts here r, written, String.append_assoc]
  · intro found position
    obtain ⟨other, there, same⟩ := ((s.position_eq_ok way found slot).mp position).1
    obtain rfl : leaf = other := Option.some.inj (here.symm.trans there)
    exact same.symm.trans outputName
  · rw [reads, eq_comm, Quoted.double_eq_self_iff, Quoted.mark_mem_intercalate]
    simp

theorem alias_literal_of_resident :
    let s := select false (.columns resident []) (.named "person")
    let zip : Column := .field ⟨.named "person", some "owner.home.code", .text, false⟩ "zip"
    s.projection.leaves[2]? = some zip ∧ s.projection.labels[2]? = some ["owner", "home", "code"] ∧
      (entryTexts s.projection.leaves .off).1[2]? = some "person.zip AS 'owner.home.code'" ∧
      (∀ found, (s.compile .standard).position found = .ok 2 → found = "owner.home.code") ∧
      Quoted.read? "'owner.home.code'".toList = some ("owner.home.code".toList, []) := by
  intro s zip
  have here : s.projection.leaves[2]? = some zip := by decide
  have made : s.projection.labels[2]? = some ["owner", "home", "code"] := by decide
  obtain ⟨entry, -, found, -, back⟩ :=
    alias_literal_iff_unquoted s (.under .standard) .off here made (List.cons_ne_nil _ _)
  exact ⟨here, made, entry.trans (by decide), found, back.mpr (by decide)⟩

/-- With a quote in an alias the literal ends there, and the rest of the alias is read as something else. The
quote need not be the caller's: a text literal in a composite brings its own two. -/
theorem alias_literal_ends_early :
    let person : Table := .named "person"
    let brien : Column := .field ⟨person, some "o'brien", .text, false⟩ "name"
    let owner : Column := .composite ⟨person, some "owner", .text, false⟩ [(Literal.text "x").column.column]
    let s := select false (.columns brien [owner]) person
    let plain : RenameSettings := ⟨some false, none⟩
    (s.compile plain).sql = "SELECT person.name AS 'o'brien','x' AS 'owner.'x'' FROM person" ∧
      (s.compile plain).position "o'brien" = .ok 0 ∧ (s.compile plain).position "owner.'x'" = .ok 1 ∧
      Quoted.read? "'o'brien'".toList = some ("o".toList, "brien'".toList) ∧
      Quoted.read? "'owner.'x''".toList = some ("owner.".toList, "x''".toList) ∧
      Quoted.read? "'o'brien'".toList ≠ some ("o'brien".toList, []) ∧
      Quoted.read? "'owner.'x''".toList ≠ some ("owner.'x'".toList, []) := by
  intro person brien owner s plain
  have first : Quoted.read? "'o'brien'".toList = some ("o".toList, "brien'".toList) := by
    simp [Quoted.read?, Quoted.readBody, Quoted.mark]
  have second : Quoted.read? "'owner.'x''".toList = some ("owner.".toList, "x''".toList) := by
    simp [Quoted.read?, Quoted.readBody, Quoted.mark]
  refine ⟨by decide, by decide, by decide, first, second, ?_, ?_⟩
  · rw [first]
    simp
  · rw [second]
    simp

end Statement

end SqlSelect
