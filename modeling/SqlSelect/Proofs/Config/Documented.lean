import SqlSelect.Config.Annotation
import SqlSelect.Proofs.Config.CommentLines
import SqlSelect.Proofs.Config.Layout
/-!
The documented form of a configuration is its layout with the documentation as comments.
-/

namespace SqlSelect

open Toml

namespace Comments

/-- A text without control characters makes finished comments. -/
theorem isRemarks_ofText {text : String}
    (h : ∀ c ∈ text.toList, c ≠ '\n' → Strings.isInline c = true) :
    Outline.IsRemarks (ofText text).toList := by
  have split := Lines.isSplit text.toList
  have inline : ∀ line ∈ Lines.splitFrom [] text.toList, ∀ c ∈ line, Strings.isInline c = true := by
    intro line member c inside
    refine h c (split.mem member inside) ?_
    rintro rfl
    exact split.not_mem member inside
  rw [toList_ofText]
  generalize Lines.splitFrom [] text.toList = lines at inline
  induction lines with
  | nil => exact .none
  | cons line lines ih =>
    obtain ⟨first, others⟩ := List.forall_mem_cons.mp inline
    obtain ⟨body, written, solid⟩ := exists_commentLine_eq line
    have joined : finished ((line :: lines).map commentLine) =
        '#' :: (body ++ '\n' :: finished (lines.map commentLine)) := by
      simp [finished, written]
    rw [joined]
    refine .comment (fun c member => ?_) (ih others)
    rcases solid c member with rfl | inside
    · decide
    · exact first c inside

end Comments

namespace Documentation

/-- What is written in front of a key, or of the header of a table, that had nothing there. -/
def remark (d : Documentation) (name : String) : String :=
  ((d.keys.lookup name).map Comments.ofText).getD ""

theorem addToItem_value (d : Documentation) (key : Toml.Key) (bare : key.before = "") (w : Written) :
    d.addToItem key (.value w) = .ok ({ key with before := d.remark key.name }, .value w) := by
  unfold addToItem remark
  cases d.keys.lookup key.name with
  | none => rw [Option.map_none, Option.getD_none, ← bare]
  | some text => rw [bare]; rfl

theorem addToItem_table (d : Documentation) (key : Toml.Key) {head : Heading} (bare : head.before? = some "")
    (items : Items) :
    d.addToItem key (.table head items) =
      .ok (key, .table { head with before? := some (d.remark key.name) } items) := by
  unfold addToItem remark
  cases d.keys.lookup key.name with
  | none => rw [Option.map_none, Option.getD_none, ← bare]
  | some text => simp only [bare]; rfl

/-- Whether all texts are lines without control characters. -/
def isPlain (d : Documentation) : Bool :=
  d.keys.all fun entry => entry.2.toList.all fun c => c == '\n' || Strings.isInline c

theorem isRemarks_remark {d : Documentation} (plain : d.isPlain = true) (name : String) :
    Outline.IsRemarks (d.remark name).toList := by
  unfold remark
  cases found : d.keys.lookup name with
  | none => exact .none
  | some text =>
    obtain ⟨front, back, keys, -⟩ := List.lookup_eq_some_iff.mp found
    have member : (name, text) ∈ d.keys := by simp [keys]
    apply Comments.isRemarks_ofText
    intro c inside other
    have known := List.all_eq_true.mp (List.all_eq_true.mp plain _ member) c inside
    simpa [other] using known

end Documentation

namespace Config

/-- The documentation of a configuration as remarks. -/
def Remarks.documented : Remarks where
  about := Documentation.config.remark renameKey
  auto := Documentation.rename.remark autoKey
  template := Documentation.rename.remark templateKey

theorem areComments_documented : Remarks.documented.AreComments := by
  have config : Documentation.config.isPlain = true := by decide +kernel
  have rename : Documentation.rename.isPlain = true := by decide +kernel
  constructor <;> dsimp only [Remarks.documented]
  · exact Documentation.isRemarks_remark config renameKey
  · exact Documentation.isRemarks_remark rename autoKey
  · exact Documentation.isRemarks_remark rename templateKey

theorem annotate_documentOf (settings : Items) :
    Documentation.config.annotate false (documentOf "" settings) =
      .ok (documentOf (Documentation.config.remark renameKey) settings) := by
  rw [Documentation.annotate, documentOf, Documentation.addToItems, Documentation.addToItem_table _ _ rfl]
  simp only [Documentation.addToItems, bareKey, Documentation.above, documentOf]
  simp

theorem annotateTable_documentOf (about : String) {settings documented : Items}
    (h : Documentation.rename.addToItems settings = .ok documented) :
    Documentation.rename.annotateTable renameKey false (documentOf about settings) =
      .ok (documentOf about documented) := by
  have found : Items.find? renameKey (documentOf about settings).items =
      some (.table ⟨.header, some 1, some about, ""⟩ settings) := rfl
  rw [Documentation.annotateTable, found]
  simp only [h]
  rfl

theorem addToItems_settings (c : Config) :
    Documentation.rename.addToItems (c.settings .none) = .ok (c.settings .documented) := by
  rcases c with ⟨⟨_ | b, _ | t⟩⟩ <;>
    simp [settings, autoEntries, templateEntries, Documentation.addToItems, Documentation.addToItem_value,
      bareKey, Remarks.none, Remarks.documented]

theorem annotated_eq {c : Config}
    (plain : ∀ t ∈ c.rename.template?, ∀ d ∈ t.toList, Writer.isUnescaped d = true) :
    c.annotated = .ok (c.laidOutDocument .documented) := by
  have storable : Value.entriesInRange isStorable (c.laidOutDocument .none).data = true := by
    rcases c with ⟨⟨_ | b, _ | t⟩⟩ <;> rfl
  have read : readDocument c.toToml = .ok (c.laidOutDocument .none) := by
    rw [readDocument, toToml_eq, read?_laidOut Remarks.areComments_none plain]
    exact if_pos storable
  have above : Documentation.config.annotate false (c.laidOutDocument .none) =
      .ok (documentOf (Documentation.config.remark renameKey) (c.settings .none)) :=
    annotate_documentOf (c.settings .none)
  have inside : Documentation.rename.annotateTable renameKey false
      (documentOf (Documentation.config.remark renameKey) (c.settings .none)) =
      .ok (c.laidOutDocument .documented) :=
    annotateTable_documentOf (Documentation.config.remark renameKey) (addToItems_settings c)
  unfold annotated
  simp only [read, above, inside]

end Config

end SqlSelect
