import SqlSelect.Config.Toml
import SqlSelect.Proofs.Toml.Written
/-!
The layout of a configuration file: the header and a line for each setting, with comments in front of them
or none. It is read as a document that holds the configuration and is written as the layout again, so that
the comments stay out of the data.
-/

namespace SqlSelect

open Toml

namespace Config

/-- What stands in front of the header and of each setting. -/
structure Remarks where
  about : String
  auto : String
  template : String

namespace Remarks

def none : Remarks :=
  ⟨"", "", ""⟩

/-- All remarks are finished lines of comments. -/
structure AreComments (r : Remarks) : Prop where
  about : Outline.IsRemarks r.about.toList
  auto : Outline.IsRemarks r.auto.toList
  template : Outline.IsRemarks r.template.toList

theorem areComments_none : none.AreComments :=
  ⟨.none, .none, .none⟩

end Remarks

def autoText (c : Config) (r : Remarks) : String :=
  (c.rename.auto?.map fun b => r.auto ++ Writer.line autoKey (Writer.boolean b)).getD ""

def templateText (c : Config) (r : Remarks) : String :=
  (c.rename.template?.map fun t => r.template ++ Writer.line templateKey (Writer.string t)).getD ""

/-- A configuration as it is written, with remarks. -/
def laidOut (c : Config) (r : Remarks) : String :=
  r.about ++ "[" ++ renameKey ++ "]\n" ++ c.autoText r ++ c.templateText r

theorem toToml_eq (c : Config) : c.toToml = c.laidOut .none := by
  simp only [toToml, laidOut, autoText, templateText, Remarks.none, String.empty_append]

def bareKey (name before after : String) : Key :=
  ⟨name, name, "", "", before, after⟩

def autoEntries (c : Config) (r : Remarks) : List Entry :=
  (c.rename.auto?.map fun b =>
    ⟨[], bareKey autoKey r.auto " ", ⟨" ", Writer.boolean b, .boolean b, ""⟩⟩).toList

def templateEntries (c : Config) (r : Remarks) : List Entry :=
  (c.rename.template?.map fun t =>
    ⟨[], bareKey templateKey r.template " ", ⟨" ", Writer.string t, .text t, ""⟩⟩).toList

def outlineOf (about : String) (entries : List Entry) : Outline :=
  ⟨[], [⟨false, [], bareKey renameKey "" "", about, "", entries⟩], ""⟩

def settings (c : Config) (r : Remarks) : Items :=
  (c.autoEntries r ++ c.templateEntries r).map fun e => (e.key, .value e.value)

def documentOf (about : String) (settings : Items) : Document :=
  ⟨none, [(bareKey renameKey "" "", .table ⟨.header, some 1, some about, ""⟩ settings)], ""⟩

/-- The document that a layout is read to. -/
def laidOutDocument (c : Config) (r : Remarks) : Document :=
  documentOf r.about (c.settings r)

/-! ## Reading a layout -/

section

variable {c : Config} {r : Remarks}

theorem reads_auto (h : r.AreComments) {about : String} {entries : List Entry} {rest : List Char}
    {result : Outline}
    (next : Outline.Reads "" (outlineOf about (entries ++ c.autoEntries r)) rest result) :
    Outline.Reads "" (outlineOf about entries) ((c.autoText r).toList ++ rest) result := by
  have bare : Reader.IsBareKey autoKey.toList := ⟨by decide, List.all_eq_true.mp (by decide)⟩
  rcases c with ⟨⟨_ | b, t⟩⟩
  · simpa [autoText, autoEntries] using next
  · simp only [autoText, Option.map_some, Option.getD_some, String.toList_append, List.append_assoc]
    apply Outline.Reads.remarks h.auto
    apply Outline.Reads.booleanLine bare
    rw [String.ofList_toList, String.empty_append]
    exact next

theorem reads_template (h : r.AreComments)
    (plain : ∀ t ∈ c.rename.template?, ∀ d ∈ t.toList, Writer.isUnescaped d = true) {about : String}
    {entries : List Entry} {rest : List Char} {result : Outline}
    (next : Outline.Reads "" (outlineOf about (entries ++ c.templateEntries r)) rest result) :
    Outline.Reads "" (outlineOf about entries) ((c.templateText r).toList ++ rest) result := by
  have bare : Reader.IsBareKey templateKey.toList := ⟨by decide, List.all_eq_true.mp (by decide)⟩
  rcases c with ⟨⟨b, _ | t⟩⟩
  · simpa [templateText, templateEntries] using next
  · simp only [templateText, Option.map_some, Option.getD_some, String.toList_append, List.append_assoc]
    apply Outline.Reads.remarks h.template
    apply Outline.Reads.stringLine bare (plain t rfl)
    rw [String.ofList_toList, String.empty_append]
    exact next

theorem toList_laidOut : (c.laidOut r).toList = r.about.toList ++ '[' :: (renameKey.toList ++ ']' :: '\n' ::
    ((c.autoText r).toList ++ ((c.templateText r).toList ++ []))) := by
  simp [laidOut]

/-- A layout begins with a comment or with the header. -/
theorem withoutMark_laidOut (h : r.AreComments) :
    Outline.withoutMark (c.laidOut r).toList = (c.laidOut r).toList := by
  have about := h.about
  rw [toList_laidOut]
  have kept {d : Char} (other : d ≠ '\uFEFF') (rest : List Char) :
      Outline.withoutMark (d :: rest) = d :: rest := if_neg other
  generalize r.about.toList = front at about
  cases about with
  | none => exact kept (by decide) _
  | comment inline more => exact kept (by decide) _

theorem read?_laidOut (h : r.AreComments)
    (plain : ∀ t ∈ c.rename.template?, ∀ d ∈ t.toList, Writer.isUnescaped d = true) :
    Document.read? (c.laidOut r) = some (c.laidOutDocument r) := by
  have bare : Reader.IsBareKey renameKey.toList := ⟨by decide, List.all_eq_true.mp (by decide)⟩
  have lines : Outline.Reads "" .empty (c.laidOut r).toList
      (outlineOf r.about (c.autoEntries r ++ c.templateEntries r)) := by
    rw [toList_laidOut]
    apply Outline.Reads.remarks h.about
    apply Outline.Reads.header bare
    rw [String.ofList_toList, String.ofList_toList, String.empty_append]
    show Outline.Reads "" (outlineOf r.about []) _ _
    apply reads_auto h
    apply reads_template h plain
    exact Outline.Reads.finish
  have outlined :
      Outline.read? (c.laidOut r) = some (outlineOf r.about (c.autoEntries r ++ c.templateEntries r)) := by
    rw [Outline.read?, withoutMark_laidOut h]
    exact lines _ (Nat.lt_succ_self _)
  rw [Document.read?, outlined, Option.bind_some]
  rcases c with ⟨⟨_ | b, _ | t⟩⟩ <;> rfl

theorem ofEntries?_laidOutDocument : ofEntries? (c.laidOutDocument r).data = some c := by
  rcases c with ⟨⟨_ | b, _ | t⟩⟩ <;> rfl

theorem ofToml?_laidOut (h : r.AreComments)
    (plain : ∀ t ∈ c.rename.template?, ∀ d ∈ t.toList, Writer.isUnescaped d = true) :
    ofToml? (c.laidOut r) = some c := by
  rw [ofToml?, read?_laidOut h plain, Option.bind_some, ofEntries?_laidOutDocument]

/-- A table that holds nothing but values is written as its header and a line for each of them. -/
theorem text_documentOf (about : String) (entries : List Entry) :
    (documentOf about (entries.map fun e => (e.key, .value e.value))).text =
      about ++ "[" ++ renameKey ++ "]\n" ++
        Document.Block.linesText (entries.map fun e => ⟨[e.key], e.value⟩) := by
  have lines :
      Items.lines [] (entries.map fun e => (e.key, .value e.value)) = entries.map fun e => ⟨[e.key], e.value⟩ := by
    induction entries with
    | nil => rfl
    | cons e entries ih => rw [List.map_cons, Items.lines, ih]; rfl
  have blocks (path : List Key) :
      Document.Block.ofItems path (entries.map fun e => (e.key, .value e.value)) = [] := by
    clear lines
    induction entries with
    | nil => rfl
    | cons e entries ih => rw [List.map_cons, Document.Block.ofItems, ih]; rfl
  have alone (b : Document.Block) (first : b.head.place? = some 1) : Document.Block.inOrder [b] = [b] := by
    simp [Document.Block.inOrder, Document.Block.withPlaces, first, List.range_succ]
  have inside : Items.lines [] (documentOf about (entries.map fun e => (e.key, .value e.value))).items = [] := rfl
  rw [Document.text, inside, documentOf]
  simp only [Document.Block.ofItems, blocks, Document.Block.ofItem, reduceCtorEq, if_false, List.append_nil, alone]
  apply String.toList_inj.mp
  simp [Document.Block.text, Document.Block.header, Document.Block.linesText, lines, bareKey, Key.pathText,
    Key.joined]

theorem text_line (name before written : String) (v : Value) :
    Line.text ⟨[bareKey name before " "], ⟨" ", written, v, ""⟩⟩ ++ "\n" = before ++ Writer.line name written := by
  apply String.toList_inj.mp
  simp [Line.text, Key.pathText, Key.joined, bareKey, Writer.line]

/-- A document that was read from a layout is written as that layout. -/
theorem text_laidOutDocument : (c.laidOutDocument r).text = c.laidOut r := by
  have body : Document.Block.linesText
      ((c.autoEntries r ++ c.templateEntries r).map fun e => ⟨[e.key], e.value⟩) =
      c.autoText r ++ c.templateText r := by
    rcases c with ⟨⟨_ | b, _ | t⟩⟩ <;>
      simp [Document.Block.linesText, autoEntries, templateEntries, text_line, autoText, templateText]
  rw [laidOutDocument, settings, text_documentOf, body, laidOut, ← String.append_assoc]

end

end Config

end SqlSelect
