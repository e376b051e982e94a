import SqlSelect.Proofs.Config.Documented
import SqlSelect.Proofs.Config.Files
import SqlSelect.Proofs.Config.Installed
import SqlSelect.Proofs.Text.Utf8
/-!
Saved, documented and generated configurations are loaded as what they were. A template that is accepted
needs no escapes, so all is read as it was written.
-/

namespace SqlSelect

namespace RenameSettings

theorem isUnescaped_of_isTemplatePart {c : Char} (h : isTemplatePart c = true) :
    Toml.Writer.isUnescaped c = true := by
  have codes : ∀ n < 32, isTemplatePart (Char.ofNat n) = false := by decide
  have other {d : Char} (strange : isTemplatePart d = false) : c ≠ d := by
    rintro rfl
    exact Bool.noConfusion (h.symm.trans strange)
  have visible : ¬ c < ' ' := by
    intro low
    exact other (codes c.toNat (Char.lt_def.mp low)) (Char.ofNat_toNat c).symm
  refine Toml.Writer.isUnescaped_iff.mpr ⟨?_, other (by decide), other (by decide)⟩
  simp [Toml.Writer.isControl, visible, other (d := Char.ofNat 127) (by decide)]

end RenameSettings

namespace Session

/-- At the path is a file of the text, and it loads as the configuration. -/
def HasFile (s : Session) (path text : String) (c : Config) : Prop :=
  (s.step Config.ofToml? (.read path)).2 = .content (some text) ∧
    (s.step Config.ofToml? (.fromPath path)).2 = .loaded (.ok c)

/-- A text that was stored is the content of the file, and is loaded as what it is read as. -/
theorem hasFile_store {s : Session} {path text : String} {c filled : Config}
    (stored : (s.store path text).2 = .ok ()) (read : Config.ofToml? text = some c)
    (resolved : c.resolved = .ok filled) : (s.store path text).1.HasFile path text filled := by
  unfold store at stored ⊢
  rcases written : s.files.write (.ofString path) (Utf8.encode text.toList) with ⟨files, ⟨⟩ | ⟨⟩⟩
  · simp [written] at stored
  · have back := FileTree.read_write (congrArg Prod.snd written)
    rw [written] at back
    constructor
    · simp [step, content?, back, Utf8.decode?_encode]
    · simp [step, load, back, Utf8.decode?_encode, read, resolved]

end Session

namespace Config

/-- A configuration that resolving accepts has a template that is written without escapes. -/
theorem isUnescaped_of_resolve {c : Config} (accepted : c.resolve.2 = .ok ()) :
    ∀ t ∈ c.rename.template?, ∀ d ∈ t.toList, Toml.Writer.isUnescaped d = true := by
  intro t own d member
  have checked : c.rename.filled.check = .ok () := resolve_snd_eq_ok.mp accepted
  have template : c.rename.filled.template = t := by
    have present : c.rename.template? = some t := own
    simp [RenameSettings.filled, RenameSettings.template, present]
  apply RenameSettings.isUnescaped_of_isTemplatePart
  apply RenameSettings.isTemplatePart_of_check checked
  rw [template]
  exact member

theorem ofToml?_toToml {c : Config} (accepted : c.resolve.2 = .ok ()) : ofToml? c.toToml = some c := by
  rw [toToml_eq]
  exact ofToml?_laidOut Remarks.areComments_none (isUnescaped_of_resolve accepted)

/-- The comments of the documentation stay out of the data. -/
theorem ofToml?_annotated {c : Config} (accepted : c.resolve.2 = .ok ()) :
    ∃ doc, c.annotated = .ok doc ∧ doc.text = c.laidOut .documented ∧ ofToml? doc.text = some c := by
  have plain := isUnescaped_of_resolve accepted
  refine ⟨_, annotated_eq plain, text_laidOutDocument, ?_⟩
  rw [text_laidOutDocument]
  exact ofToml?_laidOut areComments_documented plain

theorem ofToml?_standard : ofToml? (standard.laidOut .documented) = some .standard := by
  have fixed := isResolved_standard.fixed
  obtain ⟨doc, -, written, read⟩ := ofToml?_annotated (c := .standard) (congrArg Prod.snd fixed)
  rwa [written] at read

theorem resolved_of_resolve {c : Config} (accepted : c.resolve.2 = .ok ()) : c.resolved = .ok c.resolve.1 :=
  resolved_eq_ok.mpr (Prod.ext rfl accepted)

end Config

namespace Session

/-- What is generated is the documented text of the standard configuration, at a path where nothing stands. -/
theorem generateAt_eq (s : Session) (path : String) :
    s.generateAt path =
      if s.files.holds (.ofString path) = true then (s, .error .alreadyExists)
      else s.store path (Config.standard.laidOut .documented) := by
  have standard := Config.isResolved_standard.fixed
  obtain ⟨doc, annotated, written, -⟩ := Config.ofToml?_annotated (c := .standard) (congrArg Prod.snd standard)
  simp only [generateAt, annotated, written]

theorem step_saveTo (s : Session) (path : String) (c : Config) :
    s.step Config.ofToml? (.saveTo path c) = ((s.store path c.toToml).1, .stored (s.store path c.toToml).2) := rfl

theorem hasFile_saveTo {s : Session} {path : String} {c : Config} (accepted : c.resolve.2 = .ok ())
    (stored : (s.step Config.ofToml? (.saveTo path c)).2 = .stored (.ok ())) :
    (s.step Config.ofToml? (.saveTo path c)).1.HasFile path c.toToml c.resolve.1 := by
  rw [step_saveTo] at stored ⊢
  exact hasFile_store (SessionAnswer.stored.inj stored) (Config.ofToml?_toToml accepted)
    (Config.resolved_of_resolve accepted)

theorem hasFile_generateAt {s : Session} {path : String}
    (stored : (s.step Config.ofToml? (.generateAt path)).2 = .stored (.ok ())) :
    (s.step Config.ofToml? (.generateAt path)).1.HasFile path (Config.standard.laidOut .documented) .standard := by
  have resolved := Config.resolved_eq_ok.mpr Config.isResolved_standard.fixed
  cases taken : s.files.holds (.ofString path) with
  | true => simp [step, generateAt_eq, taken] at stored
  | false =>
    simp only [step, generateAt_eq, taken, Bool.false_eq_true, if_false] at stored ⊢
    exact hasFile_store (SessionAnswer.stored.inj stored) Config.ofToml?_standard resolved

/-- A configuration that resolving accepts is read back from its text and from its documented text. In any session,
what was saved or written with documentation is in the file and loads as the configuration with its defaults filled
in, which can be saved and loaded again. Where nothing stands, generating writes the documented text of the standard
configuration, which loads as that; where something stands, it changes nothing. -/
theorem saved_is_loaded {c : Config} (accepted : c.resolve.2 = .ok ()) :
    Config.ofToml? c.toToml = some c ∧
      ∃ doc, c.annotated = .ok doc ∧ doc.text = c.laidOut .documented ∧ Config.ofToml? doc.text = some c ∧
        ∀ (s : Session) (path : String),
          let saved := s.step Config.ofToml? (.saveTo path c)
          let again := s.step Config.ofToml? (.saveTo path c.resolve.1)
          let documented := s.store path doc.text
          let generated := s.step Config.ofToml? (.generateAt path)
          let usual := Config.standard.laidOut .documented
          (saved.2 = .stored (.ok ()) → saved.1.HasFile path c.toToml c.resolve.1) ∧
          (again.2 = .stored (.ok ()) → again.1.HasFile path c.resolve.1.toToml c.resolve.1) ∧
          (documented.2 = .ok () → documented.1.HasFile path doc.text c.resolve.1) ∧
          (s.files.holds (.ofString path) = true → generated = (s, .stored (.error .alreadyExists))) ∧
          (s.files.holds (.ofString path) = false →
            generated = ((s.store path usual).1, .stored (s.store path usual).2)) ∧
          (generated.2 = .stored (.ok ()) → generated.1.HasFile path usual .standard) := by
  have again : c.resolve.1.resolve = (c.resolve.1, .ok ()) :=
    (Config.isResolved_of_resolve (Prod.ext rfl accepted)).fixed
  obtain ⟨doc, annotated, written, readDocumented⟩ := Config.ofToml?_annotated accepted
  refine ⟨Config.ofToml?_toToml accepted, doc, annotated, written, readDocumented, fun s path => ?_⟩
  refine ⟨hasFile_saveTo accepted, ?_, ?_, ?_, ?_, hasFile_generateAt⟩
  · intro stored
    have loaded := hasFile_saveTo (congrArg Prod.snd again) stored
    rwa [again] at loaded
  · intro stored
    exact hasFile_store stored readDocumented (Config.resolved_of_resolve accepted)
  · intro taken
    simp only [step, generateAt_eq, taken, if_true]
  · intro free
    simp only [step, generateAt_eq, free, Bool.false_eq_true, if_false]

/-- A configuration that leaves out whether to rename is saved in a directory that is made for it, where no other one
is generated in its place; the standard one is generated beside it, with its documentation. -/
theorem loaded_from_nested :
    let c : Config := ⟨none, some "\x7btable\x7d_x\x7bn\x7d"⟩
    let saved := Session.start.step Config.ofToml? (.saveTo "nested/config.toml" c)
    let generated := Session.start.step Config.ofToml? (.generateAt "nested/usual.toml")
    let text := "[rename]\nalias_template = \"\x7btable\x7d_x\x7bn\x7d\"\n"
    let usual :=
      "# Disambiguation of tables that appear more than once in a statement.\n[rename]\n" ++
        "# Rename tables that are declared more than once in FROM/JOIN.\n# Default: true\nauto = true\n" ++
        "# Template for generated aliases. `\x7btable\x7d` is replaced with the original\n" ++
        "# table name and `\x7bn\x7d` with the 1-based occurrence number.\n" ++
        "# Default: \"\x7btable\x7d_\x7bn\x7d\"\nalias_template = \"\x7btable\x7d_\x7bn\x7d\"\n"
    c.resolve.2 = .ok () ∧ saved.2 = .stored (.ok ()) ∧
      saved.1.HasFile "nested/config.toml" text ⟨some true, some "\x7btable\x7d_x\x7bn\x7d"⟩ ∧
      saved.1.step Config.ofToml? (.generateAt "nested/config.toml") = (saved.1, .stored (.error .alreadyExists)) ∧
      generated.2 = .stored (.ok ()) ∧
      generated.1.HasFile "nested/usual.toml" usual ⟨some true, some "\x7btable\x7d_\x7bn\x7d"⟩ := by
  intro c saved generated text usual
  have accepted : c.resolve.2 = .ok () :=
    Config.resolve_snd_eq_ok.mpr (RenameSettings.check_eq_ok.mpr ⟨by decide, by decide⟩)
  have filled : c.resolve.1 = ⟨some true, some "\x7btable\x7d_x\x7bn\x7d"⟩ := Config.resolve_fst c
  have savedText : c.toToml = text := rfl
  have usualText : Config.standard.laidOut .documented = usual := by decide +kernel
  obtain ⟨-, doc, -, -, -, loads⟩ := saved_is_loaded accepted
  obtain ⟨saves, -⟩ := loads Session.start "nested/config.toml"
  obtain ⟨-, -, -, taken, -⟩ := loads saved.1 "nested/config.toml"
  obtain ⟨-, -, -, -, free, generates⟩ := loads Session.start "nested/usual.toml"
  rw [filled, savedText] at saves
  have saved_eq : saved = _ := step_saveTo Session.start "nested/config.toml" c
  have stored : saved.2 = .stored (.ok ()) := by
    have writable (text : String) : (Session.start.store "nested/config.toml" text).2 = .ok () := rfl
    rw [saved_eq, writable]
  have held : saved.1.files.holds (.ofString "nested/config.toml") = true := by
    have holds (text : String) :
        (Session.start.store "nested/config.toml" text).1.files.holds (.ofString "nested/config.toml") = true := rfl
    rw [saved_eq, holds]
  have wrote : generated.2 = .stored (.ok ()) := by
    have writable (text : String) : (Session.start.store "nested/usual.toml" text).2 = .ok () := rfl
    rw [show generated = _ from free rfl, writable]
  have found := generates wrote
  rw [usualText] at found
  exact ⟨accepted, stored, saves stored, taken held, wrote, found⟩

end Session

end SqlSelect
