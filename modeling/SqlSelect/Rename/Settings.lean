import SqlSelect.Text.Basic
import SqlSelect.Text.Numeral
/-!
How tables that a statement declares more than once are told apart: whether at all, and the template
of the aliases they get.
-/

namespace SqlSelect

/-- Settings of renaming; a missing one has its default. -/
structure RenameSettings where
  auto? : Option Bool
  template? : Option String
deriving DecidableEq, Repr

inductive TemplateError where
  | withoutCounter (template : String)
  | notIdentifier (template expanded : String)
deriving DecidableEq, Repr

def isIdentifierStart (c : Char) : Bool :=
  c.isAlpha || c == '_'

def isIdentifier (text : String) : Bool :=
  match text.toList with
  | [] => false
  | c :: rest => isIdentifierStart c && rest.all fun d => isIdentifierStart d || d.isDigit

namespace RenameSettings

def tablePlaceholder : String := "\x7btable\x7d"

def counterPlaceholder : String := "\x7bn\x7d"

def defaultTemplate : String :=
  tablePlaceholder ++ "_" ++ counterPlaceholder

/-- Whether repeated tables are renamed without being asked. -/
def isAuto (s : RenameSettings) : Bool :=
  s.auto?.getD true

def template (s : RenameSettings) : String :=
  s.template?.getD defaultTemplate

/-- The alias of the `n`-th declaration of a table: the table name is put in first, the number next. -/
def aliasFor (s : RenameSettings) (table : String) (n : Nat) : String :=
  Substitute.replace counterPlaceholder (String.ofList (Numeral.ofNat n))
    (Substitute.replace tablePlaceholder table s.template)

def filled (s : RenameSettings) : RenameSettings :=
  ⟨some s.isAuto, some s.template⟩

/-- A template needs the counter, and its first alias of a table `t` must be an identifier. -/
def check (s : RenameSettings) : Except TemplateError Unit :=
  if Substitute.occurs counterPlaceholder.toList s.template.toList then
    let expanded := s.aliasFor "t" 1
    if isIdentifier expanded then .ok () else .error (.notIdentifier s.template expanded)
  else .error (.withoutCounter s.template)

/-- Fills the defaults in and checks the template; the defaults stay also when the check fails. -/
def resolve (s : RenameSettings) : RenameSettings × Except TemplateError Unit :=
  (s.filled, s.filled.check)

def standard : RenameSettings :=
  ⟨some true, some defaultTemplate⟩

end RenameSettings

end SqlSelect
