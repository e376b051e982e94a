import SqlSelect.Config.Basic
import SqlSelect.Toml.Document
import SqlSelect.Toml.Writer
/-!
Configurations as TOML: a table `rename` with the settings that are present. Reading ignores keys that
it does not know, and refuses values of another type.
-/

namespace SqlSelect

namespace Config

def renameKey : String := "rename"

def autoKey : String := "auto"

def templateKey : String := "alias_template"

/-! ## Writing -/

def toToml (c : Config) : String :=
  "[" ++ renameKey ++ "]\n" ++
    ((c.rename.auto?.map fun b => Toml.Writer.line autoKey (Toml.Writer.boolean b)).getD "") ++
    ((c.rename.template?.map fun t => Toml.Writer.line templateKey (Toml.Writer.string t)).getD "")

/-! ## Reading -/

def readBoolean : Option Toml.Value → Option (Option Bool)
  | none => some none
  | some (.boolean b) => some (some b)
  | some _ => none

def readText : Option Toml.Value → Option (Option String)
  | none => some none
  | some (.text s) => some (some s)
  | some _ => none

def readSettings (auto template : Option Toml.Value) : Option RenameSettings :=
  match readBoolean auto, readText template with
  | some auto?, some template? => some ⟨auto?, template?⟩
  | _, _ => none

/-- The integers that a configuration may hold under keys it does not know: those of 128 bits, with a
sign or without. -/
def isReadable (i : Int) : Bool :=
  -Int.ofNat (Nat.pow 2 127) ≤ i && i < Int.ofNat (Nat.pow 2 128)

def othersReadable (known : List String) (entries : Toml.Entries) : Bool :=
  entries.all fun entry => known.contains entry.1 || entry.2.inRange isReadable

/-- Settings from a value: a table by its keys, a list by its first two items, and a date-time, which has
none of the keys, as if it were empty. -/
def readRename : Option Toml.Value → Option RenameSettings
  | none => some ⟨none, none⟩
  | some (.table entries) =>
    if othersReadable [autoKey, templateKey] entries then
      readSettings (entries.lookup autoKey) (entries.lookup templateKey)
    else none
  | some (.array (auto :: template :: _)) => readSettings (some auto) (some template)
  | some .datetime => some ⟨none, none⟩
  | some _ => none

def ofEntries? (entries : Toml.Entries) : Option Config :=
  if othersReadable [renameKey] entries then (readRename (entries.lookup renameKey)).map Config.mk
  else none

/-- Reads a configuration; no defaults are filled in. -/
def ofToml? (text : String) : Option Config :=
  (Toml.Document.read? text).bind fun d => ofEntries? d.data

end Config

end SqlSelect
