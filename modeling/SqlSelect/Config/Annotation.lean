import SqlSelect.Config.Toml
import SqlSelect.Text.Basic
/-!
Documented configuration files: every key and table that the documentation knows gets its text as comment lines in
front, and the data stays as it is.
-/

namespace SqlSelect

namespace Comments

def comment (line : String) : String :=
  if line.isEmpty then "#\n" else "# " ++ line ++ "\n"

def ofText (text : String) : String :=
  String.join ((Lines.split text).map comment)

/-- Puts documentation behind what already stands in front of an item: an empty comment separates it from
finished lines, and a line end is added to an unfinished one. -/
def addTo (before? : Option String) (text : String) : String :=
  match before? with
  | none => ofText text
  | some before =>
    if before.isEmpty then ofText text
    else if before.toList.getLast? = some '\n' then before ++ "#\n" ++ ofText text
    else before ++ "\n" ++ ofText text

end Comments

/-- What is said of a table as a whole, and of each of its keys. -/
structure Documentation where
  about : String
  keys : List (String × String)
deriving DecidableEq, Repr

namespace Documentation

def config : Documentation :=
  ⟨"Query builder configuration",
    [(Config.renameKey, "Disambiguation of tables that appear more than once in a statement.")]⟩

def rename : Documentation :=
  ⟨"How repeated tables inside one statement are disambiguated",
    [(Config.autoKey, "Rename tables that are declared more than once in FROM/JOIN.\nDefault: true"),
      (Config.templateKey,
        "Template for generated aliases. `" ++ RenameSettings.tablePlaceholder ++
        "` is replaced with the original\ntable name and `" ++ RenameSettings.counterPlaceholder ++
        "` with the 1-based occurrence number.\nDefault: \"" ++ RenameSettings.defaultTemplate ++ "\"")]⟩

/-- Documents an item under a key, if the key is known: in front of the key of a value, and in front of the
header of a table. An array of tables cannot be documented. -/
def addToItem (d : Documentation) (key : Toml.Key) (item : Toml.Item) :
    Except ConfigError (Toml.Key × Toml.Item) :=
  match d.keys.lookup key.name, item with
  | none, item => .ok (key, item)
  | some text, .value w => .ok ({ key with before := Comments.addTo (some key.before) text }, .value w)
  | some text, .table head items =>
    .ok (key, .table { head with before? := some (Comments.addTo head.before? text) } items)
  | some _, .tables _ => .error (.unexpectedItem key.name)

def addToItems (d : Documentation) : Toml.Items → Except ConfigError Toml.Items
  | [] => .ok []
  | (key, item) :: rest =>
    match d.addToItem key item with
    | .error e => .error e
    | .ok found =>
      match d.addToItems rest with
      | .error e => .error e
      | .ok rest => .ok (found :: rest)

/-- What stands in front of a table, with what is said of the table if `withAbout` asks for it. -/
def above (d : Documentation) (withAbout : Bool) (before? : Option String) : Option String :=
  if withAbout then some (Comments.addTo before? d.about) else before?

def annotate (d : Documentation) (withAbout : Bool) (doc : Toml.Document) :
    Except ConfigError Toml.Document :=
  match d.addToItems doc.items with
  | .error e => .error e
  | .ok items => .ok { doc with before? := d.above withAbout doc.before?, items }

def annotateTable (d : Documentation) (key : String) (withAbout : Bool) (doc : Toml.Document) :
    Except ConfigError Toml.Document :=
  match Toml.Items.find? key doc.items with
  | some (.table head items) =>
    match d.addToItems items with
    | .error e => .error e
    | .ok items =>
      let head := { head with before? := d.above withAbout head.before? }
      .ok { doc with items := Toml.Items.replace key (.table head items) doc.items }
  | _ => .ok doc

end Documentation

namespace Config

/-- The integers that a document may hold: those of 64 bits. -/
def isStorable (i : Int) : Bool :=
  -9223372036854775808 ≤ i && i ≤ 9223372036854775807

def readDocument (text : String) : Except ConfigError Toml.Document :=
  match Toml.Document.read? text with
  | some d => if Toml.Value.entriesInRange isStorable d.data then .ok d else .error .document
  | none => .error .document

def annotated (c : Config) : Except ConfigError Toml.Document :=
  match readDocument c.toToml with
  | .error e => .error e
  | .ok doc =>
    match Documentation.config.annotate false doc with
    | .error e => .error e
    | .ok doc => Documentation.rename.annotateTable renameKey false doc

end Config

end SqlSelect
