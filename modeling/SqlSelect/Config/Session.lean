import SqlSelect.Config.Annotation
import SqlSelect.Config.Files
/-!
Sessions with configuration files: what each call does to the files, to the configured path and to the installed
configuration, where an empty slot stands for the standard one. How TOML is read is a parameter.
-/

namespace SqlSelect

abbrev ConfigSlot := Option Config

namespace ConfigSlot

def current (slot : ConfigSlot) : Config :=
  slot.getD .standard

/-- Installs a configuration with its defaults filled in; one that is not valid leaves the slot. -/
def install (slot : ConfigSlot) (c : Config) : ConfigSlot × Except ConfigError Config :=
  match c.resolved with
  | .ok c => (some c, .ok c)
  | .error e => (slot, .error e)

end ConfigSlot

/-- The files, the configured path and the installed configuration. -/
structure Session where
  files : FileTree
  location : String
  slot : ConfigSlot

inductive SessionStep where
  | write (path : String) (bytes : List UInt8)
  | makeDirectory (path : String)
  | setPath (path : String)
  | reset
  | read (path : String)
  | get
  | init
  | setConfig (c : Config)
  | new
  | fromPath (path : String)
  | save (c : Config)
  | saveTo (path : String) (c : Config)
  | generate
  | generateAt (path : String)

inductive SessionAnswer where
  | silent
  | content (text? : Option String)
  | current (c : Config)
  | loaded (result : Except ConfigError Config)
  | stored (result : Except ConfigError Unit)
  | created (result : Except ConfigError String)

namespace Session

def start : Session :=
  ⟨.empty, "config.toml", none⟩

def store (s : Session) (path text : String) : Session × Except ConfigError Unit :=
  match s.files.write (.ofString path) (Utf8.encode text.toList) with
  | (files, .ok ()) => ({ s with files }, .ok ())
  | (files, .error _) => ({ s with files }, .error .io)

/-- Loads the configuration at a path; where no file is, that is the standard one. -/
def load (reader : String → Option Config) (s : Session) (path : String) : Except ConfigError Config :=
  match s.files.read (.ofString path) with
  | .error .missing => Config.standard.resolved
  | .error .other => .error .io
  | .ok bytes =>
    match Utf8.decode? bytes with
    | none => .error .io
    | some text =>
      match reader (String.ofList text) with
      | none => .error .unreadable
      | some c => c.resolved

/-- Writes the documented standard configuration to a path where nothing stands. -/
def generateAt (s : Session) (path : String) : Session × Except ConfigError Unit :=
  if s.files.holds (.ofString path) then (s, .error .alreadyExists)
  else
    match Config.standard.annotated with
    | .error e => (s, .error e)
    | .ok doc => s.store path doc.text

def content? (s : Session) (path : String) : Option String :=
  match s.files.read (.ofString path) with
  | .ok bytes => (Utf8.decode? bytes).map String.ofList
  | .error _ => none

def step (reader : String → Option Config) (s : Session) : SessionStep → Session × SessionAnswer
  | .write path bytes =>
    ({ s with files := (s.files.write (.ofString path) bytes).1 }, .silent)
  | .makeDirectory path =>
    ({ s with files := (s.files.makeDirectory (.ofString path)).1 }, .silent)
  | .setPath path => ({ s with location := path }, .silent)
  | .reset => ({ s with slot := none }, .silent)
  | .read path => (s, .content (s.content? path))
  | .get => (s, .current s.slot.current)
  | .init =>
    match s.load reader s.location with
    | .ok c => ({ s with slot := some c }, .loaded (.ok c))
    | .error e => (s, .loaded (.error e))
  | .setConfig c =>
    let (slot, result) := s.slot.install c
    ({ s with slot }, .loaded result)
  | .new => (s, .loaded (s.load reader s.location))
  | .fromPath path => (s, .loaded (s.load reader path))
  | .save c =>
    let (s, result) := s.store s.location c.toToml
    (s, .stored result)
  | .saveTo path c =>
    let (s, result) := s.store path c.toToml
    (s, .stored result)
  | .generate =>
    let path := s.location
    let (s, result) := s.generateAt path
    (s, .created (result.map fun _ => FilePath.trimmed path))
  | .generateAt path =>
    let (s, result) := s.generateAt path
    (s, .stored result)

def run (reader : String → Option Config) (s : Session) : List SessionStep → Session × List SessionAnswer
  | [] => (s, [])
  | call :: rest =>
    let (s, answer) := s.step reader call
    let (s, answers) := run reader s rest
    (s, answer :: answers)

end Session

end SqlSelect
