import SqlSelect.Config.Location
import SqlSelect.Text.Utf8
/-!
A tree of files below one directory, as far as configurations need it. Paths are followed name by name,
so that every name on the way has to be that of a directory.
-/

namespace SqlSelect

inductive FileNode where
  | file (bytes : List UInt8)
  | directory
deriving DecidableEq, Repr

/-- Why a file cannot be used: it is not there, or something else is in the way. -/
inductive FileError where
  | missing
  | other
deriving DecidableEq, Repr

/-- Places with what stands there; the first entry of a place counts. A place is the list of the names that
lead straight to it. -/
structure FileTree where
  nodes : List (List String × FileNode)
deriving DecidableEq, Repr

namespace FileTree

def empty : FileTree :=
  ⟨[]⟩

def node? (t : FileTree) (place : List String) : Option FileNode :=
  if place.isEmpty then some .directory else t.nodes.lookup place

def put (t : FileTree) (place : List String) (node : FileNode) : FileTree :=
  ⟨(place, node) :: t.nodes⟩

/-- Follows names from a place to the one they lead to, where nothing need stand. -/
def follow (t : FileTree) (place : List String) : List String → Except FileError (List String)
  | [] => .ok place
  | name :: rest =>
    match t.node? place with
    | none => .error .missing
    | some (.file _) => .error .other
    | some .directory =>
      if name = ".." then t.follow place.dropLast rest
      else if FilePath.maxName < name.utf8ByteSize then .error .other
      else t.follow (place ++ [name]) rest

def place (t : FileTree) (p : FilePath) : Except FileError (List String) :=
  if p.isUsable then t.follow [] p.names else .error .other

def find (t : FileTree) (p : FilePath) : Except FileError FileNode :=
  match t.place p with
  | .error e => .error e
  | .ok place =>
    match t.node? place with
    | none => .error .missing
    | some .directory => .ok .directory
    | some (.file bytes) => if p.toDirectory then .error .other else .ok (.file bytes)

def holds (t : FileTree) (p : FilePath) : Bool :=
  match t.find p with
  | .ok _ => true
  | .error _ => false

def read (t : FileTree) (p : FilePath) : Except FileError (List UInt8) :=
  match t.find p with
  | .ok (.file bytes) => .ok bytes
  | .ok .directory => .error .other
  | .error e => .error e

/-- Makes a directory in one that is there, unless a file is in its place. -/
def makeOne (t : FileTree) (names : List String) : Except FileError FileTree :=
  match t.follow [] names with
  | .error e => .error e
  | .ok place =>
    match t.node? place with
    | some .directory => .ok t
    | some (.file _) => .error .other
    | none => .ok (t.put place .directory)

/-- Makes directories in turn, up to the first that cannot be made. -/
def makeAll (t : FileTree) : List (List String) → FileTree × Except FileError Unit
  | [] => (t, .ok ())
  | names :: rest =>
    match t.makeOne names with
    | .ok t => t.makeAll rest
    | .error e => (t, .error e)

def makeDirectory (t : FileTree) (p : FilePath) : FileTree × Except FileError Unit :=
  if p.isUsable then t.makeAll p.stages else (t, .error .other)

def put? (t : FileTree) (p : FilePath) (bytes : List UInt8) : Except FileError FileTree :=
  match t.place p with
  | .error e => .error e
  | .ok place =>
    if p.toDirectory || t.node? place == some .directory then .error .other
    else .ok (t.put place (.file bytes))

/-- Writes a file into a directory that is made if need be, which stays when the file cannot be written. -/
def write (t : FileTree) (p : FilePath) (bytes : List UInt8) : FileTree × Except FileError Unit :=
  match t.makeDirectory p.parent with
  | (t, .error e) => (t, .error e)
  | (t, .ok ()) =>
    match t.put? p bytes with
    | .error e => (t, .error e)
    | .ok t => (t, .ok ())

end FileTree

end SqlSelect
