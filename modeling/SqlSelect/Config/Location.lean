/-!
Where files are. A path is names with slashes between them, where empty names and single dots lead nowhere and two
dots lead back; a user's configuration lives by the XDG base directory rules.
-/

namespace SqlSelect

/-- A path by its names, two dots among them; a path that ends in a slash or a dot can only lead to a
directory. -/
structure FilePath where
  names : List String
  toDirectory : Bool
deriving DecidableEq, Repr

namespace FilePath

def isIdle (part : String) : Bool :=
  part.isEmpty || part == "."

/-- The parts of a text between its slashes, where the first begins with `begun` in reverse. -/
def partsFrom (begun : List Char) : List Char → List String
  | [] => [String.ofList begun.reverse]
  | c :: rest =>
    if c = '/' then String.ofList begun.reverse :: partsFrom [] rest else partsFrom (c :: begun) rest

def parts (path : String) : List String :=
  partsFrom [] path.toList

def ofString (path : String) : FilePath :=
  ⟨(parts path).filter fun part => !isIdle part, ((parts path).getLast?.map isIdle).getD true⟩

/-- A path without the parts at its front and end that lead nowhere. -/
def trimmed (path : String) : String :=
  String.intercalate "/" (((parts path).dropWhile isIdle).reverse.dropWhile isIdle).reverse

def parent (p : FilePath) : FilePath :=
  ⟨p.names.dropLast, false⟩

/-- The paths on the way to a path, from the start to the path itself. -/
def stages (p : FilePath) : List (List String) :=
  (List.range (p.names.length + 1)).map p.names.take

def maxName : Nat := 255

def maxLength : Nat := 4095

/-- The length of a path in bytes, a slash with each name. -/
def length (p : FilePath) : Nat :=
  p.names.foldl (fun length name => length + name.utf8ByteSize + 1) 0

/-- Whether a path can be looked up at all: it is not too long, and has no null characters. -/
def isUsable (p : FilePath) : Bool :=
  p.length ≤ maxLength && p.names.all fun name => !name.toList.contains (Char.ofNat 0)

end FilePath

structure Environment where
  configHome? : Option String
  home? : Option String
deriving DecidableEq, Repr

namespace Environment

def below (directory path : String) : String :=
  if directory.isEmpty || directory.toList.getLast? == some '/' then directory ++ path
  else directory ++ "/" ++ path

/-- The directory of configurations: the one that is set, else `.config` in the home directory. -/
def configHome (e : Environment) : String :=
  match e.configHome? with
  | some path => path
  | none => below (e.home?.getD "/") ".config"

end Environment

end SqlSelect
