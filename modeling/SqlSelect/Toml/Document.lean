import SqlSelect.Toml.Outline
/-!
TOML documents: the tables that the lines of a text make up, with all blanks and comments. A document is
written with its headers in their order; a table without a header that holds values gets one, behind the
header that comes before it among the tables. A document in which nothing has to be moved is written as
it was read, with line feeds for line ends.
-/

namespace SqlSelect.Toml

/-- What stands in front of everything, the items of the root table, and what follows the last line. -/
structure Document where
  before? : Option String
  items : Items
  trailing : String
deriving Repr

namespace Document

/-! ## Assembling -/

def addEntries (items : Items) : List Entry → Option Items
  | [] => some items
  | e :: rest =>
    match items.addEntry e.path e.key e.value with
    | some items => addEntries items rest
    | none => none

/-- Adds the section whose header is the one at `place`. -/
def addSection (place : Nat) (s : Section) (items : Items) : Option Items :=
  let head : Heading := ⟨.header, some place, some s.before, s.after⟩
  let fill := fun inner => addEntries inner s.entries
  let change := if s.isArray then Items.appendTable s.key head fill else Items.openTable s.key head fill
  Items.update .implicit (fun _ => change) s.path .header items

def addSections (place : Nat) (items : Items) : List Section → Option Items
  | [] => some items
  | s :: rest =>
    match addSection place s items with
    | some items => addSections (place + 1) items rest
    | none => none

def ofOutline? (o : Outline) : Option Document :=
  match addEntries [] o.root with
  | none => none
  | some items => (addSections 1 items o.sections).map fun items => ⟨none, items, o.trailing⟩

def read? (text : String) : Option Document :=
  (Outline.read? text).bind ofOutline?

def data (d : Document) : Entries :=
  Items.data d.items

/-! ## Writing -/

/-- A table that is not written inside another: its path from the root, and whether it is an element of an
array. -/
structure Block where
  path : List Key
  isArray : Bool
  head : Heading
  items : Items
deriving Repr

namespace Block

def header (b : Block) : String :=
  if b.isArray then "[[" ++ Key.pathText b.path ++ "]]" else "[" ++ Key.pathText b.path ++ "]"

def linesText (lines : List Line) : String :=
  String.join (lines.map fun l => l.text ++ "\n")

/-- A block as it is written; one that is only on the way to others and holds no values is left out. -/
def text (b : Block) : String :=
  let lines := Items.lines [] b.items
  if b.head.kind = .implicit ∧ lines.isEmpty then ""
  else b.head.before?.getD "\n" ++ b.header ++ b.head.after ++ "\n" ++ linesText lines

/-- Gives every block the place of its header, and one without header that of the block before it. -/
def withPlaces (last : Nat) : List Block → List (Nat × Block)
  | [] => []
  | b :: rest =>
    let place := b.head.place?.getD last
    (place, b) :: withPlaces place rest

def inOrder (blocks : List Block) : List Block :=
  let placed := withPlaces 0 blocks
  let last := (placed.map Prod.fst).foldl max 0
  (List.range (last + 1)).flatMap fun place =>
    (placed.filter fun found => found.1 == place).map Prod.snd

mutual

/-- The blocks of an item: a table comes before those inside it, and dotted tables are no blocks. -/
def ofItem (path : List Key) : Item → List Block
  | .value _ => []
  | .table head items =>
    if head.kind = .dotted then ofItems path items else ⟨path, false, head, items⟩ :: ofItems path items
  | .tables elements => ofElements path elements
termination_by structural item => item

def ofItems (path : List Key) : List (Key × Item) → List Block
  | [] => []
  | (key, item) :: rest => ofItem (path ++ [key]) item ++ ofItems path rest
termination_by structural items => items

def ofElements (path : List Key) : List (Heading × List (Key × Item)) → List Block
  | [] => []
  | (head, items) :: rest => ⟨path, true, head, items⟩ :: ofItems path items ++ ofElements path rest
termination_by structural elements => elements

end

end Block

def text (d : Document) : String :=
  d.before?.getD "" ++ Block.linesText (Items.lines [] d.items) ++
    String.join ((Block.inOrder (Block.ofItems [] d.items)).map Block.text) ++ d.trailing

end Document

end SqlSelect.Toml
