import SqlSelect.Toml.Scalar
/-!
The items of TOML tables as they are written. A table may be given in several places, by dotted keys and by headers,
and every key is written as where it first stood; only a header of its own, coming after headers of tables inside,
writes the key of a table anew and puts it last.
-/

namespace SqlSelect.Toml

/-- A key: its name, how it is written, and the blanks between it and the dots to its left and right.
What stands in front of a path and behind it is kept with the last key of the path. -/
structure Key where
  name : String
  written : String
  left : String
  right : String
  before : String
  after : String
deriving DecidableEq, Repr

namespace Key

def joined : List Key → String
  | [] => ""
  | [k] => k.written
  | k :: l :: rest => k.written ++ k.right ++ "." ++ l.left ++ joined (l :: rest)

def pathText (path : List Key) : String :=
  match path.getLast? with
  | some last => last.before ++ joined path ++ last.after
  | none => ""

end Key

/-- How a table came about: by a dotted key, on the way to a deeper header, or by a header of its own.
It decides whether more may be added to the table. -/
inductive TableKind where
  | dotted
  | implicit
  | header
deriving DecidableEq, Repr

/-- A value in its place: what stands between the sign of equality and the value, the text of the value,
and what follows it. -/
structure Written where
  gap : String
  text : String
  value : Value
  after : String
deriving Repr

/-- How a table came about, which of the headers is its own, and what stands in front of that header and
behind it. -/
structure Heading where
  kind : TableKind
  place? : Option Nat
  before? : Option String
  after : String
deriving DecidableEq, Repr

namespace Heading

def bare (kind : TableKind) : Heading :=
  ⟨kind, none, none, ""⟩

end Heading

inductive Item where
  | value (w : Written)
  | table (head : Heading) (items : List (Key × Item))
  | tables (elements : List (Heading × List (Key × Item)))
deriving Repr

abbrev Items := List (Key × Item)

namespace Items

def find? (name : String) : Items → Option Item
  | [] => none
  | (key, item) :: rest => if key.name = name then some item else find? name rest

def replace (name : String) (item : Item) : Items → Items
  | [] => []
  | (key, old) :: rest =>
    if key.name = name then (key, item) :: rest else (key, old) :: replace name item rest

def without (name : String) (items : Items) : Items :=
  items.filter fun entry => entry.1.name != name

/-! ## Adding -/

/-- Changes the innermost table on a path, creating tables of `fresh` on the way; in an array of tables
the way leads through the last. A dotted key may not enter a table that has a header. -/
def update (fresh : TableKind) (change : TableKind → Items → Option Items) :
    List Key → TableKind → Items → Option Items
  | [], kind, items => change kind items
  | key :: path, _, items =>
    match find? key.name items with
    | none =>
      (update fresh change path fresh []).map fun inner => items ++ [(key, .table (.bare fresh) inner)]
    | some (.value _) => none
    | some (.table head inner) =>
      if fresh = .dotted ∧ head.kind = .header then none
      else
        (update fresh change path head.kind inner).map fun inner =>
          replace key.name (.table head inner) items
    | some (.tables elements) =>
      match elements.getLast? with
      | none => none
      | some (head, inner) =>
        (update fresh change path head.kind inner).map fun inner =>
          replace key.name (.tables (elements.dropLast ++ [(head, inner)])) items

/-- Adds a value under a key that the table does not have. A path of dotted keys has to end in a dotted
table. -/
def addValue (viaPath : Bool) (key : Key) (w : Written) (kind : TableKind) (items : Items) :
    Option Items :=
  if (viaPath && kind != .dotted) || (find? key.name items).isSome then none
  else some (items ++ [(key, .value w)])

def addEntry (path : List Key) (key : Key) (w : Written) (items : Items) : Option Items :=
  update .dotted (addValue (!path.isEmpty) key w) path .header items

/-- Opens the table of a header and fills it: it must be new, or have been made on the way to others. -/
def openTable (key : Key) (head : Heading) (fill : Items → Option Items) (items : Items) :
    Option Items :=
  match find? key.name items with
  | none => (fill []).map fun inner => items ++ [(key, .table head inner)]
  | some (.table old inner) =>
    if old.kind = .implicit then
      (fill inner).map fun inner => without key.name items ++ [(key, .table head inner)]
    else none
  | some (.value _) => none
  | some (.tables _) => none

/-- Appends a table to an array of tables and fills it. -/
def appendTable (key : Key) (head : Heading) (fill : Items → Option Items) (items : Items) :
    Option Items :=
  match find? key.name items with
  | none => (fill []).map fun inner => items ++ [(key, .tables [(head, inner)])]
  | some (.tables elements) =>
    (fill []).map fun inner => replace key.name (.tables (elements ++ [(head, inner)])) items
  | some (.value _) => none
  | some (.table _ _) => none

end Items

/-! ## Data -/

mutual

def Item.data : Item → Value
  | .value w => w.value
  | .table _ items => .table (Items.data items)
  | .tables elements => .array (Items.dataOfEach elements)
termination_by structural item => item

def Items.data : List (Key × Item) → Entries
  | [] => []
  | (key, item) :: rest => (key.name, item.data) :: Items.data rest
termination_by structural items => items

def Items.dataOfEach : List (Heading × List (Key × Item)) → List Value
  | [] => []
  | (_, items) :: rest => .table (Items.data items) :: Items.dataOfEach rest
termination_by structural elements => elements

end

/-! ## Lines -/

/-- A value with its path from the header above it. -/
structure Line where
  path : List Key
  value : Written
deriving Repr

def Line.text (l : Line) : String :=
  Key.pathText l.path ++ "=" ++ l.value.gap ++ l.value.text ++ l.value.after

mutual

/-- The lines of an item: a value has one, and a dotted table those of its items. -/
def Item.lines (path : List Key) : Item → List Line
  | .value w => [⟨path, w⟩]
  | .table head items => if head.kind = .dotted then Items.lines path items else []
  | .tables _ => []
termination_by structural item => item

def Items.lines (path : List Key) : List (Key × Item) → List Line
  | [] => []
  | (key, item) :: rest => item.lines (path ++ [key]) ++ Items.lines path rest
termination_by structural items => items

end

end SqlSelect.Toml
