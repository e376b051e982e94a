import SqlSelect.Rendering
import SqlSelect.Value.HostType
import Std.Data.ExtTreeSet
/-!
Columns: stored columns, literals, bound values, functions over columns, and composites that take one result slot
for each part; and columns with the host type that their results are read into.
-/

namespace SqlSelect

abbrev NameSet := Std.ExtTreeSet String

structure ColumnInfo where
  table : Table
  alias? : Option String
  storage : StorageClass
  nullable : Bool
deriving DecidableEq, Repr

inductive Column where
  | field (info : ColumnInfo) (name : String)
  | literal (info : ColumnInfo) (sql : String)
  | bound (info : ColumnInfo) (argument : String)
  | function (info : ColumnInfo) (opening separator closing : String) (operands : List Column)
  | composite (info : ColumnInfo) (parts : List Column)
deriving Repr

namespace Column

def info : Column → ColumnInfo
  | field info _ => info
  | literal info _ => info
  | bound info _ => info
  | function info _ _ _ _ => info
  | composite info _ => info

def withAlias (name : String) : Column → Column
  | field info n => field { info with alias? := some name } n
  | literal info s => literal { info with alias? := some name } s
  | bound info a => bound { info with alias? := some name } a
  | function info o s c operands => function { info with alias? := some name } o s c operands
  | composite info parts => composite { info with alias? := some name } parts

/-- Induction over columns: a property of a function or a composite may rest on that of its parts. -/
@[elab_as_elim]
theorem induction {P : Column → Prop} (field : ∀ info name, P (field info name))
    (literal : ∀ info sql, P (literal info sql)) (bound : ∀ info argument, P (bound info argument))
    (function : ∀ info opening separator closing operands, (∀ c ∈ operands, P c) →
      P (function info opening separator closing operands))
    (composite : ∀ info parts, (∀ c ∈ parts, P c) → P (composite info parts)) (c : Column) : P c := by
  induction c using Column.rec (motive_2 := fun cs => ∀ c ∈ cs, P c) with
  | field info name => exact field info name
  | literal info sql => exact literal info sql
  | bound info argument => exact bound info argument
  | function info opening separator closing operands ih => exact function _ _ _ _ _ ih
  | composite info parts ih => exact composite _ _ ih
  | nil => contradiction
  | cons c rest ihc ihrest d hd =>
    cases hd with
    | head => exact ihc
    | tail _ hd => exact ihrest d hd

/-! ## Equality -/

mutual

def decEq : (a b : Column) → Decidable (a = b)
  | field i n, field j m =>
    if h : i = j ∧ n = m then isTrue (by rw [h.1, h.2]) else isFalse (by intro e; cases e; exact h ⟨rfl, rfl⟩)
  | literal i n, literal j m =>
    if h : i = j ∧ n = m then isTrue (by rw [h.1, h.2]) else isFalse (by intro e; cases e; exact h ⟨rfl, rfl⟩)
  | bound i n, bound j m =>
    if h : i = j ∧ n = m then isTrue (by rw [h.1, h.2]) else isFalse (by intro e; cases e; exact h ⟨rfl, rfl⟩)
  | function i o s c xs, function j p t d ys =>
    if h : i = j ∧ o = p ∧ s = t ∧ c = d then
      match listDecEq xs ys with
      | isTrue e => isTrue (by rw [h.1, h.2.1, h.2.2.1, h.2.2.2, e])
      | isFalse e => isFalse (by intro q; cases q; exact e rfl)
    else isFalse (by intro q; cases q; exact h ⟨rfl, rfl, rfl, rfl⟩)
  | composite i xs, composite j ys =>
    if h : i = j then
      match listDecEq xs ys with
      | isTrue e => isTrue (by rw [h, e])
      | isFalse e => isFalse (by intro q; cases q; exact e rfl)
    else isFalse (by intro q; cases q; exact h rfl)
  | field .., literal .. | field .., bound .. | field .., function .. | field .., composite ..
  | literal .., field .. | literal .., bound .. | literal .., function .. | literal .., composite ..
  | bound .., field .. | bound .., literal .. | bound .., function .. | bound .., composite ..
  | function .., field .. | function .., literal .. | function .., bound .. | function .., composite ..
  | composite .., field .. | composite .., literal .. | composite .., bound .. | composite .., function .. =>
    isFalse (by intro q; cases q)

def listDecEq : (xs ys : List Column) → Decidable (xs = ys)
  | [], [] => isTrue rfl
  | [], _ :: _ | _ :: _, [] => isFalse (by intro q; cases q)
  | x :: xs, y :: ys =>
    match decEq x y with
    | isTrue e =>
      match listDecEq xs ys with
      | isTrue f => isTrue (by rw [e, f])
      | isFalse f => isFalse (by intro q; cases q; exact f rfl)
    | isFalse e => isFalse (by intro q; cases q; exact e rfl)

end

instance : DecidableEq Column := decEq

/-! ## Rendering -/

mutual

/-- A stored column is qualified unless its table is anonymous; a composite is its parts with commas. -/
def pieces : Column → List Piece
  | field info name =>
    if info.table.isAnonymous then [.text name] else [.qualifier info.table, .text ".", .text name]
  | literal _ sql => [.text sql]
  | bound _ argument => [.placeholder argument]
  | function _ opening separator closing operands =>
    .text opening :: listPieces separator operands ++ [.text closing]
  | composite _ parts => listPieces "," parts

def listPieces (separator : String) : List Column → List Piece
  | [] => []
  | [c] => pieces c
  | c :: rest => pieces c ++ .text separator :: listPieces separator rest

end

def sql (c : Column) : String :=
  Rendering.plain c.pieces

/-- The column without its table, fixed against renaming; only a stored column loses its qualifier. -/
def barePieces : Column → List Piece
  | field _ name => [.text name]
  | c => c.pieces.map Piece.fixed

def bareName (c : Column) : String :=
  Rendering.plain c.barePieces

/-- The name under which a compiled projection finds the column. -/
def outputName (c : Column) : String :=
  c.info.alias?.getD c.sql

/-! ## What a column contributes -/

mutual

def slots : Column → Nat
  | composite _ parts => listSlots parts
  | _ => 1

def listSlots : List Column → Nat
  | [] => 0
  | c :: rest => slots c + listSlots rest

end

mutual

/-- The bind arguments, in the order of their placeholders. -/
def arguments : Column → List String
  | field _ _ => []
  | literal _ _ => []
  | bound _ argument => [argument]
  | function _ _ _ _ operands => listArguments operands
  | composite _ parts => listArguments parts

def listArguments : List Column → List String
  | [] => []
  | c :: rest => arguments c ++ listArguments rest

end

mutual

def observe : Column → NameSet → NameSet
  | field info _, names => if info.table.isAnonymous then names else names.insert info.table.name
  | literal _ _, names => names
  | bound _ _, names => names
  | function _ _ _ _ operands, names => listObserve operands names
  | composite _ parts, names => listObserve parts names

def listObserve : List Column → NameSet → NameSet
  | [], names => names
  | c :: rest, names => listObserve rest (observe c names)

end

end Column

/-! ## Columns of a host type -/

structure TypedColumn (t : HostType) where
  column : Column
deriving DecidableEq, Repr

namespace TypedColumn

variable {t : HostType}

def stored (table : Table) (name : String) (storage : StorageClass) (nullable : Bool) : TypedColumn t :=
  ⟨.field ⟨table, none, storage, nullable⟩ name⟩

/-- A stored column whose storage class and nullability follow its type. -/
def of (t : HostType) (h : t.storage?.isSome) (table : Table) (name : String) : TypedColumn t :=
  stored table name (t.storage?.get h) t.isNullable

def withAlias (c : TypedColumn t) (name : String) : TypedColumn t :=
  ⟨c.column.withAlias name⟩

/-- Groups columns into one value; it may be `NULL` only if every part may. -/
def composite (t : HostType) (table : Table) (parts : List Column) : TypedColumn t :=
  ⟨.composite ⟨table, none, .text, parts.all fun c => c.info.nullable⟩ parts⟩

def bound (t : HostType) (h : t.storage?.isSome) (value : t.Carrier) : TypedColumn t :=
  ⟨.bound ⟨.anonymous, none, t.storage?.get h, t.isNullable⟩ (t.argument value)⟩

end TypedColumn

end SqlSelect
