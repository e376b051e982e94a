import SqlSelect.Column.Projected
import SqlSelect.Column.Tuple
import SqlSelect.Join
/-!
SELECT statements. A statement is built clause by clause in SQL order, and a join is taken only if its
table is related to a table that the statement already has.
-/

namespace SqlSelect

/-- What a statement selects: everything, some columns, or one column that is read into a type. -/
inductive Projection where
  | all
  | columns (first : Column) (rest : List Column)
  | single (t : HostType) (c : TypedColumn t)

namespace Projection

def toList : Projection → List Column
  | all => []
  | columns first rest => first :: rest
  | single _ c => [c.column]

/-- Whether joins may reach tables related to any joined table. -/
def isDeep : Projection → Bool
  | single _ _ => true
  | _ => false

/-- The columns with their positions; without columns everything is selected. -/
def projected : Projection → Projected
  | all => (Projected.startingAt 0).append [.text "*"]
  | columns first rest => Column.compileAll (first :: rest) (Projected.startingAt 0)
  | single _ c => Column.compileAll [c.column] (Projected.startingAt 0)

end Projection

structure Grouping where
  columns : List Column
  having? : Option Expression

structure Paging where
  limit : Nat
  offset? : Option Nat
deriving DecidableEq, Repr

/-- A statement with the joins that were taken. -/
structure Statement where
  distinct : Bool
  projection : Projection
  table : Table
  joins : List Join
  condition? : Option Expression
  grouping? : Option Grouping
  ordering : List OrderingTerm
  paging? : Option Paging

inductive Clause where
  | join (operator : JoinOperator) (clause : JoinClause)
  | filter (e : Expression)
  | groupBy (columns : List Column)
  | having (e : Expression)
  | orderBy (terms : List OrderingTerm)
  | limit (n : Nat)
  | offset (n : Nat)

namespace Statement

def select (distinct : Bool) (projection : Projection) (table : Table) : Statement :=
  ⟨distinct, projection, table, [], none, none, [], none⟩

/-- Whether a table may be joined: it is related to the first table or, for a single column, to any
table joined before. -/
def reaches (s : Statement) (t : Table) : Bool :=
  s.table.isRelatedTo t || (s.projection.isDeep && s.joins.any fun j => j.table.isRelatedTo t)

/-- Takes a join if its table may be joined, and drops it otherwise. -/
def join (s : Statement) (operator : JoinOperator) (clause : JoinClause) : Statement :=
  if s.reaches clause.table then { s with joins := s.joins ++ [⟨operator, clause⟩] } else s

/-- Adds a clause, where the clauses so far allow it; each comes at most once and in SQL order. -/
def add? (s : Statement) : Clause → Option Statement
  | .join operator clause =>
    if s.condition?.isNone && s.grouping?.isNone && s.ordering.isEmpty && s.paging?.isNone then
      some (s.join operator clause)
    else none
  | .filter e =>
    if s.condition?.isNone && s.grouping?.isNone && s.ordering.isEmpty && s.paging?.isNone then
      some { s with condition? := some e }
    else none
  | .groupBy columns =>
    if s.grouping?.isNone && s.ordering.isEmpty && s.paging?.isNone then
      some { s with grouping? := some ⟨columns, none⟩ }
    else none
  | .having e =>
    match s.grouping? with
    | some ⟨columns, none⟩ =>
      if s.ordering.isEmpty && s.paging?.isNone then some { s with grouping? := some ⟨columns, some e⟩ }
      else none
    | _ => none
  | .orderBy terms =>
    if s.ordering.isEmpty && s.paging?.isNone then some { s with ordering := terms } else none
  | .limit n => if s.paging?.isNone then some { s with paging? := some ⟨n, none⟩ } else none
  | .offset n =>
    match s.paging? with
    | some ⟨limit, none⟩ => some { s with paging? := some ⟨limit, some n⟩ }
    | _ => none

/-! ## What a statement contributes -/

/-- The bind arguments: those of the projection, the joins, the condition and the condition on groups. -/
def arguments (s : Statement) : List String :=
  Column.listArguments s.projection.toList ++ s.joins.flatMap Join.arguments ++
    (s.condition?.map Expression.arguments).getD [] ++
    ((s.grouping?.bind Grouping.having?).map Expression.arguments).getD []

def observeOptional (e? : Option Expression) (names : NameSet) : NameSet :=
  match e? with
  | some e => e.observe names
  | none => names

/-- The tables whose changes the statement's result depends on. -/
def observed (s : Statement) : NameSet :=
  let names := (Column.listObserve s.projection.toList ∅).insert s.table.name
  let names := s.joins.foldl (fun names j => j.observe names) names
  observeOptional (s.grouping?.bind Grouping.having?) (observeOptional s.condition? names)

/-- The tables that the projection reads; none stands for every observed table. -/
def selected? (s : Statement) : Option NameSet :=
  let names := Column.listObserve s.projection.toList ∅
  if names.isEmpty then none else some names

/-! ## Rendering -/

def head (s : Statement) : String :=
  if s.distinct then "SELECT DISTINCT " else "SELECT "

def sourcePieces (s : Statement) : List Piece :=
  .text " FROM " :: .source s.table :: s.joins.flatMap Join.pieces

def groupingPieces (g : Grouping) : List Piece :=
  .text " GROUP BY " :: Column.listPieces "," g.columns ++
    match g.having? with
    | some e => .text " HAVING " :: e.pieces
    | none => []

def orderingPieces : List OrderingTerm → List Piece
  | [] => []
  | terms => .text " ORDER BY " :: Rendering.separated "," (terms.map OrderingTerm.pieces)

def pagingPieces (p : Paging) : List Piece :=
  .text (" LIMIT " ++ String.ofList (Numeral.ofNat p.limit)) ::
    match p.offset? with
    | some n => [.text (" OFFSET " ++ String.ofList (Numeral.ofNat n))]
    | none => []

def tailPieces (s : Statement) : List Piece :=
  (match s.condition? with
    | some e => .text " WHERE " :: e.pieces
    | none => []) ++
  (s.grouping?.map groupingPieces).getD [] ++ orderingPieces s.ordering ++
  (s.paging?.map pagingPieces).getD []

end Statement

end SqlSelect
