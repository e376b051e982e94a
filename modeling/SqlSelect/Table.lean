/-!
Tables. A table knows its name, an alias if one was given, and the names of the tables it is related
to; only related tables are joined.
-/

namespace SqlSelect

structure Table where
  name : String
  alias? : Option String
  relations : List String
deriving DecidableEq, Repr

namespace Table

def named (name : String) : Table :=
  ⟨name, none, []⟩

/-- The owner of literals and of functions over several columns. -/
def anonymous : Table :=
  named ""

def withRelations (t : Table) (relations : List String) : Table :=
  { t with relations }

def aliased (t : Table) (name : String) : Table :=
  { t with alias? := some name }

def withoutAlias (t : Table) : Table :=
  { t with alias? := none }

def isAnonymous (t : Table) : Bool :=
  t.name.isEmpty

def reference (t : Table) : String :=
  t.alias?.getD t.name

def isRelatedTo (t other : Table) : Bool :=
  t.relations.contains other.name

/-- Only tables with a name and no alias of their own take part in renaming. -/
def isRenameable (t : Table) : Bool :=
  !t.isAnonymous && t.alias?.isNone

def declarationAs (t : Table) : Option String → String
  | some name => t.name ++ " AS " ++ name
  | none => t.name

def declaration (t : Table) : String :=
  t.declarationAs t.alias?

end Table

end SqlSelect
