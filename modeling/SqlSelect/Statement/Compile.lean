import SqlSelect.Statement.Basic
import SqlSelect.Statement.Raw
/-!
Compiling statements. The sources are rendered first, then the projection, then the other clauses, so a
renaming meets every declaration before the references after it; the text is put in SQL order at the end.
-/

namespace SqlSelect

structure Rendered where
  sql : String
  positions : Positions
  after : Renaming

namespace Projection

def compile (p : Projection) (r : Renaming) : Rendered :=
  let projected := p.projected
  let (text, r) := Rendering.under projected.pieces r
  ⟨text, projected.positions, r⟩

def decoder? : Projection → Option Decoder
  | single t c => some ⟨t, c.column.outputName, c.column.info.storage⟩
  | _ => none

end Projection

namespace Statement

def assemble (s : Statement) (sources : String) (projection : Rendered) : Rendered :=
  let (tail, r) := Rendering.under s.tailPieces projection.after
  ⟨s.head ++ projection.sql ++ sources ++ tail, projection.positions, r⟩

def render (s : Statement) (r : Renaming) : Rendered :=
  let (sources, r) := Rendering.under s.sourcePieces r
  s.assemble sources (s.projection.compile r)

/-- Adds to a rendered text what no renaming changes. -/
def finish (s : Statement) (r : Rendered) : Compiled :=
  ⟨r.sql, s.arguments, s.observed, s.selected?, r.positions, s.projection.decoder?⟩

/-- Compiles with the aliases of a map, whatever tables are repeated. -/
def compileRenamed (s : Statement) (m : RenameMap) : Compiled :=
  s.finish (s.render (.queued m))

/-- Compiles under the settings: with automatic renaming the occurrences are noted down first, and
aliases are used if any table is declared more than once. -/
def compile (s : Statement) (settings : RenameSettings) : Compiled :=
  if settings.isAuto then
    let m := RenameMap.disambiguate (s.render (.recording [])).after.log settings
    if m.isEmpty then s.finish (s.render .off) else s.compileRenamed m
  else s.finish (s.render .off)

end Statement

end SqlSelect
