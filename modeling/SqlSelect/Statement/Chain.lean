import SqlSelect.Statement.Compile
/-!
Statements that are compiled more than once while they are built. The projection never changes after
the start, so its first rendering is kept and used again for the same renaming.
-/

namespace SqlSelect

/-- A rendering kept together with the renaming that it began with. -/
structure Memo where
  before : Renaming
  result : Rendered

namespace Projection

/-- Renders the projection, or takes the rendering kept for the same renaming. A recording renaming has
to meet every occurrence and so neither uses nor fills the memo. -/
def compileMemo (p : Projection) (memo? : Option Memo) (r : Renaming) : Rendered × Option Memo :=
  match r, memo? with
  | .recording _, _ => (p.compile r, memo?)
  | _, none => (p.compile r, some ⟨r, p.compile r⟩)
  | _, some memo => if memo.before = r then (memo.result, memo?) else (p.compile r, memo?)

end Projection

/-- A statement being built, with the rendering kept for its projection. -/
structure Chain where
  statement : Statement
  memo? : Option Memo

inductive ChainStep where
  | add (c : Clause)
  | compile (settings : RenameSettings)
  | compileRenamed (m : RenameMap)

namespace Chain

def start (s : Statement) : Chain :=
  ⟨s, none⟩

def render (c : Chain) (r : Renaming) : Rendered × Chain :=
  let (sources, r) := Rendering.under c.statement.sourcePieces r
  let (projection, memo?) := c.statement.projection.compileMemo c.memo? r
  (c.statement.assemble sources projection, { c with memo? })

def compileRenamed (c : Chain) (m : RenameMap) : Compiled × Chain :=
  let (r, c) := c.render (.queued m)
  (c.statement.finish r, c)

def compile (c : Chain) (settings : RenameSettings) : Compiled × Chain :=
  if settings.isAuto then
    let (recorded, c) := c.render (.recording [])
    let m := RenameMap.disambiguate recorded.after.log settings
    if m.isEmpty then
      let (r, c) := c.render .off
      (c.statement.finish r, c)
    else c.compileRenamed m
  else
    let (r, c) := c.render .off
    (c.statement.finish r, c)

def add? (c : Chain) (clause : Clause) : Option Chain :=
  (c.statement.add? clause).map fun statement => { c with statement }

/-- One step of a chain: a clause that is not allowed changes nothing, and only compiling answers. -/
def step (c : Chain) : ChainStep → Option Compiled × Chain
  | .add clause => (none, (c.add? clause).getD c)
  | .compile settings => let (r, c) := c.compile settings; (some r, c)
  | .compileRenamed m => let (r, c) := c.compileRenamed m; (some r, c)

def run (c : Chain) : List ChainStep → List (Option Compiled) × Chain
  | [] => ([], c)
  | s :: rest =>
    let (answer, c) := c.step s
    let (answers, c) := run c rest
    (answer :: answers, c)

end Chain

end SqlSelect
