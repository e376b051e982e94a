import SqlSelect.Proofs.Statement.Compilation
import SqlSelect.Proofs.Statement.Memo
import SqlSelect.Proofs.Written
/-!
Results of a statement compiled in two ways. They differ in the text alone: the arguments, the tables and
the slots are the same, and a value is read to the same result or the same error.
-/

namespace SqlSelect

theorem StorageClass.parse_ne_unexpectedNull (c : StorageClass) (raw : RawValue) (name : String) :
    c.parse raw ≠ .error (.unexpectedNull name) := by
  unfold parse
  split <;> simp

theorem HostType.read_ne_unexpectedNull (t : HostType) (raw : RawValue) (name : String) :
    t.read raw ≠ .error (.unexpectedNull name) := by
  unfold read
  split <;> simp

/-- Only a `NULL` that the type does not admit is reported as one, and under the name of the column. -/
theorem Decoder.name_of_unexpectedNull {d : Decoder} {raw : RawValue} {name : String}
    (h : d.decode raw = .error (.unexpectedNull name)) : name = d.name := by
  unfold decode at h
  split at h
  case h_1 e parsed =>
    have refused : d.storage.parse raw = .error (.unexpectedNull name) := by simpa [parsed] using h
    exact (d.storage.parse_ne_unexpectedNull raw name refused).elim
  case h_2 parsed =>
    split at h
    · exact nomatch h
    · simpa using h.symm
  case h_3 value _ parsed => exact (d.type.read_ne_unexpectedNull value.toRaw name h).elim

namespace Compiled

/-- Reads a raw value of a statement for a single column, with the type that it is read into. -/
def decode? (c : Compiled) (raw : RawValue) : Option ((t : HostType) × Except ReadError t.Carrier) :=
  c.decoder?.map fun d => ⟨d.type, d.decode raw⟩

/-- Two results that nothing but the text tells apart. -/
structure Agrees (a b : Compiled) : Prop where
  arguments : a.arguments = b.arguments
  observed : a.observed = b.observed
  selected : a.selected? = b.selected?
  positions : a.positions = b.positions
  position : ∀ name, a.position name = b.position name
  decode : ∀ raw, a.decode? raw = b.decode? raw

end Compiled

namespace Statement

theorem positions_compileBy (s : Statement) (way : Compilation) (r : Renaming) :
    (s.compileBy way).positions = (s.projection.write r).positions := by
  obtain ⟨r', compiled⟩ := s.exists_render_eq_compileBy way
  -- the projection goes on with what the sources leave of the renaming
  let left := (Rendering.under s.sourcePieces r').2
  have projection : (s.compileBy way).positions = (s.projection.compile left).positions := by
    rw [compiled]
    rfl
  rw [projection, Projection.compile_eq_write]
  exact (s.projection.write_alike left r).positions

theorem decoder_compileBy (s : Statement) (way : Compilation) :
    (s.compileBy way).decoder? = s.projection.decoder? := by
  obtain ⟨r, compiled⟩ := s.exists_render_eq_compileBy way
  rw [compiled]
  rfl

theorem agrees_compileBy (s : Statement) (way way' : Compilation) :
    (s.compileBy way).Agrees (s.compileBy way') := by
  obtain ⟨r, compiled⟩ := s.exists_render_eq_compileBy way
  obtain ⟨r', compiled'⟩ := s.exists_render_eq_compileBy way'
  have positions : (s.compileBy way).positions = (s.compileBy way').positions :=
    (s.positions_compileBy way .off).trans (s.positions_compileBy way' .off).symm
  have decoder : (s.compileBy way).decoder? = (s.compileBy way').decoder? :=
    (s.decoder_compileBy way).trans (s.decoder_compileBy way').symm
  refine ⟨?_, ?_, ?_, positions, ?_, ?_⟩
  · rw [compiled, compiled']
    rfl
  · rw [compiled, compiled']
    rfl
  · rw [compiled, compiled']
    rfl
  · intro name
    simp only [Compiled.position, positions]
  · intro raw
    simp only [Compiled.decode?, decoder]

end Statement

namespace Compilation

def step : Compilation → ChainStep
  | under settings => .compile settings
  | renamed m => .compileRenamed m

theorem foldl_after_map_step (s : Statement) (ways : List Compilation) :
    (ways.map step).foldl Statement.after s = s := by
  induction ways with
  | nil => rfl
  | cons way rest ih => cases way <;> exact ih

end Compilation

namespace Chain

def compileBy (c : Chain) : Compilation → Compiled × Chain
  | .under settings => c.compile settings
  | .renamed m => c.compileRenamed m

theorem compileBy_of_sound {c : Chain} (h : c.Sound) (way : Compilation) :
    (c.compileBy way).1 = c.statement.compileBy way ∧
      (c.compileBy way).2.statement = c.statement ∧ (c.compileBy way).2.Sound := by
  cases way with
  | under settings => exact compile_of_sound h settings
  | renamed m => exact compileRenamed_of_sound h m

/-- A chain compiled twice, after any history and with any compilations between the two, gives results
that differ in the text alone. The slots are those of the columns written out under any renaming at all,
and a single column is read by one decoder, which reports a `NULL` under the column's output name. -/
theorem renaming_changes_only_text (s : Statement) (steps : List ChainStep) (way way' : Compilation)
    (between : List Compilation) :
    let c := ((start s).run steps).2
    let a := (c.compileBy way).1
    let b := (((c.compileBy way).2.run (between.map Compilation.step)).2.compileBy way').1
    a.Agrees b ∧ (∀ r, a.positions = (s.projection.write r).positions) ∧
      ∀ t column, s.projection = .single t column →
        ∃ d : Decoder, a.decoder? = some d ∧ b.decoder? = some d ∧ d.type = t ∧
          ∀ raw name, d.decode raw = .error (.unexpectedNull name) → name = column.column.outputName := by
  intro c a b
  obtain ⟨reached, sound⟩ := run_of_sound (sound_start s) steps
  obtain ⟨first, kept, soundFirst⟩ := compileBy_of_sound sound way
  obtain ⟨keptBetween, soundBetween⟩ := run_of_sound soundFirst (between.map Compilation.step)
  rw [Compilation.foldl_after_map_step, kept] at keptBetween
  have second := (compileBy_of_sound soundBetween way').1
  rw [keptBetween] at second
  have projection : c.statement.projection = s.projection := by
    rw [reached]
    exact s.projection_foldl_after steps
  refine ⟨?_, ?_, ?_⟩
  · rw [show a = _ from first, show b = _ from second]
    exact c.statement.agrees_compileBy way way'
  · intro r
    rw [show a = _ from first, ← projection]
    exact c.statement.positions_compileBy way r
  · intro t column single
    refine ⟨⟨t, column.column.outputName, column.column.info.storage⟩, ?_, ?_, rfl, ?_⟩
    · rw [show a = _ from first, Statement.decoder_compileBy, projection, single]
      rfl
    · rw [show b = _ from second, Statement.decoder_compileBy, projection, single]
      rfl
    · intro raw name refused
      exact Decoder.name_of_unexpectedNull refused

end Chain

end SqlSelect
