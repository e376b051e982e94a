import SqlSelect.Proofs.Statement.Building
/-!
Chains that keep the first rendering of their projection. Whatever was compiled before, every rendering
is the one that a chain without a memo gives, so the memo cannot be observed.
-/

namespace SqlSelect

namespace ChainStep

def isAdd : ChainStep → Bool
  | add _ => true
  | _ => false

end ChainStep

namespace Statement

def after (s : Statement) : ChainStep → Statement
  | .add clause => s.add clause
  | _ => s

def answer (s : Statement) : ChainStep → Option Compiled
  | .add _ => none
  | .compile settings => some (s.compile settings)
  | .compileRenamed m => some (s.compileRenamed m)

theorem foldl_after_filter_isAdd (s : Statement) (steps : List ChainStep) :
    (steps.filter ChainStep.isAdd).foldl after s = steps.foldl after s := by
  induction steps generalizing s with
  | nil => rfl
  | cons step rest ih =>
    cases step with
    | add clause => exact ih (s.add clause)
    | compile settings => exact ih s
    | compileRenamed m => exact ih s

theorem projection_foldl_after (s : Statement) (steps : List ChainStep) :
    (steps.foldl after s).projection = s.projection := by
  induction steps generalizing s with
  | nil => rfl
  | cons step rest ih =>
    cases step with
    | add clause => exact (ih (s.add clause)).trans (s.projection_add clause)
    | compile settings => exact ih s
    | compileRenamed m => exact ih s

end Statement

namespace Projection

/-- A memo holds what rendering from its state gives. -/
def Keeps (p : Projection) (memo? : Option Memo) : Prop :=
  ∀ memo ∈ memo?, memo.result = p.compile memo.before

theorem keeps_none (p : Projection) : p.Keeps none := by
  simp [Keeps]

/-- A sound memo is used only where rendering gives the same, and stays sound. -/
theorem compileMemo_of_keeps {p : Projection} {memo? : Option Memo} (h : p.Keeps memo?) (r : Renaming) :
    (p.compileMemo memo? r).1 = p.compile r ∧ p.Keeps (p.compileMemo memo? r).2 := by
  unfold compileMemo
  split
  · exact ⟨rfl, h⟩
  · refine ⟨rfl, ?_⟩
    intro memo hm
    obtain rfl := Option.mem_some.mp hm
    rfl
  · rename_i memo _
    split
    case isTrue same => exact ⟨by rw [h memo rfl, same], h⟩
    case isFalse => exact ⟨rfl, h⟩

end Projection

namespace Chain

def Sound (c : Chain) : Prop :=
  c.statement.projection.Keeps c.memo?

theorem sound_start (s : Statement) : (start s).Sound :=
  s.projection.keeps_none

theorem render_of_sound {c : Chain} (h : c.Sound) (r : Renaming) :
    (c.render r).1 = c.statement.render r ∧ (c.render r).2.statement = c.statement ∧ (c.render r).2.Sound := by
  obtain ⟨same, keeps⟩ := Projection.compileMemo_of_keeps h (Rendering.under c.statement.sourcePieces r).2
  refine ⟨?_, rfl, keeps⟩
  simp only [render, Statement.render, same]

theorem compileRenamed_of_sound {c : Chain} (h : c.Sound) (m : RenameMap) :
    (c.compileRenamed m).1 = c.statement.compileRenamed m ∧
      (c.compileRenamed m).2.statement = c.statement ∧ (c.compileRenamed m).2.Sound := by
  obtain ⟨same, kept, sound⟩ := render_of_sound h (.queued m)
  refine ⟨?_, kept, sound⟩
  simp only [compileRenamed, Statement.compileRenamed, same, kept]

theorem compile_of_sound {c : Chain} (h : c.Sound) (settings : RenameSettings) :
    (c.compile settings).1 = c.statement.compile settings ∧
      (c.compile settings).2.statement = c.statement ∧ (c.compile settings).2.Sound := by
  obtain ⟨recorded, kept, sound⟩ := render_of_sound h (.recording [])
  obtain ⟨plain, keptPlain, soundPlain⟩ := render_of_sound h .off
  obtain ⟨second, keptSecond, soundSecond⟩ := render_of_sound sound .off
  by_cases auto : settings.isAuto
  · by_cases empty : (RenameMap.disambiguate (c.statement.render (.recording [])).after.log settings).isEmpty
    · simp only [compile, Statement.compile, auto, recorded, empty, if_true]
      rw [second, keptSecond, kept]
      exact ⟨rfl, rfl, soundSecond⟩
    · have renamed := compileRenamed_of_sound sound
        (RenameMap.disambiguate (c.statement.render (.recording [])).after.log settings)
      simpa only [compile, Statement.compile, auto, recorded, empty, if_true, if_false, kept,
        Bool.false_eq_true] using renamed
  · simp only [compile, Statement.compile, auto, if_false, Bool.false_eq_true]
    rw [plain, keptPlain]
    exact ⟨rfl, rfl, soundPlain⟩

theorem sound_with {c : Chain} (h : c.Sound) {statement : Statement}
    (same : statement.projection = c.statement.projection) : ({ c with statement } : Chain).Sound := by
  unfold Sound at h ⊢
  rwa [same]

theorem add_of_sound {c : Chain} (h : c.Sound) (clause : Clause) :
    ((c.add? clause).getD c).statement = c.statement.add clause ∧ ((c.add? clause).getD c).Sound := by
  have kept := c.statement.projection_add clause
  cases added : c.statement.add? clause with
  | none => simp [Chain.add?, Statement.add, added, h]
  | some s' =>
    have same : c.statement.add clause = s' := by simp [Statement.add, added]
    rw [same] at kept ⊢
    simp only [Chain.add?, added, Option.map_some, Option.getD_some, true_and]
    exact sound_with h kept

theorem step_of_sound {c : Chain} (h : c.Sound) (step : ChainStep) :
    (c.step step).1 = c.statement.answer step ∧
      (c.step step).2.statement = c.statement.after step ∧ (c.step step).2.Sound := by
  cases step with
  | add clause => exact ⟨rfl, add_of_sound h clause⟩
  | compile settings =>
    obtain ⟨same, kept, sound⟩ := compile_of_sound h settings
    exact ⟨congrArg some same, kept, sound⟩
  | compileRenamed m =>
    obtain ⟨same, kept, sound⟩ := compileRenamed_of_sound h m
    exact ⟨congrArg some same, kept, sound⟩

theorem run_of_sound {c : Chain} (h : c.Sound) (steps : List ChainStep) :
    (c.run steps).2.statement = steps.foldl Statement.after c.statement ∧ (c.run steps).2.Sound := by
  induction steps generalizing c with
  | nil => exact ⟨rfl, h⟩
  | cons step rest ih =>
    obtain ⟨-, kept, sound⟩ := step_of_sound h step
    obtain ⟨rest, soundRest⟩ := ih sound
    refine ⟨?_, soundRest⟩
    rw [List.foldl_cons, ← kept]
    exact rest

theorem getElem?_run (c : Chain) (steps : List ChainStep) (i : Nat) :
    (c.run steps).1[i]? = steps[i]?.map fun step => ((c.run (steps.take i)).2.step step).1 := by
  induction steps generalizing c i with
  | nil => simp [run]
  | cons step rest ih =>
    cases i with
    | zero => rfl
    | succ i => exact ih (c.step step).2 i

theorem renders_of_sound {c : Chain} (h : c.Sound) (renamings : List Renaming) :
    (renamings.foldl (fun c r => (c.render r).2) c).statement = c.statement ∧
      (renamings.foldl (fun c r => (c.render r).2) c).Sound := by
  induction renamings generalizing c with
  | nil => exact ⟨rfl, h⟩
  | cons r rest ih => exact ih (render_of_sound h r).2.2

/-- However clauses and compilations follow each other, every answer is that of the same chain built anew
with the clauses so far and compiled once, which is the answer without a memo. Every rendering of the
projection on the way, between any renderings of the statement, gives the text, the positions and the
renaming that rendering without a memo gives. -/
theorem memo_unobservable (s : Statement) (steps : List ChainStep) (i : Nat) :
    let reached := ((start s).run (steps.take i)).2
    let rebuilt := ((start s).run ((steps.take i).filter ChainStep.isAdd)).2
    ((start s).run steps).1[i]? = steps[i]?.map (fun step => (rebuilt.step step).1) ∧
      ((start s).run steps).1[i]? =
        steps[i]?.map (((steps.take i).foldl Statement.after s).answer) ∧
      ∀ (renamings : List Renaming) (r : Renaming),
        let c := renamings.foldl (fun c r => (c.render r).2) reached
        (c.statement.projection.compileMemo c.memo? r).1 = s.projection.compile r := by
  intro reached rebuilt
  obtain ⟨statement, sound⟩ := run_of_sound (sound_start s) (steps.take i)
  obtain ⟨anew, soundAnew⟩ := run_of_sound (sound_start s) ((steps.take i).filter ChainStep.isAdd)
  have answers : ∀ step, (reached.step step).1 = ((steps.take i).foldl Statement.after s).answer step :=
    fun step => (step_of_sound sound step).1.trans (congrArg (Statement.answer · step) statement)
  have answersAnew : ∀ step, (rebuilt.step step).1 = ((steps.take i).foldl Statement.after s).answer step := by
    intro step
    rw [(step_of_sound soundAnew step).1, anew]
    exact congrArg (Statement.answer · step) (s.foldl_after_filter_isAdd (steps.take i))
  refine ⟨?_, ?_, ?_⟩
  · rw [getElem?_run]
    exact congrArg (Option.map · steps[i]?) (funext fun step => (answers step).trans (answersAnew step).symm)
  · rw [getElem?_run]
    exact congrArg (Option.map · steps[i]?) (funext answers)
  · intro renamings r c
    obtain ⟨kept, soundAfter⟩ := renders_of_sound sound renamings
    have projection : c.statement.projection = s.projection := by
      rw [kept, statement]
      exact s.projection_foldl_after (steps.take i)
    rw [← projection]
    exact (Projection.compileMemo_of_keeps soundAfter r).1

end Chain

end SqlSelect
