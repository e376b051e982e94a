import SqlSelect.Proofs.Config.Installed
import SqlSelect.Proofs.Statement.Memo
/-!
Settings before and after they are resolved. Resolving writes the defaults out and nothing else, so no chain can
tell the two apart, whether the check that follows accepts them or not.
-/

namespace SqlSelect

namespace RenameSettings

/-- Settings that give the same answers to all that is asked of them. -/
structure Alike (s t : RenameSettings) : Prop where
  auto : s.isAuto = t.isAuto
  template : s.template = t.template
  aliases : ∀ table n, s.aliasFor table n = t.aliasFor table n

theorem alike_resolve (s : RenameSettings) : s.resolve.1.Alike s :=
  ⟨rfl, rfl, fun _ _ => rfl⟩

theorem resolve_resolve (s : RenameSettings) : s.resolve.1.resolve = s.resolve := rfl

end RenameSettings

open RenameSettings (Alike)

/-! ## Compiling under either -/

namespace RenameMap

variable {s t : RenameSettings}

theorem aliasAfter_congr (same : s.Alike t) (seen : List Occurrence) (o : Occurrence) :
    aliasAfter s seen o = aliasAfter t seen o := by
  unfold aliasAfter
  cases o.kind with
  | declaration => exact same.aliases o.table _
  | reference => exact same.aliases o.table 1

theorem queueFrom_congr (same : s.Alike t) (all seen rest : List Occurrence) (m : RenameMap) :
    queueFrom s all seen m rest = queueFrom t all seen m rest := by
  induction rest generalizing seen m with
  | nil => rfl
  | cons o rest ih => simp only [queueFrom, aliasAfter_congr same, ih]

theorem disambiguate_congr (same : s.Alike t) (occurrences : List Occurrence) :
    disambiguate occurrences s = disambiguate occurrences t :=
  queueFrom_congr same occurrences [] occurrences empty

end RenameMap

/-- Compiling asks the settings for no more than whether to rename and for the aliases. -/
theorem Chain.compile_congr {s t : RenameSettings} (same : s.Alike t) (c : Chain) :
    c.compile s = c.compile t := by
  simp only [compile, same.auto, RenameMap.disambiguate_congr same]

/-! ## Compiling under the installed configuration -/

theorem ConfigSlot.install_eq_ok {slot : ConfigSlot} {c d : Config} (h : (slot.install c).2 = .ok d) :
    (slot.install c).1 = some d ∧ c.resolve = (d, .ok ()) := by
  cases resolved : c.resolved with
  | error e => simp [install, resolved] at h
  | ok d' =>
    obtain rfl : d' = d := by simpa [install, resolved] using h
    exact ⟨by simp [install, resolved], Config.resolved_eq_ok.mp resolved⟩

namespace SessionStep

/-- The calls that leave the slot of the installed configuration alone. -/
def KeepsSlot (call : SessionStep) : Prop :=
  call.installs = false ∧ call ≠ .reset

end SessionStep

namespace Session

/-- Compiles a chain under the installed configuration. -/
def compile (s : Session) (c : Chain) : Compiled × Chain :=
  c.compile s.slot.current.rename

variable (reader : String → Option Config)

theorem slot_step_of_keepsSlot (s : Session) {call : SessionStep} (keeps : call.KeepsSlot) :
    (s.step reader call).1.slot = s.slot := by
  obtain ⟨plain, other⟩ := keeps
  rcases step_slot reader s call with ⟨cleared, -⟩ | ⟨installs, -⟩ | ⟨kept, -⟩
  · exact (other cleared).elim
  · exact absurd installs (by simp [plain])
  · exact kept

theorem slot_run_of_keepsSlot (s : Session) {calls : List SessionStep} (keep : ∀ call ∈ calls, call.KeepsSlot) :
    (s.run reader calls).1.slot = s.slot := by
  induction calls generalizing s with
  | nil => rfl
  | cons call rest ih =>
    have first := slot_step_of_keepsSlot reader s (keep call List.mem_cons_self)
    exact (ih _ fun later member => keep later (List.mem_cons_of_mem _ member)).trans first

/-- What was set stays the configuration to compile under until it is replaced, and compiles like the one that was
given. -/
theorem compile_of_set {s : Session} {c d : Config}
    (accepted : (s.step reader (.setConfig c)).2 = .loaded (.ok d)) {calls : List SessionStep}
    (keep : ∀ call ∈ calls, call.KeepsSlot) (chain : Chain) :
    ((s.step reader (.setConfig c)).1.run reader calls).1.compile chain = chain.compile c.rename := by
  obtain ⟨put, resolved⟩ := ConfigSlot.install_eq_ok (SessionAnswer.loaded.inj accepted)
  have filled : d.rename = c.rename.resolve.1 := by
    have first := congrArg Prod.fst resolved
    rw [Config.resolve_fst] at first
    exact (congrArg Config.rename first).symm
  have current : ((s.step reader (.setConfig c)).1.run reader calls).1.slot = some d :=
    (slot_run_of_keepsSlot reader _ keep).trans put
  rw [compile, current]
  exact chain.compile_congr (filled ▸ c.rename.alike_resolve)

end Session

/-- Accepted or not, resolved settings are complete, mean what they meant and resolve to themselves with the same
verdict. So a chain compiles alike under both, also when it is compiled under one after the other; and under the
installed configuration it compiles as under the settings that were given, or as under empty ones if none were. -/
theorem RenameSettings.resolving_keeps_meaning (s : RenameSettings) :
    let r := s.resolve
    r.1.Alike s ∧ r.1.resolve = r ∧ r.1.auto?.isSome = true ∧ r.1.template?.isSome = true ∧
      (∀ statement : Statement, statement.compile r.1 = statement.compile s) ∧
      (∀ (statement : Statement) (steps : List ChainStep),
        let c := ((Chain.start statement).run steps).2
        c.compile r.1 = c.compile s ∧ ((c.compile s).2.compile r.1).1 = (c.compile s).1) ∧
      (∀ reader (session : Session) (d : Config) (calls : List SessionStep),
        let set := session.step reader (.setConfig ⟨s⟩)
        set.2 = .loaded (.ok d) → (∀ call ∈ calls, call.KeepsSlot) →
          ∀ c : Chain, (set.1.run reader calls).1.compile c = c.compile s) ∧
      ∀ (session : Session) (c : Chain), session.slot = none → session.compile c = c.compile ⟨none, none⟩ := by
  intro r
  have same : r.1.Alike s := s.alike_resolve
  refine ⟨same, s.resolve_resolve, rfl, rfl, ?_, ?_, ?_, ?_⟩
  · intro statement
    have compiled (settings : RenameSettings) :
        ((Chain.start statement).compile settings).1 = statement.compile settings :=
      (Chain.compile_of_sound (Chain.sound_start statement) settings).1
    rw [← compiled, ← compiled, Chain.compile_congr same]
  · intro statement steps c
    refine ⟨c.compile_congr same, ?_⟩
    -- the chain has kept the rendering of its projection by the second time
    have sound : c.Sound := (Chain.run_of_sound (Chain.sound_start statement) steps).2
    obtain ⟨first, kept, soundAfter⟩ := Chain.compile_of_sound sound s
    obtain ⟨second, -, -⟩ := Chain.compile_of_sound soundAfter s
    rw [Chain.compile_congr same, second, kept, first]
  · intro reader session d calls set accepted keep c
    exact Session.compile_of_set reader accepted keep c
  · intro session c empty
    have standard : session.slot.current.rename = (⟨none, none⟩ : RenameSettings).resolve.1 := by
      rw [empty]
      rfl
    rw [Session.compile, standard]
    exact c.compile_congr (RenameSettings.alike_resolve _)

theorem RenameSettings.meaning_kept_when_set :
    let given : RenameSettings := ⟨none, some "t\x7bn\x7d"⟩
    let reader (_ : String) : Option Config := none
    let set := Session.start.step reader (.setConfig ⟨given⟩)
    set.2 = .loaded (.ok ⟨⟨some true, some "t\x7bn\x7d"⟩⟩) ∧
      ∀ c : Chain, (set.1.run reader [.get, .save .standard, .new]).1.compile c = c.compile given := by
  intro given reader set
  have accepted : set.2 = .loaded (.ok ⟨⟨some true, some "t\x7bn\x7d"⟩⟩) := by
    have checked : given.filled.check = .ok () := RenameSettings.check_eq_ok.mpr ⟨by decide, by decide⟩
    have resolved : (⟨given⟩ : Config).resolved = .ok ⟨given.filled⟩ :=
      Config.resolved_eq_ok.mpr (Prod.ext (Config.resolve_fst _) (Config.resolve_snd_eq_ok.mpr checked))
    simp only [set, Session.step, ConfigSlot.install, resolved]
    rfl
  have keep : ∀ call ∈ [SessionStep.get, .save .standard, .new], call.KeepsSlot := by
    simp [SessionStep.KeepsSlot, SessionStep.installs]
  obtain ⟨-, -, -, -, -, -, later, -⟩ := resolving_keeps_meaning given
  exact ⟨accepted, later reader Session.start _ _ accepted keep⟩

/-- The defaults stay when the template is refused. -/
example : (⟨none, some "nope"⟩ : RenameSettings).resolve =
    (⟨some true, some "nope"⟩, .error (.withoutCounter "nope")) := by
  rfl

end SqlSelect
