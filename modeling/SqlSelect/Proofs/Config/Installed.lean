import SqlSelect.Config.Session
import SqlSelect.Proofs.Rename.Aliases
/-!
The installed configuration over a whole session. Every way into the slot goes through resolving, so what
is installed, and what a call hands out, resolves to itself.
-/

namespace SqlSelect

namespace Config

/-- Both settings are present, and resolving accepts them and changes nothing. -/
structure IsResolved (c : Config) : Prop where
  auto : c.rename.auto?.isSome = true
  template : c.rename.template?.isSome = true
  fixed : c.resolve = (c, .ok ())

theorem resolve_fst (c : Config) : c.resolve.1 = ⟨c.rename.filled⟩ := by
  unfold resolve RenameSettings.resolve
  cases c.rename.filled.check <;> rfl

theorem resolve_snd_eq_ok {c : Config} : c.resolve.2 = .ok () ↔ c.rename.filled.check = .ok () := by
  unfold resolve RenameSettings.resolve
  cases c.rename.filled.check <;> simp

theorem resolved_eq_ok {c d : Config} : c.resolved = .ok d ↔ c.resolve = (d, .ok ()) := by
  unfold resolved
  rcases c.resolve with ⟨filled, _ | _⟩ <;> simp

/-- Resolving is idempotent: the defaults are filled in before the check. -/
theorem isResolved_of_resolve {c d : Config} (h : c.resolve = (d, .ok ())) : d.IsResolved := by
  have filled : d = ⟨c.rename.filled⟩ := by rw [← resolve_fst, h]
  have accepted : c.rename.filled.check = .ok () := resolve_snd_eq_ok.mp (by rw [h])
  subst filled
  exact ⟨rfl, rfl, Prod.ext (resolve_fst _) (resolve_snd_eq_ok.mpr accepted)⟩

theorem isResolved_of_resolved {c d : Config} (h : c.resolved = .ok d) : d.IsResolved :=
  isResolved_of_resolve (resolved_eq_ok.mp h)

theorem isResolved_standard : standard.IsResolved := by
  have accepted : standard.rename.filled.check = .ok () := RenameSettings.check_eq_ok.mpr ⟨by decide, by decide⟩
  have resolved : standard.resolve = (standard, .ok ()) :=
    Prod.ext (resolve_fst standard) (resolve_snd_eq_ok.mpr accepted)
  exact isResolved_of_resolve resolved

end Config

namespace ConfigSlot

/-- What is installed, if anything is, is resolved. -/
def IsResolved (slot : ConfigSlot) : Prop :=
  ∀ c, slot = some c → c.IsResolved

theorem isResolved_empty : IsResolved none :=
  fun _ found => nomatch found

/-- An empty slot stands for the standard configuration. -/
theorem IsResolved.current {slot : ConfigSlot} (h : slot.IsResolved) : slot.current.IsResolved := by
  cases slot with
  | none => exact Config.isResolved_standard
  | some c => exact h c rfl

end ConfigSlot

namespace SessionAnswer

/-- The configuration that an answer hands out is resolved. -/
def IsResolved : SessionAnswer → Prop
  | .current c => c.IsResolved
  | .loaded (.ok c) => c.IsResolved
  | .loaded (.error _) | .silent | .content _ | .stored _ | .created _ => True

end SessionAnswer

namespace SessionStep

/-- The calls that put a configuration into the slot. -/
def installs : SessionStep → Bool
  | .init | .setConfig _ => true
  | _ => false

end SessionStep

namespace Session

variable (reader : String → Option Config)

theorem isResolved_of_load {s : Session} {path : String} {c : Config} (h : s.load reader path = .ok c) :
    c.IsResolved := by
  unfold load at h
  split at h
  · exact Config.isResolved_of_resolved h
  · contradiction
  · split at h
    · contradiction
    · split at h
      · contradiction
      · exact Config.isResolved_of_resolved h

theorem slot_store (s : Session) (path text : String) : (s.store path text).1.slot = s.slot := by
  unfold store
  split <;> rfl

theorem slot_generateAt (s : Session) (path : String) : (s.generateAt path).1.slot = s.slot := by
  unfold generateAt
  split
  · rfl
  · split
    · rfl
    · exact s.slot_store path _

/-- All that a call can do to the slot: to clear it, to install a resolved configuration and answer with
it, or nothing, which is what a call that was to install answers with an error. -/
theorem step_slot (s : Session) (call : SessionStep) :
    let r := s.step reader call
    (call = .reset ∧ r.1.slot = none) ∨
      (call.installs = true ∧ ∃ c : Config, c.IsResolved ∧ r.2 = .loaded (.ok c) ∧ r.1.slot = some c) ∨
      (r.1.slot = s.slot ∧ (call.installs = true → ∃ e, r.2 = .loaded (.error e))) := by
  intro r
  have untouched (kept : r.1.slot = s.slot) (plain : call.installs = false) :
      r.1.slot = s.slot ∧ (call.installs = true → ∃ e, r.2 = .loaded (.error e)) :=
    ⟨kept, by simp [plain]⟩
  cases call with
  | reset => exact .inl ⟨rfl, rfl⟩
  | init =>
    cases loaded : s.load reader s.location with
    | ok c =>
      have installed : r = ({ s with slot := some c }, .loaded (.ok c)) := by simp [r, step, loaded]
      rw [installed]
      exact .inr (.inl ⟨rfl, c, isResolved_of_load reader loaded, rfl, rfl⟩)
    | error e =>
      have refused : r = (s, .loaded (.error e)) := by simp [r, step, loaded]
      rw [refused]
      exact .inr (.inr ⟨rfl, fun _ => ⟨e, rfl⟩⟩)
  | setConfig c =>
    cases resolved : c.resolved with
    | ok d =>
      have installed : r = ({ s with slot := some d }, .loaded (.ok d)) := by
        simp [r, step, ConfigSlot.install, resolved]
      rw [installed]
      exact .inr (.inl ⟨rfl, d, Config.isResolved_of_resolved resolved, rfl, rfl⟩)
    | error e =>
      have refused : r = (s, .loaded (.error e)) := by simp [r, step, ConfigSlot.install, resolved]
      rw [refused]
      exact .inr (.inr ⟨rfl, fun _ => ⟨e, rfl⟩⟩)
  | save c => exact .inr (.inr (untouched (s.slot_store s.location c.toToml) rfl))
  | saveTo path c => exact .inr (.inr (untouched (s.slot_store path c.toToml) rfl))
  | generate => exact .inr (.inr (untouched (s.slot_generateAt s.location) rfl))
  | generateAt path => exact .inr (.inr (untouched (s.slot_generateAt path) rfl))
  | write | makeDirectory | setPath | read | get | new | fromPath => exact .inr (.inr (untouched rfl rfl))

theorem step_slot_isResolved {s : Session} (h : s.slot.IsResolved) (call : SessionStep) :
    (s.step reader call).1.slot.IsResolved := by
  intro c installed
  rcases step_slot reader s call with ⟨-, cleared⟩ | ⟨-, d, resolved, -, put⟩ | ⟨kept, -⟩
  · exact nomatch cleared.symm.trans installed
  · obtain rfl : d = c := Option.some.inj (put.symm.trans installed)
    exact resolved
  · exact h c (kept.symm.trans installed)

theorem step_answer_isResolved {s : Session} (h : s.slot.IsResolved) (call : SessionStep) :
    (s.step reader call).2.IsResolved := by
  have loaded (path : String) : (SessionAnswer.loaded (s.load reader path)).IsResolved := by
    cases result : s.load reader path with
    | ok c => exact isResolved_of_load reader result
    | error e => trivial
  rcases step_slot reader s call with ⟨rfl, -⟩ | ⟨-, c, resolved, answered, -⟩ | ⟨-, refused⟩
  · trivial
  · rw [answered]
    exact resolved
  · cases call with
    | init | setConfig c =>
      obtain ⟨e, answered⟩ := refused rfl
      rw [answered]
      trivial
    | get => exact h.current
    | new => exact loaded s.location
    | fromPath path => exact loaded path
    | _ => trivial

/-- A session keeps the slot resolved, and answers with resolved configurations only. -/
theorem run_isResolved (calls : List SessionStep) {s : Session} (h : s.slot.IsResolved) :
    (s.run reader calls).1.slot.IsResolved ∧
      ∀ answer ∈ (s.run reader calls).2, answer.IsResolved := by
  induction calls generalizing s with
  | nil => exact ⟨h, fun _ found => nomatch found⟩
  | cons call rest ih =>
    obtain ⟨slot, answers⟩ := ih (step_slot_isResolved reader h call)
    refine ⟨slot, fun answer member => ?_⟩
    rcases List.mem_cons.mp member with rfl | later
    · exact step_answer_isResolved reader h call
    · exact answers answer later

/-- After any calls from an empty slot, the installed configuration, the current one and all those handed
out are resolved; the next call changes the slot by clearing it or by installing what it answers with, and
a failure leaves the slot. -/
theorem installed_is_resolved (files : FileTree) (location : String) (calls : List SessionStep) :
    let r := (⟨files, location, none⟩ : Session).run reader calls
    r.1.slot.IsResolved ∧ (∃ c : Config, r.1.step reader .get = (r.1, .current c) ∧ c.IsResolved) ∧
      (∀ answer ∈ r.2, answer.IsResolved) ∧
      ∀ call, let next := r.1.step reader call
        next.1.slot.IsResolved ∧ next.2.IsResolved ∧
        (next.1.slot ≠ r.1.slot → call.installs = true ∨ call = .reset) ∧
        (call.installs = true →
          (∃ c, next.2 = .loaded (.ok c) ∧ next.1.slot = some c) ∨
            ∃ e, next.2 = .loaded (.error e) ∧ next.1.slot = r.1.slot) := by
  intro r
  obtain ⟨slot, answers⟩ : r.1.slot.IsResolved ∧ ∀ answer ∈ r.2, answer.IsResolved :=
    run_isResolved reader calls ConfigSlot.isResolved_empty
  refine ⟨slot, ⟨_, rfl, slot.current⟩, answers, fun call => ?_⟩
  refine ⟨step_slot_isResolved reader slot call, step_answer_isResolved reader slot call, ?_, ?_⟩
  · intro changed
    rcases step_slot reader r.1 call with ⟨cleared, -⟩ | ⟨installs, -⟩ | ⟨kept, -⟩
    · exact .inr cleared
    · exact .inl installs
    · exact (changed kept).elim
  · intro installs
    rcases step_slot reader r.1 call with ⟨rfl, -⟩ | ⟨-, c, -, answered, put⟩ | ⟨kept, refused⟩
    · contradiction
    · exact .inl ⟨c, answered, put⟩
    · obtain ⟨e, answered⟩ := refused installs
      exact .inr ⟨e, answered, kept⟩

end Session

end SqlSelect
