import SqlSelect.Config.Files
/-!
A file that was written is read back, since writing it changes nothing on the way to it.
-/

namespace SqlSelect.FileTree

theorem node?_put {t : FileTree} {target place : List String} (node : FileNode) (other : place ≠ target) :
    (t.put target node).node? place = t.node? place := by
  simp [node?, put, List.lookup_cons, beq_eq_false_iff_ne.mpr other]

theorem node?_put_self {t : FileTree} {target : List String} (node : FileNode) (below : target ≠ []) :
    (t.put target node).node? target = some node := by
  simp [node?, put, below]

/-- Names lead through directories only, so what is put where no directory stands changes no way. -/
theorem follow_put {t : FileTree} {target : List String} (free : t.node? target ≠ some .directory)
    (node : FileNode) {place found : List String} {names : List String} (h : t.follow place names = .ok found) :
    (t.put target node).follow place names = .ok found := by
  induction names generalizing place with
  | nil => exact h
  | cons name rest ih =>
    unfold follow at h ⊢
    cases here : t.node? place with
    | none => simp [here] at h
    | some stands =>
      cases stands with
      | file bytes => simp [here] at h
      | directory =>
        have other : place ≠ target := by
          rintro rfl
          exact free here
        rw [node?_put node other, here]
        simp only [here] at h
        dsimp only
        split at h
        · rw [if_pos ‹_›]
          exact ih h
        · rw [if_neg ‹_›]
          split at h
          · contradiction
          · rw [if_neg ‹_›]
            exact ih h

theorem read_put? {t stored : FileTree} {p : FilePath} {bytes : List UInt8} (h : t.put? p bytes = .ok stored) :
    stored.read p = .ok bytes := by
  unfold put? at h
  cases placed : t.place p with
  | error e => simp [placed] at h
  | ok target =>
    simp only [placed] at h
    split at h
    · contradiction
    · rename_i free
      obtain rfl := Except.ok.inj h
      have file : p.toDirectory = false ∧ t.node? target ≠ some .directory := by
        simpa using free
      have below : target ≠ [] := by
        rintro rfl
        exact file.2 rfl
      have same : (t.put target (.file bytes)).place p = .ok target := by
        unfold place at placed ⊢
        split at placed
        · rw [if_pos ‹_›]
          exact follow_put file.2 _ placed
        · contradiction
      simp [read, find, same, node?_put_self _ below, file.1]

/-- A file that was written is read as what was written. -/
theorem read_write {t : FileTree} {p : FilePath} {bytes : List UInt8} (h : (t.write p bytes).2 = .ok ()) :
    (t.write p bytes).1.read p = .ok bytes := by
  unfold write at h ⊢
  rcases made : t.makeDirectory p.parent with ⟨parent, ⟨⟩ | ⟨⟩⟩
  · simp [made] at h
  · simp only [made] at h ⊢
    cases stored : parent.put? p bytes with
    | error e => simp [stored] at h
    | ok t => exact read_put? stored

end SqlSelect.FileTree
