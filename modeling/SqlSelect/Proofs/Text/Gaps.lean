import SqlSelect.Text.Basic
/-!
Replacement as joining. The value stands between the parts of the text that replacement leaves, so a
text in which the pattern occurs gives different results for different values.
-/

namespace SqlSelect.Substitute

/-- The parts of a text between the occurrences that a scan replaces. -/
def gaps (pattern : List Char) (skip : Nat) : List Char → List (List Char)
  | [] => [[]]
  | c :: text =>
    match skip with
    | k + 1 => gaps pattern k text
    | 0 =>
      match after? pattern (c :: text) with
      | some _ => [] :: gaps pattern (pattern.length - 1) text
      | none => (gaps pattern 0 text).modifyHead (c :: ·)

theorem intercalate_modifyHead (value : List Char) (c : Char) {parts : List (List Char)}
    (h : parts ≠ []) : value.intercalate (parts.modifyHead (c :: ·)) = c :: value.intercalate parts := by
  rcases parts with _ | ⟨first, _ | ⟨second, rest⟩⟩
  · exact (h rfl).elim
  · simp
  · simp

theorem gaps_ne_nil (pattern : List Char) (skip : Nat) (text : List Char) : gaps pattern skip text ≠ [] := by
  induction text generalizing skip with
  | nil => simp [gaps]
  | cons c text ih =>
    cases skip with
    | succ k => exact ih k
    | zero => cases h : after? pattern (c :: text) <;> simp [gaps, h, ih]

theorem scan_eq_intercalate (pattern value : List Char) (skip : Nat) (text : List Char) :
    scan pattern value skip text = value.intercalate (gaps pattern skip text) := by
  induction text generalizing skip with
  | nil => simp [scan, gaps]
  | cons c text ih =>
    cases skip with
    | succ k => exact ih k
    | zero =>
      cases h : after? pattern (c :: text) with
      | some rest => simp [scan, gaps, h, ih, List.intercalate_cons_of_ne_nil (gaps_ne_nil _ _ _)]
      | none => simp [scan, gaps, h, ih, intercalate_modifyHead _ _ (gaps_ne_nil _ _ _)]

/-- Where the pattern occurs, there is something on either side of it. -/
theorem two_le_length_gaps {pattern text : List Char} (hp : pattern ≠ []) (h : occurs pattern text = true) :
    2 ≤ (gaps pattern 0 text).length := by
  induction text with
  | nil => simp [occurs, hp] at h
  | cons c text ih =>
    cases found : after? pattern (c :: text) with
    | some rest =>
      have := List.length_pos_iff.mpr (gaps_ne_nil pattern (pattern.length - 1) text)
      simp [gaps, found]
      omega
    | none =>
      have later : occurs pattern text = true := by simpa [occurs, found] using h
      simpa [gaps, found] using ih later

theorem length_intercalate (value first second : List Char) (rest : List (List Char)) :
    (value.intercalate (first :: second :: rest)).length =
      (first :: second :: rest).flatten.length + (rest.length + 1) * value.length := by
  induction rest generalizing first second with
  | nil => simp; omega
  | cons third rest ih =>
    rw [List.intercalate_cons_cons, List.length_append, List.length_append, ih]
    simp only [List.flatten_cons, List.length_append, List.length_cons]
    rw [Nat.add_mul (rest.length + 1) 1]
    omega

theorem intercalate_injective {value other : List Char} {parts : List (List Char)} (h : 2 ≤ parts.length)
    (same : value.intercalate parts = other.intercalate parts) : value = other := by
  obtain ⟨first, second, rest, rfl⟩ : ∃ first second rest, parts = first :: second :: rest := by
    rcases parts with _ | ⟨first, _ | ⟨second, rest⟩⟩
    · simp at h
    · simp at h
    · exact ⟨first, second, rest, rfl⟩
  have length : value.length = other.length := by
    have lengths := congrArg List.length same
    rw [length_intercalate, length_intercalate] at lengths
    exact Nat.eq_of_mul_eq_mul_left (Nat.succ_pos rest.length) (Nat.add_left_cancel lengths)
  simp only [List.intercalate_cons_cons, List.append_assoc, List.append_cancel_left_eq] at same
  exact (List.append_inj same length).1

/-- Different values replaced for a pattern that occurs give different texts. -/
theorem scan_injective {pattern value other text : List Char} (hp : pattern ≠ [])
    (found : occurs pattern text = true)
    (same : scan pattern value 0 text = scan pattern other 0 text) : value = other := by
  rw [scan_eq_intercalate, scan_eq_intercalate] at same
  exact intercalate_injective (two_le_length_gaps hp found) same

/-! ## Occurrences -/

theorem after?_eq_some {pattern text rest : List Char} :
    after? pattern text = some rest ↔ text = pattern ++ rest := by
  induction pattern generalizing text with
  | nil => simp [after?]
  | cons p pattern ih =>
    cases text with
    | nil => simp [after?]
    | cons c text =>
      by_cases h : p = c
      · simp [after?, h, ih]
      · simp [after?, h, Ne.symm h]

theorem occurs_append {pattern text : List Char} (value : List Char) (h : occurs pattern text = true) :
    occurs pattern (value ++ text) = true := by
  induction value with
  | nil => exact h
  | cons c value ih => simp [occurs, ih]

/-- A text without the pattern's first character stays as it is. -/
theorem scan_append_of_not_mem {p : Char} {text : List Char} (pattern : List Char)
    (hp : pattern.head? = some p) (h : p ∉ text) (value later : List Char) :
    scan pattern value 0 (text ++ later) = text ++ scan pattern value 0 later := by
  obtain ⟨pattern, rfl⟩ := List.head?_eq_some_iff.mp hp
  induction text with
  | nil => rfl
  | cons c text ih =>
    simp only [List.mem_cons, not_or] at h
    simp [scan, after?, h.1, ih h.2]

/-- A character of a text is one of the pattern, or it stays when the pattern is replaced. -/
theorem mem_scan (pattern : List Char) (hp : pattern ≠ []) (value : List Char) (skip : Nat)
    {text : List Char} {c : Char} (h : c ∈ text.drop skip) :
    c ∈ pattern ∨ c ∈ scan pattern value skip text := by
  induction text generalizing skip with
  | nil => simp at h
  | cons d text ih =>
    cases skip with
    | succ k => exact ih k h
    | zero =>
      rw [List.drop_zero] at h
      cases found : after? pattern (d :: text) with
      | none =>
        simp only [scan, found]
        rcases List.mem_cons.mp h with rfl | later
        · exact .inr List.mem_cons_self
        · exact (ih 0 later).imp_right (List.mem_cons_of_mem d)
      | some rest =>
        have split := after?_eq_some.mp found
        simp only [scan, found]
        rw [split] at h
        rcases List.mem_append.mp h with inside | later
        · exact .inl inside
        · obtain ⟨p, pattern, rfl⟩ := List.exists_cons_of_ne_nil hp
          have rest_eq : text.drop pattern.length = rest := by
            rw [(List.cons.inj split).2]
            exact List.drop_left
          rw [← rest_eq] at later
          exact (ih _ later).imp_right (List.mem_append_right value)

theorem mem_replace {pattern : String} (hp : pattern.toList ≠ []) (value : String) {text : String} {c : Char}
    (h : c ∈ text.toList) : c ∈ pattern.toList ∨ c ∈ (replace pattern value text).toList := by
  rw [replace, String.toList_ofList]
  exact mem_scan pattern.toList hp value.toList 0 h

end SqlSelect.Substitute
