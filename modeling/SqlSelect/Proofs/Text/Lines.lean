import SqlSelect.Text.Basic
/-!
Lines of a text. Every line feed ends one, with the carriage return before it, and only an unfinished last line
that is not empty is a line as well.
-/

namespace SqlSelect.Lines

/-- How a text is split into lines. -/
inductive IsSplit : List Char → List (List Char) → Prop where
  | none : IsSplit [] []
  | unfinished {line : List Char} : line ≠ [] → '\n' ∉ line → IsSplit line [line]
  | feed {line rest : List Char} {lines : List (List Char)} :
    '\n' ∉ line → line.getLast? ≠ some '\r' → IsSplit rest lines → IsSplit (line ++ '\n' :: rest) (line :: lines)
  | carriage {line rest : List Char} {lines : List (List Char)} :
    '\n' ∉ line → IsSplit rest lines → IsSplit (line ++ '\r' :: '\n' :: rest) (line :: lines)

theorem finish_carriage (line : List Char) : finish (line ++ ['\r']) = line := by
  simp [finish]

theorem finish_of_getLast? {line : List Char} (other : line.getLast? ≠ some '\r') : finish line = line := by
  unfold finish
  split
  · rename_i reversed
    rw [← List.head?_reverse, reversed] at other
    exact (other rfl).elim
  · rfl

theorem isSplit_splitFrom (begun text : List Char) (solid : '\n' ∉ begun) :
    IsSplit (begun ++ text) (splitFrom begun text) := by
  induction text generalizing begun with
  | nil =>
    rw [List.append_nil, splitFrom]
    cases begun with
    | nil => exact .none
    | cons c line => exact .unfinished (List.cons_ne_nil c line) solid
  | cons c rest ih =>
    rw [splitFrom]
    split
    · rename_i feed
      subst feed
      have later := ih [] List.not_mem_nil
      by_cases carriage : begun.getLast? = some '\r'
      · obtain ⟨line, rfl⟩ := List.getLast?_eq_some_iff.mp carriage
        rw [finish_carriage, List.append_assoc, List.singleton_append]
        exact .carriage (fun inside => solid (List.mem_append_left _ inside)) later
      · rw [finish_of_getLast? carriage]
        exact .feed solid carriage later
    · rename_i other
      have solid' : '\n' ∉ begun ++ [c] := by simp [solid, Ne.symm other]
      have later := ih (begun ++ [c]) solid'
      rwa [List.append_assoc, List.singleton_append] at later

theorem isSplit (text : List Char) : IsSplit text (splitFrom [] text) :=
  isSplit_splitFrom [] text List.not_mem_nil

theorem IsSplit.not_mem {text : List Char} {lines : List (List Char)} (h : IsSplit text lines) {line : List Char}
    (member : line ∈ lines) : '\n' ∉ line := by
  induction h with
  | none => simp at member
  | unfinished _ solid => rwa [List.mem_singleton.mp member]
  | feed solid _ _ ih | carriage solid _ ih =>
    rcases List.mem_cons.mp member with rfl | later
    · exact solid
    · exact ih later

theorem IsSplit.mem {text : List Char} {lines : List (List Char)} (h : IsSplit text lines) {line : List Char}
    (member : line ∈ lines) {c : Char} (inside : c ∈ line) : c ∈ text := by
  induction h with
  | none => simp at member
  | unfinished _ _ => rwa [List.mem_singleton.mp member] at inside
  | feed _ _ _ ih | carriage _ _ ih =>
    rcases List.mem_cons.mp member with rfl | later
    · exact List.mem_append_left _ inside
    · simp [ih later]

end SqlSelect.Lines
