import SqlSelect.Text.Basic
/-!
The characters of a class at the front of a text, and the text after them. Trimming takes white space from both ends
and nothing else, and stops at the first character that is not white.
-/

namespace SqlSelect

namespace Span

/-- The text does not begin with a character of the class. -/
def Stops (p : Char → Bool) (text : List Char) : Prop :=
  ∀ c ∈ text.head?, p c = false

variable {p : Char → Bool} {front rest : List Char}

theorem stops_nil : Stops p [] :=
  fun _ inside => nomatch inside

theorem stops_cons {c : Char} (h : p c = false) (rest : List Char) : Stops p (c :: rest) := by
  rintro d ⟨⟩
  exact h

theorem takeWhile_append (all : ∀ c ∈ front, p c = true) (stops : Stops p rest) :
    (front ++ rest).takeWhile p = front := by
  rw [List.takeWhile_append_of_pos all]
  cases rest with
  | nil => simp
  | cons c rest => rw [List.takeWhile_cons_of_neg (by simp [stops c rfl]), List.append_nil]

theorem dropWhile_append (all : ∀ c ∈ front, p c = true) (stops : Stops p rest) :
    (front ++ rest).dropWhile p = rest := by
  rw [List.dropWhile_append_of_pos all]
  cases rest with
  | nil => simp
  | cons c rest => rw [List.dropWhile_cons_of_neg (by simp [stops c rfl])]

end Span

namespace Blank

variable {before text after : List Char}

/-- What trimming removes is white. -/
theorem exists_trim (text : List Char) : ∃ before after, text = before ++ trim text ++ after ∧
    (∀ c ∈ before, isBlank c = true) ∧ ∀ c ∈ after, isBlank c = true := by
  let kept := text.dropWhile isBlank
  refine ⟨text.takeWhile isBlank, (kept.reverse.takeWhile isBlank).reverse, ?_, ?_, ?_⟩
  · have back : trim text ++ (kept.reverse.takeWhile isBlank).reverse = kept := by
      rw [trim, ← List.reverse_append, List.takeWhile_append_dropWhile, List.reverse_reverse]
    rw [List.append_assoc, back]
    exact List.takeWhile_append_dropWhile.symm
  · intro c member
    exact List.all_eq_true.mp List.all_takeWhile c member
  · intro c member
    exact List.all_eq_true.mp List.all_takeWhile c (List.mem_reverse.mp member)

/-- White space is trimmed from both sides of a text that has none at its own ends. -/
theorem trim_append (front : ∀ c ∈ before, isBlank c = true) (back : ∀ c ∈ after, isBlank c = true)
    (inside : text ≠ []) (starts : Span.Stops isBlank text) (ends : Span.Stops isBlank text.reverse) :
    trim (before ++ text ++ after) = text := by
  have starts' : Span.Stops isBlank (text ++ after) := by
    obtain ⟨c, rest, rfl⟩ := List.exists_cons_of_ne_nil inside
    exact starts
  have behind : ∀ c ∈ after.reverse, isBlank c = true := fun c member => back c (List.mem_reverse.mp member)
  rw [trim, List.append_assoc, Span.dropWhile_append front starts', List.reverse_append,
    Span.dropWhile_append behind ends, List.reverse_reverse]

end Blank

end SqlSelect
