import SqlSelect.Text.Basic
/-!
Reading text literals. What is read from a literal is exactly what doubling its quotes writes there, and the
literal ends at the first quote that has no other one beside it.
-/

namespace SqlSelect.Quoted

theorem readBody_cons {c : Char} (other : c ≠ mark) (text : List Char) :
    readBody (c :: text) = (readBody text).map fun (value, rest) => (c :: value, rest) := by
  cases text <;> simp [readBody, other]

theorem readBody_doubled (text : List Char) :
    readBody (mark :: mark :: text) = (readBody text).map fun (value, rest) => (mark :: value, rest) := by
  simp [readBody]

theorem readBody_end {rest : List Char} (ends : rest.head? ≠ some mark) :
    readBody (mark :: rest) = some ([], rest) := by
  cases rest with
  | nil => simp [readBody]
  | cons d rest =>
    have other : d ≠ mark := fun same => ends (congrArg some same)
    simp [readBody, other]

theorem readBody_double (value : List Char) {rest : List Char} (ends : rest.head? ≠ some mark) :
    readBody (double value ++ mark :: rest) = some (value, rest) := by
  induction value with
  | nil => exact readBody_end ends
  | cons c value ih =>
    by_cases quote : c = mark
    · simp only [double, quote, if_true, List.cons_append, readBody_doubled, ih, Option.map_some]
    · simp only [double, quote, if_false, List.cons_append, readBody_cons quote, ih, Option.map_some]

/-- Only doubled quotes and other characters stand before the quote that ends a literal. -/
theorem eq_double_of_readBody {text value rest : List Char} (h : readBody text = some (value, rest)) :
    text = double value ++ mark :: rest ∧ rest.head? ≠ some mark := by
  fun_induction readBody text generalizing value rest with
  | case1 => exact nomatch h
  | case2 more ih =>
    obtain ⟨⟨inner, left⟩, read, same⟩ := Option.map_eq_some_iff.mp h
    obtain ⟨rfl, rfl⟩ := Prod.mk.inj same
    obtain ⟨split, ends⟩ := ih read
    exact ⟨by simp [double, split], ends⟩
  | case3 d more other =>
    obtain ⟨rfl, rfl⟩ := Prod.mk.inj (Option.some.inj h)
    exact ⟨rfl, fun quote => other (Option.some.inj quote)⟩
  | case4 =>
    obtain ⟨rfl, rfl⟩ := Prod.mk.inj (Option.some.inj h)
    exact ⟨rfl, nofun⟩
  | case5 c text other ih =>
    obtain ⟨⟨inner, left⟩, read, same⟩ := Option.map_eq_some_iff.mp h
    obtain ⟨rfl, rfl⟩ := Prod.mk.inj same
    obtain ⟨split, ends⟩ := ih read
    exact ⟨by simp [double, other, split], ends⟩

/-- The text between two quotes is one literal with a value just if it is that value with its quotes doubled. -/
theorem read?_between (body value : List Char) :
    read? (mark :: body ++ [mark]) = some (value, []) ↔ body = double value := by
  have first : read? (mark :: body ++ [mark]) = readBody (body ++ [mark]) := by simp [read?]
  rw [first]
  constructor
  · intro h
    exact List.append_cancel_right (eq_double_of_readBody h).1
  · rintro rfl
    exact readBody_double value nofun

theorem toList_literal (text : String) : (literal text).toList = mark :: double text.toList ++ [mark] := by
  rw [literal, String.toList_ofList]

/-- A reader of a literal gets its text and resumes behind it, unless the text goes on with a quote. -/
theorem read?_literal_append (text : String) (rest : List Char) :
    read? ((literal text).toList ++ rest) = some (text.toList, rest) ↔ rest.head? ≠ some mark := by
  have inside : read? ((literal text).toList ++ rest) = readBody (double text.toList ++ mark :: rest) := by
    simp [toList_literal, read?]
  rw [inside]
  constructor
  · intro read
    exact (eq_double_of_readBody read).2
  · intro ends
    exact readBody_double text.toList ends

theorem length_double (value : List Char) : (double value).length = value.length + value.count mark := by
  induction value with
  | nil => rfl
  | cons c value ih =>
    by_cases quote : c = mark
    · simp only [double, quote, if_true, List.length_cons, ih, List.count_cons_self]
      omega
    · simp only [double, quote, if_false, List.length_cons, ih, List.count_cons_of_ne quote]
      omega

theorem double_of_not_mem {value : List Char} (h : mark ∉ value) : double value = value := by
  induction value with
  | nil => rfl
  | cons c value ih =>
    obtain ⟨differs, later⟩ := not_or.mp (mt List.mem_cons.mpr h)
    rw [double, if_neg (Ne.symm differs), ih later]

/-- A text is written as it is just if no quote is in it. -/
theorem double_eq_self_iff (value : List Char) : double value = value ↔ mark ∉ value := by
  constructor
  · intro same member
    have lengths := congrArg List.length same
    have occurs := List.count_pos_iff.mpr member
    rw [length_double] at lengths
    omega
  · exact double_of_not_mem

end SqlSelect.Quoted
