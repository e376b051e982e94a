import SqlSelect.Proofs.Toml.Outline
import SqlSelect.Toml.Writer
/-!
Values as they are written: truth values, and strings that need no escape, are read as what they were.
-/

namespace SqlSelect.Toml

namespace Writer

/-- The characters that stand for themselves in a basic string. -/
def isUnescaped (c : Char) : Bool :=
  !isControl c && c != '\\' && c != Strings.basicMark

theorem isUnescaped_iff {c : Char} :
    isUnescaped c = true ↔ isControl c = false ∧ c ≠ '\\' ∧ c ≠ Strings.basicMark := by
  simp [isUnescaped, and_assoc]

theorem isInline_of_isUnescaped {c : Char} (h : isUnescaped c = true) : Strings.isInline c = true := by
  have visible := (isUnescaped_iff.mp h).1
  simp only [isControl, Bool.or_eq_false_iff, decide_eq_false_iff_not, Char.not_lt] at visible
  simp [Strings.isInline, visible.1, bne, visible.2]

theorem escaped_of_isUnescaped {c : Char} (h : isUnescaped c = true) (quotes : Nat) :
    escaped false quotes c = [c] := by
  obtain ⟨visible, backslash, quote⟩ := isUnescaped_iff.mp h
  unfold escaped
  split
  · exact absurd visible (by decide)
  · exact absurd visible (by decide)
  · exact absurd visible (by decide)
  · exact (backslash rfl).elim
  · exact (quote rfl).elim
  · rw [if_neg, if_neg, if_neg (by simp [visible])]
    · rintro rfl
      exact absurd visible (by decide)
    · rintro rfl
      exact absurd visible (by decide)

theorem escapedAll_of_isUnescaped {text : List Char} (h : ∀ c ∈ text, isUnescaped c = true) (quotes : Nat) :
    escapedAll false quotes text = text := by
  induction text generalizing quotes with
  | nil => rfl
  | cons c text ih =>
    obtain ⟨first, others⟩ := List.forall_mem_cons.mp h
    rw [escapedAll, escaped_of_isUnescaped first, ih others, List.singleton_append]

theorem longestRun_eq_zero {mark : Char} {text : List Char} (h : mark ∉ text) : longestRun mark 0 text = 0 := by
  induction text with
  | nil => rfl
  | cons c text ih =>
    have first : c ≠ mark := fun same => h (same ▸ List.mem_cons_self)
    have others : mark ∉ text := fun later => h (List.mem_cons_of_mem c later)
    rw [longestRun, if_neg first, ih others, Nat.max_self]

theorem form_of_isUnescaped {text : List Char} (h : ∀ c ∈ text, isUnescaped c = true) : form text = .basic := by
  have absent (c : Char) (escape : isUnescaped c = false) : c ∉ text := fun member =>
    Bool.noConfusion ((h c member).symm.trans escape)
  have codes : needsCodes text = false := by
    simp only [needsCodes, List.any_eq_false]
    intro c member
    simp [(isUnescaped_iff.mp (h c member)).1]
  simp [form, codes, absent '\\' (by decide), absent '\n' (by decide),
    longestRun_eq_zero (absent Strings.basicMark (by decide))]

theorem string_of_isUnescaped {text : String} (h : ∀ c ∈ text.toList, isUnescaped c = true) :
    string text = String.ofList (Strings.basicMark :: text.toList ++ [Strings.basicMark]) := by
  simp only [string, form_of_isUnescaped h, escapedAll_of_isUnescaped h]

end Writer

namespace Strings

theorem basic?_of_isUnescaped {text : List Char} (h : ∀ c ∈ text, Writer.isUnescaped c = true)
    (rest : List Char) {fuel : Nat} (enough : text.length < fuel) :
    basic? fuel (text ++ basicMark :: rest) = some (text, rest) := by
  induction text generalizing fuel with
  | nil =>
    obtain ⟨fuel, rfl⟩ := Nat.exists_eq_succ_of_ne_zero (Nat.ne_of_gt enough)
    simp [basic?]
  | cons c text ih =>
    obtain ⟨fuel, rfl⟩ := Nat.exists_eq_succ_of_ne_zero (Nat.ne_of_gt (Nat.zero_lt_of_lt enough))
    obtain ⟨first, others⟩ := List.forall_mem_cons.mp h
    obtain ⟨-, backslash, quote⟩ := Writer.isUnescaped_iff.mp first
    rw [List.cons_append, basic?, if_neg quote, if_neg backslash, if_pos (Writer.isInline_of_isUnescaped first),
      ih others (Nat.lt_of_succ_lt_succ enough), push]

/-- Quotes around a text without quotes open no string over several lines, unless a third follows. -/
theorem read?_of_isUnescaped {text : List Char} (h : ∀ c ∈ text, Writer.isUnescaped c = true)
    (stop : Char) (last : stop ≠ basicMark) (rest : List Char) :
    read? (basicMark :: (text ++ basicMark :: stop :: rest)) = some (text, stop :: rest) := by
  have short : short? (basicMark :: (text ++ basicMark :: stop :: rest)) = some (text, stop :: rest) := by
    rw [short?, if_pos rfl]
    exact basic?_of_isUnescaped h _ (by rw [List.length_append, List.length_cons]; omega)
  cases text with
  | nil =>
    rw [← short, List.nil_append, read?, if_neg, if_neg]
    · exact fun triple => last triple.2.1.symm
    · exact fun triple => last triple.2.1.symm
  | cons c text =>
    have apart : basicMark ≠ c := (Writer.isUnescaped_iff.mp (h c List.mem_cons_self)).2.2.symm
    obtain ⟨d, more, split⟩ : ∃ d more, text ++ basicMark :: stop :: rest = d :: more := by
      cases text <;> simp
    rw [← short, List.cons_append, split, read?, if_neg, if_neg]
    · exact fun triple => apart triple.1
    · exact fun triple => apart triple.1

end Strings

namespace Reader

theorem value?_boolean (depth : Nat) (b : Bool) (rest : List Char) :
    value? depth ((Writer.boolean b).toList ++ '\n' :: rest) =
      some (Writer.boolean b, .boolean b, '\n' :: rest) := by
  have part : ∀ c ∈ (Writer.boolean b).toList, Scalar.isPart c = true := by
    apply List.all_eq_true.mp
    cases b <;> decide
  have spanned : Scalar.span ((Writer.boolean b).toList ++ '\n' :: rest) =
      ((Writer.boolean b).toList, '\n' :: rest) := by
    have stops : Span.Stops Scalar.isPart ('\n' :: rest) := Span.stops_cons (by decide) rest
    simp [Scalar.span, Span.takeWhile_append part stops, Span.dropWhile_append part stops]
  have value : Scalar.read? (Writer.boolean b).toList = some (.boolean b) := by
    cases b <;> rfl
  have scalar : scalar? ((Writer.boolean b).toList ++ '\n' :: rest) =
      some (Writer.boolean b, .boolean b, '\n' :: rest) := by
    simp only [scalar?, spanned, value, Option.map_some, String.ofList_toList]
  rw [← scalar]
  cases b <;> simp [Writer.boolean, value?.eq_def, Strings.basicMark, Strings.literalMark]

theorem value?_string (depth : Nat) {text : String} (h : ∀ c ∈ text.toList, Writer.isUnescaped c = true)
    (rest : List Char) :
    value? depth ((Writer.string text).toList ++ '\n' :: rest) =
      some (Writer.string text, .text text, '\n' :: rest) := by
  have written : (Writer.string text).toList ++ '\n' :: rest =
      Strings.basicMark :: (text.toList ++ Strings.basicMark :: '\n' :: rest) := by
    simp [Writer.string_of_isUnescaped h]
  have read := Strings.read?_of_isUnescaped h '\n' (by decide) rest
  have shown : between ((Writer.string text).toList ++ '\n' :: rest) ('\n' :: rest) = Writer.string text := by
    rw [between_append, String.ofList_toList]
  rw [written] at shown ⊢
  rw [value?.eq_def]
  simp only [true_or, if_true, string?, read, Option.map_some, shown, String.ofList_toList]

end Reader

namespace Outline.Reads

/-- A line of the writer adds an entry, with its comments in front of the key. -/
theorem line {before : String} {o result : Outline} {rest : List Char} {key value : String} {v : Value}
    (bare : Reader.IsBareKey key.toList) {c : Char} (solid : Strings.isBlank c = false)
    (begins : ∃ more, value.toList = c :: more)
    (read : Reader.value? Reader.maxDepth (value.toList ++ '\n' :: rest) = some (value, v, '\n' :: rest))
    (next : Reads "" (o.addEntry ⟨[], ⟨key, key, "", "", before, " "⟩, ⟨" ", value, v, ""⟩⟩) rest result) :
    Reads before o ((Writer.line key value).toList ++ rest) result := by
  obtain ⟨more, shape⟩ := begins
  have written : (Writer.line key value).toList ++ rest =
      key.toList ++ ' ' :: '=' :: ' ' :: (c :: more ++ '\n' :: rest) := by
    simp [Writer.line, shape]
  obtain rfl : String.ofList (c :: more) = value := by rw [← shape, String.ofList_toList]
  rw [written]
  rw [shape] at read
  apply entry bare solid read
  rw [String.ofList_toList]
  exact next

theorem booleanLine {before : String} {o result : Outline} {rest : List Char} {key : String}
    (bare : Reader.IsBareKey key.toList) (b : Bool)
    (next : Reads ""
      (o.addEntry ⟨[], ⟨key, key, "", "", before, " "⟩, ⟨" ", Writer.boolean b, .boolean b, ""⟩⟩) rest result) :
    Reads before o ((Writer.line key (Writer.boolean b)).toList ++ rest) result := by
  have read := Reader.value?_boolean Reader.maxDepth b rest
  cases b with
  | true => exact line bare (c := 't') (by decide) ⟨_, rfl⟩ read next
  | false => exact line bare (c := 'f') (by decide) ⟨_, rfl⟩ read next

theorem stringLine {before : String} {o result : Outline} {rest : List Char} {key text : String}
    (bare : Reader.IsBareKey key.toList) (plain : ∀ c ∈ text.toList, Writer.isUnescaped c = true)
    (next : Reads ""
      (o.addEntry ⟨[], ⟨key, key, "", "", before, " "⟩, ⟨" ", Writer.string text, .text text, ""⟩⟩) rest result) :
    Reads before o ((Writer.line key (Writer.string text)).toList ++ rest) result := by
  have begins : ∃ more, (Writer.string text).toList = Strings.basicMark :: more := by
    simp [Writer.string_of_isUnescaped plain]
  exact line bare (by decide) begins (Reader.value?_string Reader.maxDepth plain rest) next

end Outline.Reads

end SqlSelect.Toml
