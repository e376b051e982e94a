import SqlSelect.Proofs.Text.Spans
import SqlSelect.Toml.Outline
/-!
Reading a document line by line: what a comment, a header with a bare key, and an entry with a bare key
add to the outline. The fuel is taken for granted, as long as there is more of it than text.
-/

namespace SqlSelect.Toml

namespace Reader

theorem between_append (front rest : List Char) : between (front ++ rest) rest = String.ofList front := by
  simp [between]

theorem ne_of_isBare {c d : Char} (h : isBare c = true) (other : isBare d = false) : c ≠ d := by
  rintro rfl
  exact Bool.noConfusion (h.symm.trans other)

theorem isBlank_of_isBare {c : Char} (h : isBare c = true) : Strings.isBlank c = false := by
  simp [Strings.isBlank, ne_of_isBare h (d := ' ') (by decide), ne_of_isBare h (d := '\t') (by decide)]

/-- A key that needs no quotes. -/
structure IsBareKey (name : List Char) : Prop where
  nonempty : name ≠ []
  bare : ∀ c ∈ name, isBare c = true

theorem simpleKey?_bare {name : List Char} (h : IsBareKey name) {stop : Char} (last : isBare stop = false)
    (rest : List Char) : simpleKey? (name ++ stop :: rest) = some (name, stop :: rest) := by
  unfold simpleKey?
  rw [Span.takeWhile_append h.bare (Span.stops_cons last rest),
    Span.dropWhile_append h.bare (Span.stops_cons last rest)]
  cases name with
  | nil => exact (h.nonempty rfl).elim
  | cons c name => rfl

/-- A bare key that no dot follows is a path by itself. -/
theorem keyPath?_bare {name : List Char} (h : IsBareKey name) (stop : Char) (last : isBare stop = false)
    (rest : List Char) (undotted : ∀ more, (stop :: rest).dropWhile Strings.isBlank ≠ '.' :: more)
    (limit : Nat) (left : String) :
    keyPath? (limit + 1) left (name ++ stop :: rest) =
      some ([], ⟨String.ofList name, String.ofList name, left, "", "", ""⟩, stop :: rest) := by
  simp only [keyPath?, simpleKey?_bare h last, between_append]

end Reader

namespace Outline

open Reader (IsBareKey)

theorem lineEnd?_newline (rest : List Char) : lineEnd? ('\n' :: rest) = some ("", true, rest) := by
  simp [lineEnd?, Strings.isBlank, Strings.dropNewline]

theorem lineEnd?_comment {body : List Char} (inline : ∀ c ∈ body, Strings.isInline c = true)
    (rest : List Char) :
    lineEnd? ('#' :: (body ++ '\n' :: rest)) = some (String.ofList ('#' :: body), true, rest) := by
  have taken : ('#' :: (body ++ '\n' :: rest)).takeWhile Strings.isInline = '#' :: body := by
    rw [List.takeWhile_cons_of_pos (by decide), Span.takeWhile_append inline (Span.stops_cons (by decide) rest)]
  have blanks : ('#' :: (body ++ '\n' :: rest)).takeWhile Strings.isBlank = [] :=
    List.takeWhile_cons_of_neg (by decide)
  have unindented :
      ('#' :: (body ++ '\n' :: rest)).dropWhile Strings.isBlank = '#' :: (body ++ '\n' :: rest) :=
    List.dropWhile_cons_of_neg (by decide)
  simp [lineEnd?, unindented, blanks, taken, Strings.dropNewline]

/-- Where a key or a header begins, no line ends. -/
theorem lineEnd?_eq_none {c : Char} (blank : Strings.isBlank c = false) (remark : c ≠ '#')
    (feed : c ≠ '\n') (carriage : c ≠ '\r') (rest : List Char) : lineEnd? (c :: rest) = none := by
  have kept : Strings.dropNewline (c :: rest) = c :: rest := by
    unfold Strings.dropNewline
    split <;> simp_all
  simp [lineEnd?, blank, remark, kept]

theorem lineEnd?_bare {c : Char} (h : Reader.isBare c = true) (rest : List Char) :
    lineEnd? (c :: rest) = none :=
  lineEnd?_eq_none (Reader.isBlank_of_isBare h) (Reader.ne_of_isBare h (by decide))
    (Reader.ne_of_isBare h (by decide)) (Reader.ne_of_isBare h (by decide)) rest

theorem header?_bare {name : List Char} (bare : IsBareKey name) (before : String) (rest : List Char) :
    header? before (name ++ ']' :: '\n' :: rest) =
      some (⟨false, [], ⟨String.ofList name, String.ofList name, "", "", "", ""⟩, before, "", []⟩, rest) := by
  have named := Reader.keyPath?_bare bare ']' (by decide) ('\n' :: rest) (by simp [Strings.isBlank]) 79 ""
  obtain ⟨c, more, rfl⟩ := List.exists_cons_of_ne_nil bare.nonempty
  have first := bare.bare c (by simp)
  have single : ((c :: more ++ ']' :: '\n' :: rest).head? == some '[') = false := by
    simp [Reader.ne_of_isBare first (d := '[') (by decide)]
  have unindented : (c :: more ++ ']' :: '\n' :: rest).dropWhile Strings.isBlank =
      c :: more ++ ']' :: '\n' :: rest := by
    simp [Reader.isBlank_of_isBare first]
  have front : Reader.blanks (c :: more ++ ']' :: '\n' :: rest) = "" := by
    simp [Reader.blanks, Reader.isBlank_of_isBare first]
  have behind : Reader.blanks (']' :: '\n' :: rest) = "" := by
    simp [Reader.blanks, Strings.isBlank]
  have closed : closeHeader? false ((']' :: '\n' :: rest).dropWhile Strings.isBlank) = some ('\n' :: rest) := by
    simp [Strings.isBlank, closeHeader?]
  simp only [header?, single, Bool.false_eq_true, if_false, unindented, Reader.maxDepth, named, closed,
    Option.bind_some, lineEnd?_newline, front, behind]

theorem entry?_bare {name : List Char} (bare : IsBareKey name) {c : Char}
    (solid : Strings.isBlank c = false) {more : List Char} {value : Value} {rest : List Char}
    (read : Reader.value? Reader.maxDepth (c :: more ++ '\n' :: rest) =
      some (String.ofList (c :: more), value, '\n' :: rest)) (before : String) :
    entry? before (name ++ ' ' :: '=' :: ' ' :: (c :: more ++ '\n' :: rest)) =
      some (⟨[], ⟨String.ofList name, String.ofList name, "", "", before, " "⟩,
        ⟨" ", String.ofList (c :: more), value, ""⟩⟩, rest) := by
  have named := Reader.keyPath?_bare bare ' ' (by decide) ('=' :: ' ' :: (c :: more ++ '\n' :: rest))
    (by simp [Strings.isBlank]) 79 ""
  have equals : (' ' :: '=' :: ' ' :: (c :: more ++ '\n' :: rest)).dropWhile Strings.isBlank =
      '=' :: ' ' :: (c :: more ++ '\n' :: rest) := by
    simp [Strings.isBlank]
  have start : (' ' :: (c :: more ++ '\n' :: rest)).dropWhile Strings.isBlank = c :: more ++ '\n' :: rest := by
    rw [List.dropWhile_cons_of_pos (by decide), List.cons_append, List.dropWhile_cons_of_neg (by simp [solid])]
  have gap : Reader.blanks (' ' :: (c :: more ++ '\n' :: rest)) = " " := by
    rw [Reader.blanks, List.takeWhile_cons_of_pos (by decide), List.cons_append,
      List.takeWhile_cons_of_neg (by simp [solid])]
  have behind : Reader.blanks (' ' :: '=' :: ' ' :: (c :: more ++ '\n' :: rest)) = " " := by
    simp [Reader.blanks, Strings.isBlank]
  rw [Reader.maxDepth] at read
  unfold entry?
  simp only [Reader.maxDepth, named, equals, start, gap, behind]
  simp only [read, lineEnd?_newline]

/-- Finished lines of comments. -/
inductive IsRemarks : List Char → Prop where
  | none : IsRemarks []
  | comment {body rest : List Char} (inline : ∀ c ∈ body, Strings.isInline c = true) (more : IsRemarks rest) :
    IsRemarks ('#' :: (body ++ '\n' :: rest))

/-- With more fuel than there is text, the lines of a text are read to an outline. -/
def Reads (before : String) (o : Outline) (text : List Char) (result : Outline) : Prop :=
  ∀ fuel, text.length < fuel → lines? fuel before o text = some result

namespace Reads

variable {before : String} {o result : Outline} {rest : List Char}

/-- A line is read with one unit of fuel, and is at least one character long. -/
theorem of_step {text : List Char}
    (h : ∀ fuel, text.length ≤ fuel → lines? (fuel + 1) before o text = some result) :
    Reads before o text result := by
  intro fuel enough
  cases fuel with
  | zero => exact absurd enough (Nat.not_lt_zero _)
  | succ fuel => exact h fuel (Nat.le_of_lt_succ enough)

theorem finish : Reads before o [] { o with trailing := before } := by
  refine of_step fun fuel _ => ?_
  simp [lines?, lineEnd?]

theorem comment {body : List Char} (inline : ∀ c ∈ body, Strings.isInline c = true)
    (h : Reads (before ++ String.ofList ('#' :: body ++ ['\n'])) o rest result) :
    Reads before o ('#' :: (body ++ '\n' :: rest)) result := by
  refine of_step fun fuel enough => ?_
  have joined : before ++ String.ofList ('#' :: body) ++ "\n" =
      before ++ String.ofList ('#' :: body ++ ['\n']) := by
    rw [String.append_assoc, String.ofList_append]
  rw [lines?, lineEnd?_comment inline]
  simp only [joined]
  exact h fuel (by simp at enough; omega)

/-- Comments are kept in front of what comes next. -/
theorem remarks {remarks : List Char} (h : IsRemarks remarks)
    (next : Reads (before ++ String.ofList remarks) o rest result) :
    Reads before o (remarks ++ rest) result := by
  induction h generalizing before with
  | none => simpa using next
  | @comment body more inline _ ih =>
    have joined : before ++ String.ofList ('#' :: (body ++ '\n' :: more)) =
        before ++ String.ofList ('#' :: body ++ ['\n']) ++ String.ofList more := by
      simp [String.append_assoc, ← String.ofList_append]
    rw [joined] at next
    rw [List.cons_append, List.append_assoc, List.cons_append]
    exact comment inline (ih next)

theorem header {name : List Char} (bare : IsBareKey name)
    (h : Reads ""
      { o with
        sections := o.sections ++
          [⟨false, [], ⟨String.ofList name, String.ofList name, "", "", "", ""⟩, before, "", []⟩] }
      rest result) :
    Reads before o ('[' :: (name ++ ']' :: '\n' :: rest)) result := by
  refine of_step fun fuel enough => ?_
  have opening : ('[' :: (name ++ ']' :: '\n' :: rest)).dropWhile Strings.isBlank =
      '[' :: (name ++ ']' :: '\n' :: rest) := by
    simp [Strings.isBlank]
  have front : Reader.blanks ('[' :: (name ++ ']' :: '\n' :: rest)) = "" := by
    simp [Reader.blanks, Strings.isBlank]
  rw [lines?, lineEnd?_eq_none (by decide) (by decide) (by decide) (by decide)]
  simp only [opening, front, String.append_empty, header?_bare bare]
  exact h fuel (by simp at enough; omega)

theorem entry {name : List Char} (bare : IsBareKey name) {c : Char} (solid : Strings.isBlank c = false)
    {more : List Char} {value : Value}
    (read : Reader.value? Reader.maxDepth (c :: more ++ '\n' :: rest) =
      some (String.ofList (c :: more), value, '\n' :: rest))
    (h : Reads ""
      (o.addEntry ⟨[], ⟨String.ofList name, String.ofList name, "", "", before, " "⟩,
        ⟨" ", String.ofList (c :: more), value, ""⟩⟩) rest result) :
    Reads before o (name ++ ' ' :: '=' :: ' ' :: (c :: more ++ '\n' :: rest)) result := by
  refine of_step fun fuel enough => ?_
  have found := entry?_bare bare solid read before
  obtain ⟨d, key, rfl⟩ := List.exists_cons_of_ne_nil bare.nonempty
  have first := bare.bare d (by simp)
  have unindented (text : List Char) : (d :: text).dropWhile Strings.isBlank = d :: text :=
    List.dropWhile_cons_of_neg (by simp [Reader.isBlank_of_isBare first])
  have front (text : List Char) : Reader.blanks (d :: text) = "" := by
    simp [Reader.blanks, Reader.isBlank_of_isBare first]
  rw [List.cons_append] at found ⊢
  rw [lines?, lineEnd?_bare first]
  simp only [unindented, front, String.append_empty]
  split
  · rename_i bracket
    exact absurd (List.cons.inj bracket).1 (Reader.ne_of_isBare first (by decide))
  · simp only [found]
    exact h fuel (by simp at enough; omega)

end Reads

end Outline

end SqlSelect.Toml
