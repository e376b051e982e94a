import SqlSelect.Proofs.Condition.Shape
import SqlSelect.Proofs.Text.Gaps
import SqlSelect.Proofs.Text.Spans
/-!
A reader of the texts of conditions, from left to right: a column or a condition in parentheses, then all
that is tested of it or that it is compared with.
-/

namespace SqlSelect

/-- How what stands behind a condition begins. -/
inductive Beginning where
  | comparison (operator : String)
  | like
  | member (negated : Bool)
  | isNull (negated : Bool)
deriving DecidableEq, Repr

namespace Beginning

def text : Beginning → String
  | comparison operator => " " ++ operator ++ " "
  | like => " LIKE ?"
  | member negated => if negated then " NOT IN (" else " IN ("
  | isNull negated => if negated then " IS NOT NULL" else " IS NULL"

def all : List Beginning :=
  Expression.operators.map comparison ++ [like, member false, member true, isNull false, isNull true]

theorem comparison_mem_all {operator : String} (known : operator ∈ Expression.operators) :
    comparison operator ∈ all :=
  List.mem_append_left _ (List.mem_map_of_mem known)

/-- Two texts differ at a character that both have. -/
def apart : List Char → List Char → Bool
  | c :: text, d :: other => c != d || apart text other
  | _, _ => false

theorem after?_of_apart {pattern text : List Char} (h : apart pattern text = true) (rest : List Char) :
    Substitute.after? pattern (text ++ rest) = none := by
  induction pattern generalizing text with
  | nil => simp [apart] at h
  | cons c pattern ih =>
    cases text with
    | nil => simp [apart] at h
    | cons d text =>
      by_cases same : c = d
      · have later : apart pattern text = true := by simpa [apart, same] using h
        simpa [Substitute.after?, same] using ih later
      · simp [Substitute.after?, same]

/-- The first of some beginnings that a text has, and what follows it. -/
def read? (text : List Char) : List Beginning → Option (Beginning × List Char)
  | [] => none
  | b :: others =>
    match Substitute.after? b.text.toList text with
    | some rest => some (b, rest)
    | none => read? text others

theorem read?_of_apart {bs : List Beginning} {text : List Char} (h : ∀ b ∈ bs, apart b.text.toList text = true)
    (rest : List Char) : read? (text ++ rest) bs = none := by
  induction bs with
  | nil => rfl
  | cons b others ih =>
    obtain ⟨first, later⟩ := List.forall_mem_cons.mp h
    rw [read?, after?_of_apart first]
    exact ih later

theorem read?_of_mem {bs : List Beginning} (distinct : bs.Pairwise fun b d => apart b.text.toList d.text.toList = true)
    {b : Beginning} (member : b ∈ bs) (rest : List Char) : read? (b.text.toList ++ rest) bs = some (b, rest) := by
  induction bs with
  | nil => contradiction
  | cons d others ih =>
    obtain ⟨first, later⟩ := List.pairwise_cons.mp distinct
    rcases List.mem_cons.mp member with rfl | member
    · rw [read?, Substitute.after?_eq_some.mpr rfl]
    · rw [read?, after?_of_apart (first b member)]
      exact ih later member

theorem pairwise_all : all.Pairwise fun b d => apart b.text.toList d.text.toList = true := by decide

end Beginning

namespace Shape

/-! ## The reader -/

def isWord (c : Char) : Bool :=
  isIdentifierStart c || c.isDigit

/-- What was read as the left side of a comparison, with its operator. -/
abbrev Pending := Option (Shape × String)

def complete : Pending → Shape → Shape
  | none, s => s
  | some (left, operator), s => attach left operator s

/-- Reads the marks of arguments up to a closing parenthesis. -/
def marks? : List Char → Option (Nat × List Char)
  | ')' :: rest => some (0, rest)
  | '?' :: ')' :: rest => some (1, rest)
  | '?' :: ',' :: ' ' :: rest => (marks? rest).map fun (count, rest) => (count + 1, rest)
  | _ => none

def connective? (text : List Char) : Option (Connective × List Char) :=
  match Substitute.after? (Expression.connectiveText .conj).toList text with
  | some rest => some (.conj, rest)
  | none => (Substitute.after? (Expression.connectiveText .disj).toList text).map (.disj, ·)

mutual

/-- Reads a condition as the right side of a comparison, if one is pending, and what follows it. -/
def row? : Nat → Pending → List Char → Option (Shape × List Char)
  | 0, _, _ => none
  | fuel + 1, pending, text =>
    if text.head? = some '(' then
      match row? fuel none (text.drop 1) with
      | none => none
      | some (left, rest) =>
        match connective? rest with
        | none => none
        | some (operator, rest) =>
          match row? fuel none rest with
          | some (right, ')' :: rest) => links? fuel (complete pending (.logical left operator right)) rest
          | _ => none
    else
      let word := text.takeWhile isWord
      match text.dropWhile isWord with
      | '.' :: rest =>
        let name := rest.takeWhile isWord
        links? fuel (complete pending (.column (String.ofList word) (String.ofList name))) (rest.dropWhile isWord)
      | '(' :: inside =>
        match row? fuel none inside with
        | none => none
        | some (inner, rest) =>
          match Substitute.after? ") LIKE LOWER(?)".toList rest with
          | some rest => links? fuel (complete pending (.similar inner)) rest
          | none => none
      | ' ' :: '(' :: inside =>
        match row? fuel none inside with
        | some (inner, ')' :: rest) => links? fuel (complete pending (.not inner)) rest
        | _ => none
      | _ => none
termination_by structural fuel => fuel

/-- Reads all that stands behind a condition, up to what cannot stand there. -/
def links? : Nat → Shape → List Char → Option (Shape × List Char)
  | 0, _, _ => none
  | fuel + 1, left, text =>
    match Beginning.read? text Beginning.all with
    | none => some (left, text)
    | some (.comparison operator, rest) =>
      if rest.head? = some '?' then links? fuel (.tested left (.argument operator)) (rest.drop 1)
      else row? fuel (some (left, operator)) rest
    | some (.like, rest) => links? fuel (.tested left .like) rest
    | some (.member negated, rest) =>
      match marks? rest with
      | some (count, rest) => links? fuel (.tested left (.member count negated)) rest
      | none => none
    | some (.isNull negated, rest) => links? fuel (.tested left (.isNull negated)) rest
termination_by structural fuel => fuel

end

/-- With more fuel than there is text, a condition is read. -/
def ReadsRow (pending : Pending) (text : List Char) (result : Shape × List Char) : Prop :=
  ∀ fuel, text.length < fuel → row? fuel pending text = some result

/-- With more fuel than there is text, what stands behind a condition is read. -/
def ReadsLinks (left : Shape) (text : List Char) (result : Shape × List Char) : Prop :=
  ∀ fuel, text.length < fuel → links? fuel left text = some result

/-! ## Reading the parts -/

theorem complete_tested (pending : Pending) (s : Shape) (test : Test) :
    complete pending (tested s test) = tested (complete pending s) test := by
  cases pending <;> rfl

theorem complete_attach (pending : Pending) (left right : Shape) (operator : String) :
    complete pending (attach left operator right) = attach (complete pending left) operator right := by
  cases pending with
  | none => rfl
  | some outer => exact attach_attach outer.1 left right outer.2 operator

theorem marks?_text (count : Nat) (rest : List Char) :
    marks? ((", ".intercalate (List.replicate count "?")).toList ++ ')' :: rest) = some (count, rest) := by
  induction count with
  | zero => simp [marks?]
  | succ count ih =>
    cases count with
    | zero => simp [marks?]
    | succ count =>
      have step : (", ".intercalate (List.replicate (count + 2) "?")).toList =
          '?' :: ',' :: ' ' :: (", ".intercalate (List.replicate (count + 1) "?")).toList := by
        rw [List.replicate_succ, List.replicate_succ, String.intercalate_cons_cons]
        simp only [String.toList_append]
        rfl
      rw [step, List.cons_append, List.cons_append, List.cons_append, marks?, ih]
      rfl

theorem connective?_text (operator : Connective) (rest : List Char) :
    connective? ((Expression.connectiveText operator).toList ++ rest) = some (operator, rest) := by
  have found (pattern : List Char) : Substitute.after? pattern (pattern ++ rest) = some rest :=
    Substitute.after?_eq_some.mpr rfl
  cases operator with
  | conj => rw [connective?, found]
  | disj =>
    rw [connective?, Beginning.after?_of_apart (by decide), found]
    rfl

/-- A blank separates a condition from what is tested of it. -/
theorem text_test (t : Test) : ∃ more, t.text.toList = ' ' :: more := by
  cases t with
  | argument operator => simp [Test.text]
  | like => simp [Test.text]
  | member count negated => cases negated <;> simp [Test.text]
  | isNull negated => cases negated <;> simp [Test.text]

namespace ReadsLinks

variable {left : Shape} {rest : List Char} {result : Shape × List Char}

theorem of_step {text : List Char}
    (h : ∀ fuel, text.length ≤ fuel → links? (fuel + 1) left text = some result) :
    ReadsLinks left text result := by
  intro fuel enough
  cases fuel with
  | zero => exact absurd enough (Nat.not_lt_zero _)
  | succ fuel => exact h fuel (Nat.le_of_lt_succ enough)

/-- Where nothing that may stand behind a condition begins, the condition is read. -/
theorem stop {text : List Char} (h : Beginning.read? text Beginning.all = none) :
    ReadsLinks left text (left, text) := by
  refine of_step fun fuel _ => ?_
  rw [links?, h]

theorem test {t : Test} (known : ∀ operator, t = .argument operator → operator ∈ Expression.operators)
    (next : ReadsLinks (.tested left t) rest result) : ReadsLinks left (t.text.toList ++ rest) result := by
  refine of_step fun fuel enough => ?_
  have goes : links? fuel (.tested left t) rest = some result := by
    obtain ⟨more, blank⟩ := text_test t
    exact next fuel (by simp [blank] at enough; omega)
  cases t with
  | argument operator =>
    have begins := Beginning.comparison_mem_all (known operator rfl)
    have split : (Test.argument operator).text.toList ++ rest =
        (Beginning.comparison operator).text.toList ++ '?' :: rest := by
      simp [Test.text, Beginning.text]
    rw [split, links?, Beginning.read?_of_mem Beginning.pairwise_all begins]
    exact goes
  | like =>
    have split : Test.like.text.toList ++ rest = Beginning.like.text.toList ++ rest := rfl
    rw [split, links?, Beginning.read?_of_mem Beginning.pairwise_all (by decide)]
    exact goes
  | member count negated =>
    have split : (Test.member count negated).text.toList ++ rest = (Beginning.member negated).text.toList ++
        ((", ".intercalate (List.replicate count "?")).toList ++ ')' :: rest) := by
      simp [Test.text, Beginning.text]
    rw [split, links?, Beginning.read?_of_mem Beginning.pairwise_all (by cases negated <;> decide)]
    simp only [marks?_text]
    exact goes
  | isNull negated =>
    have split : (Test.isNull negated).text.toList ++ rest = (Beginning.isNull negated).text.toList ++ rest := rfl
    rw [split, links?, Beginning.read?_of_mem Beginning.pairwise_all (by cases negated <;> decide)]
    exact goes

theorem comparison {operator : String} (known : operator ∈ Expression.operators)
    (solid : rest.head? ≠ some '?') (next : ReadsRow (some (left, operator)) rest result) :
    ReadsLinks left ((" " ++ operator ++ " ").toList ++ rest) result := by
  refine of_step fun fuel enough => ?_
  have begins := Beginning.comparison_mem_all known
  have split : (" " ++ operator ++ " ").toList ++ rest = (Beginning.comparison operator).text.toList ++ rest := rfl
  rw [split] at enough ⊢
  rw [links?, Beginning.read?_of_mem Beginning.pairwise_all begins]
  simp only [if_neg solid]
  exact next fuel (by simp [Beginning.text] at enough; omega)

end ReadsLinks

end Shape

end SqlSelect
