import SqlSelect.Proofs.Condition.Reader
import SqlSelect.Proofs.Rename.Aliases
/-!
The text of a condition is read as its shape with everything moved to the left. So two conditions have one
text just when their shapes are the same once all is moved to the left.
-/

namespace SqlSelect

namespace Shape

/-- Wherever the text of a shape stands, it is read as the shape with everything moved to the left. -/
def IsRead (s : Shape) : Prop :=
  ∀ ⦃pending : Pending⦄ ⦃rest : List Char⦄ ⦃result : Shape × List Char⦄, Span.Stops isWord rest →
    ReadsLinks (complete pending s.leftward) rest result → ReadsRow pending (s.text.toList ++ rest) result

theorem ReadsRow.of_step {pending : Pending} {text : List Char} {result : Shape × List Char}
    (h : ∀ fuel, text.length ≤ fuel → row? (fuel + 1) pending text = some result) :
    ReadsRow pending text result := by
  intro fuel enough
  cases fuel with
  | zero => exact absurd enough (Nat.not_lt_zero _)
  | succ fuel => exact h fuel (Nat.le_of_lt_succ enough)

theorem stops_text_test (t : Test) (rest : List Char) : Span.Stops isWord (t.text.toList ++ rest) := by
  obtain ⟨more, blank⟩ := text_test t
  rw [blank]
  exact Span.stops_cons (by decide) _

theorem isRead_column {table name : String} (ht : isIdentifier table = true) (hn : isIdentifier name = true) :
    IsRead (.column table name) := by
  intro pending rest result ends next
  refine ReadsRow.of_step fun fuel enough => ?_
  have words {text : String} (h : isIdentifier text = true) : ∀ c ∈ text.toList, isWord c = true :=
    fun c member => RenameSettings.isPart_of_mem_isIdentifier h member
  have split : (column table name).text.toList ++ rest = table.toList ++ '.' :: (name.toList ++ rest) := by
    simp [text]
  have dot : Span.Stops isWord ('.' :: (name.toList ++ rest)) := Span.stops_cons (by decide) _
  have unopened : (table.toList ++ '.' :: (name.toList ++ rest)).head? ≠ some '(' := by
    cases letters : table.toList with
    | nil => simp
    | cons c more =>
      rintro ⟨⟩
      exact absurd (words ht '(' (by simp [letters])) (by decide)
  rw [split] at enough ⊢
  rw [row?, if_neg unopened]
  simp only [Span.takeWhile_append (words ht) dot, Span.dropWhile_append (words ht) dot,
    Span.takeWhile_append (words hn) ends, Span.dropWhile_append (words hn) ends, String.ofList_toList]
  exact next fuel (by simp at enough; omega)

theorem isRead_tested {s : Shape} (h : IsRead s) {t : Test}
    (known : ∀ operator, t = .argument operator → operator ∈ Expression.operators) : IsRead (.tested s t) := by
  intro pending rest result ends next
  rw [text, String.toList_append, List.append_assoc]
  apply h (stops_text_test t rest)
  apply ReadsLinks.test known
  rw [← complete_tested]
  exact next

/-- The text begins with something other than the mark of an argument. -/
def IsSolid (s : Shape) : Prop :=
  ∃ c more, s.text.toList = c :: more ∧ c ≠ '?'

theorem isRead_compare {s t : Shape} (hs : IsRead s) {operator : String}
    (known : operator ∈ Expression.operators) (ht : IsRead t) (solid : t.IsSolid) :
    IsRead (.compare s operator t) := by
  intro pending rest result ends next
  have blank (text : List Char) :
      (" " ++ operator ++ " ").toList ++ text = ' ' :: (operator.toList ++ ' ' :: text) := by simp
  rw [text, String.toList_append, String.toList_append, List.append_assoc, List.append_assoc]
  apply hs
  · rw [blank]
    exact Span.stops_cons (by decide) _
  · apply ReadsLinks.comparison known
    · obtain ⟨c, more, begins, other⟩ := solid
      simpa [begins] using other
    · apply ht ends
      rw [leftward, complete_attach] at next
      exact next

/-- A condition that nothing is tested of is read by itself. -/
theorem IsRead.alone {s : Shape} (h : IsRead s) {rest : List Char} (ends : Span.Stops isWord rest)
    (free : Beginning.read? rest Beginning.all = none) :
    ReadsRow none (s.text.toList ++ rest) (s.leftward, rest) :=
  h ends (ReadsLinks.stop free)

theorem IsRead.beforeParenthesis {s : Shape} (h : IsRead s) (rest : List Char) :
    ReadsRow none (s.text.toList ++ ')' :: rest) (s.leftward, ')' :: rest) := by
  have closes : ∀ b ∈ Beginning.all, Beginning.apart b.text.toList [')'] = true := by decide
  exact h.alone (Span.stops_cons (by decide) rest) (Beginning.read?_of_apart closes rest)

theorem isRead_similar {s : Shape} (h : IsRead s) : IsRead (.similar s) := by
  intro pending rest result ends next
  refine ReadsRow.of_step fun fuel enough => ?_
  have split : (similar s).text.toList ++ rest =
      "LOWER".toList ++ '(' :: (s.text.toList ++ (") LIKE LOWER(?)".toList ++ rest)) := by
    simp [text]
  have words : ∀ c ∈ "LOWER".toList, isWord c = true := List.all_eq_true.mp (by decide)
  have parenthesis : Span.Stops isWord ('(' :: (s.text.toList ++ (") LIKE LOWER(?)".toList ++ rest))) :=
    Span.stops_cons (by decide) _
  rw [split] at enough ⊢
  have inner : row? fuel none (s.text.toList ++ (") LIKE LOWER(?)".toList ++ rest)) =
      some (s.leftward, ") LIKE LOWER(?)".toList ++ rest) :=
    h.beforeParenthesis _ fuel (by simp at enough; simp; omega)
  have closing := Substitute.after?_eq_some.mpr (rfl : ") LIKE LOWER(?)".toList ++ rest = _)
  rw [row?, if_neg (by simp)]
  simp only [Span.dropWhile_append words parenthesis, inner, closing]
  exact next fuel (by simp at enough; omega)

theorem isRead_logical {s t : Shape} (hs : IsRead s) (operator : Connective) (ht : IsRead t) :
    IsRead (.logical s operator t) := by
  intro pending rest result ends next
  refine ReadsRow.of_step fun fuel enough => ?_
  have split : (logical s operator t).text.toList ++ rest =
      '(' :: (s.text.toList ++ ((Expression.connectiveText operator).toList ++
        (t.text.toList ++ ')' :: rest))) := by
    simp [text]
  rw [split] at enough ⊢
  have first : row? fuel none (s.text.toList ++ ((Expression.connectiveText operator).toList ++
      (t.text.toList ++ ')' :: rest))) =
      some (s.leftward, (Expression.connectiveText operator).toList ++ (t.text.toList ++ ')' :: rest)) := by
    apply hs.alone
    · cases operator <;> exact Span.stops_cons (by decide) _
    · exact Beginning.read?_of_apart (by cases operator <;> decide) _
    · simp at enough ⊢
      omega
  have second : row? fuel none (t.text.toList ++ ')' :: rest) = some (t.leftward, ')' :: rest) :=
    ht.beforeParenthesis rest fuel (by simp at enough ⊢; omega)
  rw [row?, if_pos List.head?_cons, List.drop_one, List.tail_cons, first]
  simp only [connective?_text, second]
  exact next fuel (by simp at enough; omega)

theorem isRead_not {s : Shape} (h : IsRead s) : IsRead (.not s) := by
  intro pending rest result ends next
  refine ReadsRow.of_step fun fuel enough => ?_
  have split : (not s).text.toList ++ rest = "NOT".toList ++ ' ' :: '(' :: (s.text.toList ++ ')' :: rest) := by
    simp [text]
  have words : ∀ c ∈ "NOT".toList, isWord c = true := List.all_eq_true.mp (by decide)
  have blank : Span.Stops isWord (' ' :: '(' :: (s.text.toList ++ ')' :: rest)) :=
    Span.stops_cons (by decide) _
  rw [split] at enough ⊢
  have inner : row? fuel none (s.text.toList ++ ')' :: rest) = some (s.leftward, ')' :: rest) :=
    h.beforeParenthesis rest fuel (by simp at enough ⊢; omega)
  rw [row?, if_neg (by simp)]
  simp only [Span.dropWhile_append words blank, inner]
  exact next fuel (by simp at enough; omega)

theorem IsSolid.append {s t : Shape} (h : s.IsSolid) {more : String} (same : t.text = s.text ++ more) :
    t.IsSolid := by
  obtain ⟨c, rest, begins, other⟩ := h
  exact ⟨c, rest ++ more.toList, by simp [same, begins], other⟩

end Shape

namespace Expression

open Shape

theorem HasShape.isSolid {e : Expression} {s : Shape} (h : HasShape e s) : s.IsSolid := by
  induction h with
  | @column info name unaliased table own =>
    cases letters : info.table.name.toList with
    | nil => exact ⟨'.', name.toList, by simp [text, letters], by decide⟩
    | cons c more =>
      refine ⟨c, more ++ '.' :: name.toList, by simp [text, letters], ?_⟩
      rintro rfl
      have part := RenameSettings.isPart_of_mem_isIdentifier table (c := '?') (by simp [letters])
      exact absurd part (by decide)
  | compareArgument h known argument ih => exact ih.append rfl
  | compare hl known hr ihl ihr => exact ihl.append (by rw [text, String.append_assoc])
  | like h pattern ih => exact ih.append rfl
  | similar h pattern ih => exact ⟨'L', _, by simp [text]; rfl, by decide⟩
  | member h arguments negated ih => exact ih.append rfl
  | isNull h negated ih => exact ih.append rfl
  | logical hl operator hr ihl ihr => exact ⟨'(', _, by simp [text]; rfl, by decide⟩
  | not h ih => exact ⟨'N', _, by simp [text]; rfl, by decide⟩

/-- The text of a condition is read as its shape with everything moved to the left. -/
theorem HasShape.isRead {e : Expression} {s : Shape} (h : HasShape e s) : IsRead s := by
  induction h with
  | column unaliased table own => exact isRead_column table own
  | compareArgument h known argument ih => exact isRead_tested ih (by rintro operator ⟨⟩; exact known)
  | compare hl known hr ihl ihr => exact isRead_compare ihl known ihr hr.isSolid
  | like h pattern ih => exact isRead_tested ih (by rintro operator ⟨⟩)
  | similar h pattern ih => exact isRead_similar ih
  | member h arguments negated ih => exact isRead_tested ih (by rintro operator ⟨⟩)
  | isNull h negated ih => exact isRead_tested ih (by rintro operator ⟨⟩)
  | logical hl operator hr ihl ihr => exact isRead_logical ihl operator ihr
  | not h ih => exact isRead_not ih

theorem HasShape.read_sql {e : Expression} {s : Shape} (h : HasShape e s) {fuel : Nat}
    (enough : e.sql.toList.length < fuel) : row? fuel none e.sql.toList = some (s.leftward, []) := by
  have read : ReadsRow none (s.text.toList ++ []) (s.leftward, []) :=
    h.isRead.alone Span.stops_nil (by decide)
  rw [List.append_nil, ← h.sql_eq] at read
  exact read fuel enough

/-- Two conditions have one text just when their shapes are one after everything has been moved to the left, and what
was moved is a shape of the same text with nothing left to move. So the text tells conditions apart, up to their
arguments, as long as nothing but columns and conditions in parentheses stands on the right of their comparisons. -/
theorem sql_eq_iff_leftward {e f : Expression} {s t : Shape} (he : HasShape e s) (hf : HasShape f t) :
    (e.sql = f.sql ↔ s.leftward = t.leftward) ∧
      (s.leftward.isLeftward = true ∧ s.leftward.text = e.sql) ∧
      (s.isLeftward = true → t.isLeftward = true → e.sql = f.sql → s = t) := by
  have iff : e.sql = f.sql ↔ s.leftward = t.leftward := by
    constructor
    · intro same
      have first := he.read_sql (Nat.lt_succ_self _)
      have second := hf.read_sql (Nat.lt_succ_self _)
      rw [same] at first
      exact congrArg Prod.fst (Option.some.inj (first.symm.trans second))
    · intro same
      rw [he.sql_eq, hf.sql_eq, ← s.text_leftward, ← t.text_leftward, same]
  refine ⟨iff, ⟨s.isLeftward_leftward, ?_⟩, fun hs ht same => ?_⟩
  · rw [text_leftward, he.sql_eq]
  · have moved := iff.mp same
    rwa [leftward_of_isLeftward hs, leftward_of_isLeftward ht] at moved

/-- A column of whole numbers. -/
def score (name : String) : Expression :=
  .column (.field ⟨.named "t", none, .integer, false⟩ name)

theorem hasShape_score {name : String} (own : isIdentifier name = true) : HasShape (score name) (.column "t" name) :=
  .column rfl (by decide) own

/-- Whether a comparison is one of two numbers, or a number is compared with a number that is: both read as
the former. -/
theorem sql_of_membership :
    let e := Expression.not (.member (eqExpr (score "a") (score "b")) ["0", "1"] false)
    let f := Expression.not (eqExpr (score "a") (.member (score "b") ["2", "3"] false))
    let s := Shape.not (.tested (.compare (.column "t" "a") "=" (.column "t" "b")) (.member 2 false))
    let t := Shape.not (.compare (.column "t" "a") "=" (.tested (.column "t" "b") (.member 2 false)))
    HasShape e s ∧ HasShape f t ∧ s.leftward = t.leftward ∧ e.sql = f.sql := by
  intro e f s t
  have a := hasShape_score (by decide : isIdentifier "a" = true)
  have b := hasShape_score (by decide : isIdentifier "b" = true)
  have he : HasShape e s := .not (.member (.compare a (by decide) b) ["0", "1"] false)
  have hf : HasShape f t := .not (.compare a (by decide) (.member b ["2", "3"] false))
  have same : s.leftward = t.leftward := rfl
  exact ⟨he, hf, same, (sql_eq_iff_leftward he hf).1.mpr same⟩

/-- Two comparisons in a row have one text, whichever of them is made first. -/
theorem groupings_share_text :
    let e := eqExpr (eqExpr (score "a") (score "b")) (score "c")
    let f := eqExpr (score "a") (eqExpr (score "b") (score "c"))
    let s := Shape.compare (.compare (.column "t" "a") "=" (.column "t" "b")) "=" (.column "t" "c")
    let t := Shape.compare (.column "t" "a") "=" (.compare (.column "t" "b") "=" (.column "t" "c"))
    HasShape e s ∧ HasShape f t ∧ e.sql = "t.a = t.b = t.c" ∧ f.sql = e.sql ∧ s ≠ t := by
  intro e f s t
  have a := hasShape_score (by decide : isIdentifier "a" = true)
  have b := hasShape_score (by decide : isIdentifier "b" = true)
  have c := hasShape_score (by decide : isIdentifier "c" = true)
  refine ⟨.compare (.compare a (by decide) b) (by decide) c, .compare a (by decide) (.compare b (by decide) c),
    rfl, rfl, by decide⟩

end Expression

end SqlSelect
