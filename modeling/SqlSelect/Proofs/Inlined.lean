import SqlSelect.Function.Catalogue
import SqlSelect.Function.Literal
import SqlSelect.Proofs.Decimal.Positional
import SqlSelect.Proofs.Numbered.Pieces
import SqlSelect.Proofs.Text.Quoted
import SqlSelect.Proofs.Written
/-!
Values written into a statement. A text stands there as one literal, and a reader of the statement goes on exactly
behind it, so no text can be read as anything but a value. A finite number is a numeral, but an infinity or NaN is a
word, which a statement takes for the name of a column.
-/

namespace SqlSelect

/-- A literal column is rendered as it is, under every renaming. -/
theorem Literal.under_pieces (l : Literal) (r : Renaming) :
    Rendering.under l.column.column.pieces r = (l.sql, r) := by
  rw [column, Column.pieces]
  exact Rendering.under_singleton_text l.sql r

namespace Catalogue

variable {t : HostType} (c : TypedColumn t)

theorem pieces_groupConcatWith (separator : String) : (groupConcatWith c separator).column.pieces =
    .text "group_concat(" :: c.column.pieces ++ [.text ("," ++ Quoted.literal separator ++ ")")] := rfl

/-- The operand is rendered between the name of the function and the separator. -/
theorem under_groupConcatWith (separator : String) (r : Renaming) :
    Rendering.under (groupConcatWith c separator).column.pieces r =
      ("group_concat(" ++ (Rendering.under c.column.pieces r).1 ++ "," ++ Quoted.literal separator ++ ")",
        (Rendering.under c.column.pieces r).2) := by
  rw [pieces_groupConcatWith, Rendering.under_append, Rendering.under_singleton_text]
  have opening : Rendering.under (.text "group_concat(" :: c.column.pieces) r =
      ("group_concat(" ++ (Rendering.under c.column.pieces r).1, (Rendering.under c.column.pieces r).2) := rfl
  rw [opening]
  simp only [String.append_assoc]

end Catalogue

variable {t : HostType}

/-- A text as a column and as the separator of a concatenated group is one literal, which denotes that text and
ends with its last character; and a reader resumes exactly behind it just if no quote follows there. -/
theorem inlined_text_is_one_literal (c : TypedColumn t) (text : String) :
    let column := (Literal.text text).column.column
    let group := (Catalogue.groupConcatWith c text).column
    let literal := Quoted.literal text
    (column.sql = literal ∧ ∀ r, Rendering.under column.pieces r = (literal, r)) ∧
      (group.sql = "group_concat(" ++ c.column.sql ++ "," ++ literal ++ ")" ∧
        ∀ r, Rendering.under group.pieces r =
          ("group_concat(" ++ (Rendering.under c.column.pieces r).1 ++ "," ++ literal ++ ")",
            (Rendering.under c.column.pieces r).2)) ∧
      Quoted.read? literal.toList = some (text.toList, []) ∧
      ∀ rest, Quoted.read? (literal.toList ++ rest) = some (text.toList, rest) ↔
        rest.head? ≠ some Quoted.mark := by
  intro column group literal
  have columnUnder : ∀ r, Rendering.under column.pieces r = (literal, r) := (Literal.text text).under_pieces
  have groupUnder := Catalogue.under_groupConcatWith c text
  have reads := Quoted.read?_literal_append text
  refine ⟨⟨?_, columnUnder⟩, ⟨?_, groupUnder⟩, ?_, reads⟩
  · have plain := columnUnder .off
    rw [Rendering.under_off] at plain
    exact congrArg Prod.fst plain
  · have plain := groupUnder .off
    rw [Rendering.under_off, Rendering.under_off] at plain
    exact congrArg Prod.fst plain
  · have whole := (reads []).mpr nofun
    rwa [List.append_nil] at whole

/-! ## Numbers -/

namespace Literal

open Numeral (IsPlain Spells)

/-- Whether a literal is a number that is finite. -/
def isFinite : Literal → Bool
  | integer _ _ _ => true
  | single x => x.parts.isFinite
  | double x => x.parts.isFinite
  | text _ => false

theorem sql_column (l : Literal) : l.column.column.sql = l.sql := by
  have plain := l.under_pieces .off
  rw [Rendering.under_off] at plain
  exact congrArg Prod.fst plain

/-- A text begins with a quote. -/
theorem not_isPlain_text (s : String) : ¬ IsPlain (text s).sql.toList := by
  intro plain
  have quoted : Quoted.mark ∈ (text s).sql.toList := by
    rw [sql, Quoted.toList_literal]
    exact List.mem_cons_self
  exact absurd (plain.mem quoted) (by decide)

theorem isPlain_sql_iff (l : Literal) : IsPlain l.sql.toList ↔ l.isFinite = true := by
  cases l with
  | integer t stored i =>
    rw [sql, String.toList_ofList]
    exact iff_of_true (Numeral.isPlain_ofInt i.val) rfl
  | single x =>
    rw [sql, String.toList_ofList]
    exact BinaryFormat.isPlain_text_iff _ _
  | double x =>
    rw [sql, String.toList_ofList]
    exact BinaryFormat.isPlain_text_iff _ _
  | text s => exact iff_of_false (not_isPlain_text s) Bool.false_ne_true

/-- A number is written as an optional minus and digits with at most one point between them just if it is finite,
and a whole number by the digits of its own value. An infinity or NaN is written as a word. -/
theorem number_plain_iff_finite (l : Literal) :
    (l.column.column.sql = l.sql ∧ ∀ r, Rendering.under l.column.column.pieces r = (l.sql, r)) ∧
      (IsPlain l.sql.toList ↔ l.isFinite = true) ∧
      (∀ t stored i, l = .integer t stored i → Spells i.val l.sql.toList) ∧
      ((∃ s, l = .text s) ∨ l.isFinite = true ∨ l.sql.toList ∈ BinaryFormat.words) := by
  refine ⟨⟨l.sql_column, l.under_pieces⟩, l.isPlain_sql_iff, ?_, ?_⟩
  · rintro t stored i rfl
    rw [sql, String.toList_ofList]
    exact Numeral.spells_ofInt i.val
  · have written (f : BinaryFormat) (bits : Nat) : (f.decode bits).isFinite = true ∨
        (String.ofList (f.text bits)).toList ∈ BinaryFormat.words := by
      rw [String.toList_ofList]
      exact (f.text_cases bits).imp And.left And.right
    cases l with
    | text s => exact .inl ⟨s, rfl⟩
    | integer t stored i => exact .inr (.inl rfl)
    | single x => exact .inr (written .single x.bits.toNat)
    | double x => exact .inr (written .double x.bits.toNat)

example : (Literal.double ⟨0xBFB999999999999A⟩).sql = "-0.1" := by
  decide +kernel

/-- An infinity and NaN stand in a statement as names would. -/
theorem infinity_written_as_name :
    let infinity : Literal := .double ⟨0x7FF0000000000000⟩
    let unreal : Literal := .single ⟨0x7FC00000⟩
    (infinity.column.column.sql = "inf" ∧ isIdentifier "inf" = true ∧ ¬ IsPlain "inf".toList) ∧
      (unreal.column.column.sql = "NaN" ∧ isIdentifier "NaN" = true ∧ ¬ IsPlain "NaN".toList) ∧
      ¬ ∀ l : Literal, (∀ s, l ≠ .text s) → IsPlain l.column.column.sql.toList := by
  intro infinity unreal
  have first : infinity.column.column.sql = "inf" := by decide
  have second : unreal.column.column.sql = "NaN" := by decide
  have inf : ¬ IsPlain "inf".toList := BinaryFormat.not_isPlain_of_mem_words (by decide)
  have nan : ¬ IsPlain "NaN".toList := BinaryFormat.not_isPlain_of_mem_words (by decide)
  refine ⟨⟨first, by decide, inf⟩, ⟨second, by decide, nan⟩, ?_⟩
  intro claimed
  have plain := claimed infinity nofun
  rw [first] at plain
  exact inf plain

end Literal

end SqlSelect
