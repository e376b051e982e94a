import SqlSelect.Decimal.Shortest
import SqlSelect.Proofs.Text.Numeral
/-!
Texts of numbers. A decimal written out is digits with at most one point between them, and so is a finite binary
number behind its sign; an infinity or NaN is a word.
-/

namespace SqlSelect

namespace Numeral

/-- Digits, or digits on both sides of a point. -/
inductive IsUnsigned : List Char → Prop where
  | whole {digits : List Char} : IsDigits digits → IsUnsigned digits
  | point {front back : List Char} : IsDigits front → IsDigits back → IsUnsigned (front ++ '.' :: back)

/-- A number without a plus sign or an exponent. -/
inductive IsPlain : List Char → Prop where
  | bare {text : List Char} : IsUnsigned text → IsPlain text
  | minus {text : List Char} : IsUnsigned text → IsPlain ('-' :: text)

theorem IsUnsigned.mem {text : List Char} (h : IsUnsigned text) {c : Char} (member : c ∈ text) :
    c = '.' ∨ c.isDigit = true := by
  cases h with
  | whole digits => exact .inr (digits.2 c member)
  | point front back =>
    rcases List.mem_append.mp member with before | after
    · exact .inr (front.2 c before)
    · exact (List.mem_cons.mp after).imp_right (back.2 c)

theorem IsPlain.mem {text : List Char} (h : IsPlain text) {c : Char} (member : c ∈ text) :
    c = '-' ∨ c = '.' ∨ c.isDigit = true := by
  cases h with
  | bare digits => exact .inr (digits.mem member)
  | minus digits => exact (List.mem_cons.mp member).imp_right digits.mem

theorem isPlain_ofInt (i : Int) : IsPlain (ofInt i) := by
  cases i with
  | ofNat n => exact .bare (.whole (isDigits_ofNat n))
  | negSucc n => exact .minus (.whole (isDigits_ofNat (n + 1)))

end Numeral

namespace Decimal

open Numeral (IsDigits IsUnsigned)

/-- Zeros are filled in before the digits or behind them, so that the point has a digit on either side. -/
theorem isUnsigned_positional (d : Decimal) : IsUnsigned d.positional := by
  have digits := Numeral.isDigits_ofNat d.digits
  have zero {c : Char} {count : Nat} (member : c ∈ List.replicate count '0') : c.isDigit = true := by
    rw [List.eq_of_mem_replicate member]
    decide
  unfold positional
  dsimp only
  split
  · refine .whole ⟨List.append_ne_nil_of_left_ne_nil digits.1 _, ?_⟩
    intro c member
    exact (List.mem_append.mp member).elim (digits.2 c) zero
  · rename_i negative
    generalize places : (-d.place).toNat = count
    generalize filled :
      List.replicate (count + 1 - (Numeral.ofNat d.digits).length) '0' ++ Numeral.ofNat d.digits = padded
    have long : count + 1 ≤ padded.length := by
      rw [← filled, List.length_append, List.length_replicate]
      omega
    have solid : ∀ c ∈ padded, c.isDigit = true := by
      intro c member
      rw [← filled] at member
      exact (List.mem_append.mp member).elim zero (digits.2 c)
    refine .point ⟨?_, fun c member => solid c (List.mem_of_mem_take member)⟩
      ⟨?_, fun c member => solid c (List.mem_of_mem_drop member)⟩
    · rw [ne_eq, List.take_eq_nil_iff, ← List.length_eq_zero_iff]
      omega
    · rw [ne_eq, List.drop_eq_nil_iff]
      omega

end Decimal

def BinaryParts.isFinite : BinaryParts → Bool
  | .finite _ _ _ => true
  | .infinite _ | .nan => false

namespace BinaryFormat

open Numeral (IsPlain IsUnsigned)

/-- The texts of the numbers that are not finite. -/
def words : List (List Char) :=
  ["inf".toList, "-inf".toList, "NaN".toList]

theorem not_isPlain_of_mem_words {text : List Char} (word : text ∈ words) : ¬ IsPlain text := by
  intro plain
  have letter : ∃ c ∈ text, c = 'n' ∨ c = 'N' := by
    simp only [words, List.mem_cons, List.not_mem_nil, or_false] at word
    rcases word with rfl | rfl | rfl
    · exact ⟨'n', by decide, .inl rfl⟩
    · exact ⟨'n', by decide, .inl rfl⟩
    · exact ⟨'N', by decide, .inr rfl⟩
  obtain ⟨c, member, which⟩ := letter
  have allowed := plain.mem member
  rcases which with rfl | rfl
  · exact absurd allowed (by decide)
  · exact absurd allowed (by decide)

variable (f : BinaryFormat) (bits : Nat)

/-- A finite number is written as a number, and any other one as a word. -/
theorem text_cases : ((f.decode bits).isFinite = true ∧ IsPlain (f.text bits)) ∨
    ((f.decode bits).isFinite = false ∧ f.text bits ∈ words) := by
  unfold text
  cases f.decode bits with
  | finite negative significand exponent =>
    have magnitude : IsUnsigned
        (if significand = 0 then ['0'] else (Shortest.ofBinary f significand exponent).positional) := by
      split
      · exact .whole (Numeral.isDigits_ofNat 0)
      · exact Decimal.isUnsigned_positional _
    refine .inl ⟨rfl, ?_⟩
    cases negative with
    | true => exact .minus magnitude
    | false => exact .bare magnitude
  | infinite negative => cases negative <;> exact .inr ⟨rfl, by simp [words]⟩
  | nan => exact .inr ⟨rfl, by simp [words]⟩

theorem isPlain_text_iff : IsPlain (f.text bits) ↔ (f.decode bits).isFinite = true := by
  rcases f.text_cases bits with ⟨finite, plain⟩ | ⟨other, word⟩
  · exact iff_of_true plain finite
  · exact iff_of_false (not_isPlain_of_mem_words word) (by simp [other])

end BinaryFormat

end SqlSelect
