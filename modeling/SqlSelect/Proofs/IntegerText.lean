import SqlSelect.Proofs.Arguments
import SqlSelect.Proofs.Text.Encoded
import SqlSelect.Proofs.Text.Spans
/-!
Integers as text. The class of integers admits exactly the texts that spell a number of 64 bits between white
space, and every integer is found again in the text that is written for it.
-/

namespace SqlSelect

/-! ## Spelled numbers -/

namespace Numeral

variable {i : Int} {text : List Char} {c : Char}

theorem Spells.ne_nil (h : Spells i text) : text ≠ [] := by
  cases h with
  | bare digits => exact digits.1
  | plus _ | minus _ => exact List.cons_ne_nil _ _

theorem Spells.mem (h : Spells i text) (member : c ∈ text) : c = '+' ∨ c = '-' ∨ c.isDigit = true := by
  cases h with
  | bare digits => exact .inr (.inr (digits.2 c member))
  | plus digits => exact (List.mem_cons.mp member).imp_right fun later => .inr (digits.2 c later)
  | minus digits => exact .inr ((List.mem_cons.mp member).imp_right (digits.2 c))

theorem isBlank_of_isDigit (digit : c.isDigit = true) : Blank.isBlank c = false := by
  rw [Char.isDigit_iff_toNat] at digit
  change 48 ≤ c.toNat ∧ c.toNat ≤ 57 at digit
  simp only [Blank.isBlank, Bool.or_eq_false_iff, Bool.and_eq_false_iff, decide_eq_false_iff_not, beq_eq_false_iff_ne]
  omega

theorem Spells.isBlank_eq_false (h : Spells i text) (member : c ∈ text) : Blank.isBlank c = false := by
  rcases h.mem member with rfl | rfl | digit
  · decide
  · decide
  · exact isBlank_of_isDigit digit

/-- The characters of a text are a spelled number between white space. -/
def Stands (i : Int) (text : List Char) : Prop :=
  ∃ before written after, text = before ++ written ++ after ∧ Spells i written ∧
    (∀ c ∈ before, Blank.isBlank c = true) ∧ ∀ c ∈ after, Blank.isBlank c = true

theorem stands_iff : Stands i text ↔ Spells i (Blank.trim text) := by
  constructor
  · rintro ⟨before, written, after, rfl, spells, front, back⟩
    have inside : ∀ c ∈ written, Blank.isBlank c = false := fun c member => spells.isBlank_eq_false member
    rw [Blank.trim_append front back spells.ne_nil]
    · exact spells
    · exact fun c first => inside c (List.mem_of_head? first)
    · exact fun c last => inside c (List.mem_reverse.mp (List.mem_of_head? last))
  · intro spells
    obtain ⟨before, after, split, front, back⟩ := Blank.exists_trim text
    exact ⟨before, Blank.trim text, after, split, spells, front, back⟩

/-- No character of such a text stands for broken bytes. -/
theorem Stands.not_mem (h : Stands i text) : '\uFFFD' ∉ text := by
  obtain ⟨before, written, after, rfl, spells, front, back⟩ := h
  have white : Blank.isBlank '\uFFFD' = false := by decide
  rw [List.mem_append, List.mem_append]
  rintro ((member | member) | member)
  · simp [front _ member] at white
  · rcases spells.mem member with sign | sign | digit
    · exact absurd sign (by decide)
    · exact absurd sign (by decide)
    · exact absurd digit (by decide)
  · simp [back _ member] at white

end Numeral

namespace StorageClass

open Numeral (Stands)

variable {bytes : List UInt8} {i : Int64}

theorem readInteger?_eq_some : readInteger? bytes = some i ↔
    Numeral.readInt? (Blank.trim (Utf8.decodeLossy bytes)) = some i.toInt := by
  have low := i.le_toInt
  have high := i.toInt_lt
  unfold readInteger?
  cases read : Numeral.readInt? (Blank.trim (Utf8.decodeLossy bytes)) with
  | none => simp
  | some n =>
    dsimp only
    rw [Option.some_inj]
    constructor
    · intro h
      obtain ⟨⟨least, most⟩, same⟩ := Option.ite_none_right_eq_some.mp h
      obtain rfl := Option.some.inj same
      exact (Int64.toInt_ofInt_of_le (by omega) (by omega)).symm
    · rintro rfl
      rw [if_pos (by omega), Int64.ofInt_toInt]

theorem readInteger?_iff_stands : readInteger? bytes = some i ↔
    ∃ text, bytes = Utf8.encode text ∧ Stands i.toInt text := by
  rw [readInteger?_eq_some, Numeral.readInt?_eq_some_iff, ← Numeral.stands_iff]
  constructor
  · intro stands
    have decoded := Utf8.decode?_of_not_mem stands.not_mem
    exact ⟨_, Utf8.decode?_eq_some_iff_encode.mp decoded, stands⟩
  · rintro ⟨text, rfl, stands⟩
    rwa [Utf8.decodeLossy_of_decode? (Utf8.decode?_encode text)]

theorem parse_text_eq_ok :
    StorageClass.integer.parse (.text bytes) = .ok (.integer i) ↔ readInteger? bytes = some i := by
  rw [parse_eq_ok]
  change (readInteger? bytes).map Value.integer = some (.integer i) ↔ _
  rw [Option.map_eq_some_iff]
  constructor
  · rintro ⟨j, read, same⟩
    rwa [← Value.integer.inj same]
  · intro read
    exact ⟨i, read, rfl⟩

theorem parse_text_eq_error (h : ∀ i, readInteger? bytes ≠ some i) : StorageClass.integer.parse (.text bytes) =
    .error (.valueParse (String.ofList (Utf8.decodeLossy bytes)) "integer") := by
  have outside : StorageClass.integer.normalise? (.text bytes) = none :=
    Option.map_eq_none_iff.mpr (Option.eq_none_iff_forall_ne_some.mpr h)
  exact parse_of_not_normalise? outside

/-- The numeral of an integer is read as that integer. -/
theorem readInteger?_ofInt (i : Int64) : readInteger? (Utf8.encode (Numeral.ofInt i.toInt)) = some i := by
  apply readInteger?_iff_stands.mpr
  refine ⟨_, rfl, [], Numeral.ofInt i.toInt, [], ?_, Numeral.spells_ofInt i.toInt, ?_, ?_⟩
  · simp
  · nofun
  · nofun

/-- A byte string is read as an integer just if it is the bytes of a text that spells that integer between white
space, and every other one is refused as it is shown; and an integer comes back from the text that it is bound
with and from the text that the text class shows for it. -/
theorem integer_of_text_iff :
    (∀ bytes i, StorageClass.integer.parse (.text bytes) = .ok (.integer i) ↔
      ∃ text, bytes = Utf8.encode text ∧ Stands i.toInt text) ∧
    (∀ bytes, (∃ (i : Int64) (text : List Char), bytes = Utf8.encode text ∧ Stands i.toInt text) ∨
      StorageClass.integer.parse (.text bytes) =
        .error (.valueParse (String.ofList (Utf8.decodeLossy bytes)) "integer")) ∧
    (∀ (t : IntType) (n : t.Carrier) (i : Int64), n.val = i.toInt →
      StorageClass.integer.parse (.text (Utf8.encode ((HostType.integer t).argument n).toList)) =
        .ok (.integer i)) ∧
    ∀ i, ∃ shown, StorageClass.text.parse (.integer i) = .ok shown ∧
      StorageClass.integer.parse shown.toRaw = .ok (.integer i) := by
  refine ⟨?_, ?_, ?_, ?_⟩
  · intro bytes i
    rw [parse_text_eq_ok, readInteger?_iff_stands]
  · intro bytes
    by_cases read : ∃ i, readInteger? bytes = some i
    · obtain ⟨i, read⟩ := read
      exact .inl ⟨i, readInteger?_iff_stands.mp read⟩
    · exact .inr (parse_text_eq_error (not_exists.mp read))
  · intro t n i same
    rw [HostType.argument_of_toRaw? (HostType.toRaw?_of_toInt same), parse_text_eq_ok, RawValue.describe,
      String.toList_ofList]
    exact readInteger?_ofInt i
  · intro i
    refine ⟨.text (RawValue.integer i).describe, rfl, ?_⟩
    rw [Value.toRaw, parse_text_eq_ok, RawValue.describe, String.toList_ofList]
    exact readInteger?_ofInt i

/-- A number with zeros and white space around it, and the least and the greatest number as they are bound. -/
theorem integer_of_padded_text :
    let padded : List Char := ['\u2003', '-', '0', '0', '4', '2', '\n']
    let least : IntType.int64.Carrier := ⟨-9223372036854775808, by decide⟩
    let greatest : IntType.uint64.Carrier := ⟨9223372036854775807, by decide⟩
    StorageClass.integer.parse (.text (Utf8.encode padded)) = .ok (.integer (-42)) ∧
      StorageClass.integer.parse (.text (Utf8.encode ((HostType.integer .int64).argument least).toList)) =
        .ok (.integer Int64.minValue) ∧
      StorageClass.integer.parse (.text (Utf8.encode ((HostType.integer .uint64).argument greatest).toList)) =
        .ok (.integer Int64.maxValue) := by
  intro padded least greatest
  obtain ⟨reads, -, bound, -⟩ := integer_of_text_iff
  refine ⟨(reads _ (-42)).mpr ⟨padded, rfl, ?_⟩, bound _ least _ rfl, bound _ greatest _ rfl⟩
  refine ⟨['\u2003'], ['-', '0', '0', '4', '2'], ['\n'], rfl, ?_, ?_, ?_⟩
  · have digits : Numeral.IsDigits ['0', '0', '4', '2'] := ⟨by simp, by simp⟩
    exact Numeral.Spells.minus digits
  · exact List.forall_mem_singleton.mpr rfl
  · exact List.forall_mem_singleton.mpr rfl

end StorageClass

end SqlSelect
