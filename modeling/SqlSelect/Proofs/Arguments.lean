import SqlSelect.Proofs.Decimal.Positional
import SqlSelect.Proofs.Normalisation
import SqlSelect.Value.HostType
/-!
Arguments and `NULL`. An argument is text, so two values that are not null are bound as `NULL` as well: the text
that is spelled so, and a number beyond what the store can hold.
-/

namespace SqlSelect

/-! ## Texts of values -/

theorem Hexadecimal.exists_digit_of_mem {bytes : List UInt8} {c : Char} (h : c ∈ ofBytes bytes) :
    ∃ n < 16, c = digit n := by
  obtain ⟨b, -, member⟩ := List.mem_flatMap.mp h
  have bound := b.toNat_lt
  simp only [List.mem_cons, List.not_mem_nil, or_false] at member
  rcases member with rfl | rfl
  · exact ⟨b.toNat / 16, by omega, rfl⟩
  · exact ⟨b.toNat % 16, by omega, rfl⟩

theorem BinaryFormat.not_mem_text (f : BinaryFormat) (bits : Nat) : 'U' ∉ f.text bits := by
  intro member
  rcases f.text_cases bits with ⟨-, plain⟩ | ⟨-, word⟩
  · exact absurd (plain.mem member) (by decide)
  · have letters : ∀ text ∈ words, 'U' ∉ text := by decide
    exact letters _ word member

/-- No number and no bytes are shown as `NULL`: none of them has a `U`. -/
theorem RawValue.describe_ne_null {raw : RawValue} (present : raw ≠ .null) (other : ∀ bytes, raw ≠ .text bytes) :
    raw.describe ≠ "NULL" := by
  intro same
  have member : 'U' ∈ raw.describe.toList := by
    rw [same]
    decide
  cases raw with
  | null => exact present rfl
  | text bytes => exact other bytes rfl
  | integer i =>
    rw [describe, String.toList_ofList] at member
    rcases Numeral.isDigit_of_mem_ofInt member with sign | digit
    · exact absurd sign (by decide)
    · exact absurd digit (by decide)
  | real x =>
    rw [describe, String.toList_ofList] at member
    exact BinaryFormat.not_mem_text _ _ member
  | blob bytes =>
    rw [describe, String.toList_ofList] at member
    obtain ⟨n, bound, digit⟩ := Hexadecimal.exists_digit_of_mem member
    have letters : ∀ n < 16, 'U' ≠ Hexadecimal.digit n := by decide
    exact letters n bound digit

theorem Value.describe_toRaw_eq_null {v : Value} : v.toRaw.describe = "NULL" ↔ v = .null ∨ v = .text "NULL" := by
  cases v with
  | null => simp [toRaw, RawValue.describe]
  | text s => simp [describe_toRaw_text]
  | integer _ | real _ | blob _ =>
    refine iff_of_false (RawValue.describe_ne_null ?_ ?_) ?_
    · simp [toRaw]
    · simp [toRaw]
    · simp

namespace HostType

/-- Whether a value is null: an option without a value, at any depth, or the null of the store. -/
def isNull : (t : HostType) → t.Carrier → Bool
  | .optional _, none => true
  | .optional t, some value => t.isNull value
  | .dynamic, Value.null => true
  | _, _ => false

/-- The text that a value is, at any depth of options. -/
def text? : (t : HostType) → t.Carrier → Option String
  | .text, s => some s
  | .dynamic, Value.text s => some s
  | .optional t, some value => t.text? value
  | _, _ => none

/-- The whole number that a value is, at any depth of options. -/
def number? : (t : HostType) → t.Carrier → Option Int
  | .integer _, n => some n.val
  | .dynamic, Value.integer i => some i.toInt
  | .optional t, some value => t.number? value
  | _, _ => none

theorem argument_of_toRaw? {t : HostType} {value : t.Carrier} {raw : RawValue} (h : t.toRaw? value = some raw) :
    t.argument value = raw.describe := by
  unfold argument
  rw [h, Option.getD_some]

theorem argument_eq_null {t : HostType} {value : t.Carrier} {v : Value} (h : t.toRaw? value = some v.toRaw) :
    t.argument value = "NULL" ↔ v = .null ∨ v = .text "NULL" := by
  rw [argument_of_toRaw? h]
  exact Value.describe_toRaw_eq_null

theorem argument_ne_null {t : HostType} {value : t.Carrier} {raw : RawValue} (h : t.toRaw? value = some raw)
    (present : raw ≠ .null) (other : ∀ bytes, raw ≠ .text bytes) : t.argument value ≠ "NULL" := by
  rw [argument_of_toRaw? h]
  exact RawValue.describe_ne_null present other

theorem toRaw?_integer (t : IntType) (n : t.Carrier) : (HostType.integer t).toRaw? n =
    if -9223372036854775808 ≤ n.val ∧ n.val ≤ 9223372036854775807 then some (.integer (Int64.ofInt n.val))
    else none := rfl

theorem toRaw?_of_toInt {t : IntType} {n : t.Carrier} {i : Int64} (same : n.val = i.toInt) :
    (HostType.integer t).toRaw? n = some (.integer i) := by
  have low := i.le_toInt
  have high := i.toInt_lt
  rw [toRaw?_integer, if_pos (by omega), same, Int64.ofInt_toInt]

/-- The least number of every type is one of the store. -/
theorem exists_toInt_eq {t : IntType} (n : t.Carrier) (small : n.val ≤ 9223372036854775807) :
    ∃ i : Int64, n.val = i.toInt := by
  have lower := n.property.1
  have least : -9223372036854775808 ≤ n.val := by
    cases t <;> simp only [IntType.lower] at lower <;> omega
  exact ⟨Int64.ofInt n.val, (Int64.toInt_ofInt_of_le (by omega) (by omega)).symm⟩

theorem argument_integer_eq_null (t : IntType) (n : t.Carrier) :
    (HostType.integer t).argument n = "NULL" ↔ 9223372036854775807 < n.val := by
  by_cases large : 9223372036854775807 < n.val
  · have refused : (HostType.integer t).toRaw? n = none := by rw [toRaw?_integer, if_neg (by omega)]
    simp only [large, iff_true]
    unfold argument
    rw [refused]
    rfl
  · obtain ⟨i, same⟩ := exists_toInt_eq n (by omega)
    have shown : (HostType.integer t).toRaw? n = some (Value.integer i).toRaw := toRaw?_of_toInt same
    simp [argument_eq_null shown, large]

/-- A value is bound as `NULL` just if it is null, the text of that spelling, or a number beyond the store. -/
theorem argument_eq_null_iff (t : HostType) (value : t.Carrier) : t.argument value = "NULL" ↔
    t.isNull value = true ∨ t.text? value = some "NULL" ∨
      ∃ n, t.number? value = some n ∧ 9223372036854775807 < n := by
  induction t with
  | integer t =>
    apply (argument_integer_eq_null t value).trans
    simp [isNull, text?, number?]
  | boolean | single | double | bytes | fourBytes =>
    have bound : HostType.argument _ value ≠ "NULL" := by
      refine argument_ne_null rfl ?_ ?_
      · nofun
      · nofun
    simpa [isNull, text?, number?] using bound
  | text =>
    have bound : HostType.text.argument value = "NULL" ↔ _ := argument_eq_null (v := .text value) rfl
    constructor
    · intro null
      rcases bound.mp null with absent | spelled
      · exact nomatch absent
      · exact .inr (.inl (congrArg some (Value.text.inj spelled)))
    · rintro (absent | spelled | ⟨n, absent, -⟩)
      · exact nomatch absent
      · exact bound.mpr (.inr (congrArg Value.text (Option.some.inj spelled)))
      · exact nomatch absent
  | dynamic =>
    apply (argument_eq_null (v := value) rfl).trans
    cases value with
    | integer i =>
      have inside : ¬9223372036854775807 < i.toInt := by
        have high := i.toInt_lt
        omega
      simp [isNull, text?, number?, inside]
    | _ => simp [isNull, text?, number?]
  | optional t ih =>
    cases value with
    | none => exact iff_of_true rfl (.inl rfl)
    | some value => exact ih value

/-- The word and the first number beyond the store are bound as `NULL`, though neither of them is null. -/
theorem present_values_bound_as_null :
    let word : HostType.text.Carrier := "NULL"
    let beyond : IntType.uint64.Carrier := ⟨9223372036854775808, by decide⟩
    (HostType.text.argument word = "NULL" ∧ HostType.text.isNull word = false) ∧
      ((HostType.integer .uint64).argument beyond = "NULL" ∧
        (HostType.integer .uint64).isNull beyond = false) ∧
      ¬∀ (t : HostType) (value : t.Carrier), t.argument value = "NULL" ↔ t.isNull value = true := by
  intro word beyond
  have bound : HostType.text.argument word = "NULL" := by decide
  have present : HostType.text.isNull word = false := rfl
  refine ⟨⟨bound, present⟩, ⟨by decide, rfl⟩, ?_⟩
  intro told
  have null := (told .text word).mp bound
  rw [present] at null
  exact nomatch null

end HostType

end SqlSelect
