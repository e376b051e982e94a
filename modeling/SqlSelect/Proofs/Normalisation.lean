import SqlSelect.Proofs.Text.Utf8
import SqlSelect.Value.StorageClass
/-!
Normalised values. A storage class takes every value it admits to one of its own and leaves those, and `NULL`,
as they are.
-/

namespace SqlSelect

namespace Value

/-- The class of a value; `NULL` belongs to none. -/
def storage? : Value → Option StorageClass
  | null => none
  | integer _ => some .integer
  | real _ => some .real
  | text _ => some .text
  | blob _ => some .blob

/-- A text is shown as it is. -/
theorem describe_toRaw_text (s : String) : (text s).toRaw.describe = s := by
  simp [toRaw, RawValue.describe, Utf8.decodeLossy_of_decode? (Utf8.decode?_encode s.toList)]

end Value

namespace StorageClass

variable {c : StorageClass} {raw : RawValue} {v : Value}

/-- `NULL` is the only value that is normalised to `NULL`. -/
theorem eq_null_of_normalise? (h : c.normalise? raw = some .null) : raw = .null := by
  cases raw <;> cases c <;> simp [normalise?] at h ⊢

theorem storage?_of_normalise? (h : c.normalise? raw = some v) (present : raw ≠ .null) :
    v.storage? = some c := by
  cases raw with
  | null => exact (present rfl).elim
  | integer i | real x | blob bytes => cases c <;> cases h <;> rfl
  | text bytes =>
    cases c with
    | integer =>
      obtain ⟨i, -, rfl⟩ := Option.map_eq_some_iff.mp h
      rfl
    | real =>
      obtain ⟨x, -, rfl⟩ := Option.map_eq_some_iff.mp h
      rfl
    | text | blob =>
      obtain rfl := Option.some.inj h
      rfl

theorem normalise?_toRaw (own : v.storage? = some c) : c.normalise? v.toRaw = some v := by
  cases v with
  | null => exact nomatch own
  | text s =>
    obtain rfl : StorageClass.text = c := Option.some.inj own
    exact congrArg (some ∘ Value.text) (Value.describe_toRaw_text s)
  | integer i | real x | blob bytes =>
    obtain rfl := Option.some.inj own
    rfl

theorem parse_eq_ok : c.parse raw = .ok v ↔ c.normalise? raw = some v := by
  unfold parse
  cases c.normalise? raw <;> simp

theorem parse_of_not_normalise? (h : c.normalise? raw = none) :
    c.parse raw = .error (.valueParse raw.describe c.name) := by
  rw [parse, h]

/-- The values that a class leaves as they are: `NULL` and its own. -/
theorem parse_toRaw_iff : c.parse v.toRaw = .ok v ↔ v = .null ∨ v.storage? = some c := by
  rw [parse_eq_ok]
  constructor
  · intro same
    by_cases absent : v.toRaw = .null
    · rw [absent] at same
      exact .inl (Option.some.inj same).symm
    · exact .inr (storage?_of_normalise? same absent)
  · rintro (rfl | own)
    · rfl
    · exact normalise?_toRaw own

/-- `NULL` is normalised to `NULL`, and every other value that a class admits to one of the class. -/
theorem null_iff_of_parse (h : c.parse raw = .ok v) : v = .null ↔ raw = .null := by
  rw [parse_eq_ok] at h
  constructor
  · rintro rfl
    exact eq_null_of_normalise? h
  · rintro rfl
    exact (Option.some.inj h).symm

theorem storage?_of_parse (h : c.parse raw = .ok v) (present : v ≠ .null) : v.storage? = some c :=
  storage?_of_normalise? (parse_eq_ok.mp h) (mt (null_iff_of_parse h).mpr present)

/-- A class takes what it admits to `NULL` and values of its own, `NULL` from `NULL` alone; and these are the
values that it leaves as they are. -/
theorem parse_is_projection (c : StorageClass) :
    (∀ raw v, c.parse raw = .ok v →
      (v = .null ↔ raw = .null) ∧ (v ≠ .null → v.storage? = some c) ∧ c.parse v.toRaw = .ok v) ∧
      ∀ v, c.parse v.toRaw = .ok v ↔ v = .null ∨ v.storage? = some c := by
  constructor
  · intro raw v h
    refine ⟨null_iff_of_parse h, storage?_of_parse h, parse_toRaw_iff.mpr ?_⟩
    by_cases absent : v = .null
    · exact .inl absent
    · exact .inr (storage?_of_parse h absent)
  · intro v
    exact parse_toRaw_iff

/-- The last two of these bytes begin a character that does not end; what is shown for them stays. -/
theorem parse_broken_text :
    let broken : RawValue := .text [0x61, 0xE2, 0x82]
    let shown : Value := .text "a\uFFFD"
    StorageClass.text.parse broken = .ok shown ∧ shown.storage? = some .text ∧
      shown.toRaw = .text [0x61, 0xEF, 0xBF, 0xBD] ∧ StorageClass.text.parse shown.toRaw = .ok shown := by
  intro broken shown
  have normalised : StorageClass.text.parse broken = .ok shown := rfl
  obtain ⟨-, own, again⟩ := (parse_is_projection .text).1 broken shown normalised
  exact ⟨normalised, own nofun, by decide, again⟩

end StorageClass

end SqlSelect
