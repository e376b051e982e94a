import SqlSelect.Text.Numeral
/-!
Numerals written and read. A number is written with digits alone, and the reader takes exactly the texts that
spell a number: digits, with or without a sign before them.
-/

namespace SqlSelect.Numeral

/-! ## Writing -/

theorem ofNat_injective {n m : Nat} (h : ofNat n = ofNat m) : n = m := by
  have values := congrArg (Nat.ofDigitChars 10 · 0) h
  simpa only [ofNat, Nat.ofDigitChars_ten_toDigits] using values

theorem isDigit_of_mem_ofNat {n : Nat} {c : Char} (h : c ∈ ofNat n) : c.isDigit = true :=
  Nat.isDigit_of_mem_toDigits (by decide) (by decide) h

theorem isDigit_of_mem_ofInt {i : Int} {c : Char} (h : c ∈ ofInt i) : c = '-' ∨ c.isDigit = true := by
  cases i with
  | ofNat n => exact .inr (isDigit_of_mem_ofNat h)
  | negSucc n => exact (List.mem_cons.mp h).imp_right isDigit_of_mem_ofNat

/-! ## Spelling -/

/-- One or more digits. -/
def IsDigits (text : List Char) : Prop :=
  text ≠ [] ∧ ∀ c ∈ text, c.isDigit = true

/-- A text spells a number if it is the number's digits, perhaps with zeros before them, behind a sign or none. -/
inductive Spells : Int → List Char → Prop
  | bare {digits} : IsDigits digits → Spells (Nat.ofDigitChars 10 digits 0) digits
  | plus {digits} : IsDigits digits → Spells (Nat.ofDigitChars 10 digits 0) ('+' :: digits)
  | minus {digits} : IsDigits digits → Spells (-Nat.ofDigitChars 10 digits 0) ('-' :: digits)

theorem isDigits_ofNat (n : Nat) : IsDigits (ofNat n) :=
  ⟨Nat.toDigits_ne_nil, fun _ => isDigit_of_mem_ofNat⟩

theorem spells_ofInt (i : Int) : Spells i (ofInt i) := by
  cases i with
  | ofNat n =>
    have bare := Spells.bare (isDigits_ofNat n)
    rwa [ofNat, Nat.ofDigitChars_ten_toDigits] at bare
  | negSucc n =>
    have minus := Spells.minus (isDigits_ofNat (n + 1))
    rwa [ofNat, Nat.ofDigitChars_ten_toDigits] at minus

/-! ## Reading -/

theorem readFrom_eq_some {value n : Nat} {text : List Char} : readFrom value text = some n ↔
    (∀ c ∈ text, c.isDigit = true) ∧ Nat.ofDigitChars 10 text value = n := by
  induction text generalizing value with
  | nil => simp [readFrom]
  | cons c rest ih =>
    cases digit : c.isDigit with
    | false => simp [readFrom, digit?, digit]
    | true => simp [readFrom, digit?, digit, ih, Nat.ofDigitChars_cons, Nat.mul_comm]

theorem readNat?_eq_some {n : Nat} {text : List Char} :
    readNat? text = some n ↔ IsDigits text ∧ Nat.ofDigitChars 10 text 0 = n := by
  cases text with
  | nil => simp [readNat?, IsDigits]
  | cons c rest => simp only [readNat?, readFrom_eq_some, IsDigits, ne_eq, reduceCtorEq, not_false_eq_true, true_and]

theorem map_readNat?_eq_some {number : Nat → Int} {i : Int} {text : List Char} :
    (readNat? text).map number = some i ↔ IsDigits text ∧ number (Nat.ofDigitChars 10 text 0) = i := by
  constructor
  · intro h
    obtain ⟨n, read, rfl⟩ := Option.map_eq_some_iff.mp h
    obtain ⟨digits, rfl⟩ := readNat?_eq_some.mp read
    exact ⟨digits, rfl⟩
  · rintro ⟨digits, rfl⟩
    rw [readNat?_eq_some.mpr ⟨digits, rfl⟩, Option.map_some]

theorem readInt?_minus (rest : List Char) :
    readInt? ('-' :: rest) = (readNat? rest).map fun n : Nat => -(n : Int) := by
  cases read : readNat? rest <;> simp [readInt?, read]

theorem readInt?_plus (rest : List Char) :
    readInt? ('+' :: rest) = (readNat? rest).map fun n : Nat => (n : Int) := by
  cases read : readNat? rest <;> simp [readInt?, read]

theorem readInt?_bare {text : List Char} (minus : text.head? ≠ some '-') (plus : text.head? ≠ some '+') :
    readInt? text = (readNat? text).map fun n : Nat => (n : Int) := by
  unfold readInt?
  split
  · exact (minus rfl).elim
  · exact (plus rfl).elim
  · cases read : readNat? text <;> simp

theorem IsDigits.head?_ne {text : List Char} (digits : IsDigits text) {c : Char} (other : c.isDigit = false) :
    text.head? ≠ some c := by
  intro head
  simp [digits.2 c (List.mem_of_head? head)] at other

theorem readInt?_of_spells {i : Int} {text : List Char} (h : Spells i text) : readInt? text = some i := by
  cases h with
  | bare digits =>
    rw [readInt?_bare (digits.head?_ne (by decide)) (digits.head?_ne (by decide))]
    exact map_readNat?_eq_some.mpr ⟨digits, rfl⟩
  | plus digits =>
    rw [readInt?_plus]
    exact map_readNat?_eq_some.mpr ⟨digits, rfl⟩
  | minus digits =>
    rw [readInt?_minus]
    exact map_readNat?_eq_some.mpr ⟨digits, rfl⟩

theorem spells_of_readInt? {i : Int} {text : List Char} (h : readInt? text = some i) : Spells i text := by
  by_cases minus : text.head? = some '-'
  · obtain ⟨rest, rfl⟩ := List.head?_eq_some_iff.mp minus
    rw [readInt?_minus] at h
    obtain ⟨digits, rfl⟩ := map_readNat?_eq_some.mp h
    exact .minus digits
  by_cases plus : text.head? = some '+'
  · obtain ⟨rest, rfl⟩ := List.head?_eq_some_iff.mp plus
    rw [readInt?_plus] at h
    obtain ⟨digits, rfl⟩ := map_readNat?_eq_some.mp h
    exact .plus digits
  · rw [readInt?_bare minus plus] at h
    obtain ⟨digits, rfl⟩ := map_readNat?_eq_some.mp h
    exact .bare digits

/-- The reader takes the texts that spell a number, and reads each as that number. -/
theorem readInt?_eq_some_iff {i : Int} {text : List Char} : readInt? text = some i ↔ Spells i text :=
  ⟨spells_of_readInt?, readInt?_of_spells⟩

end SqlSelect.Numeral
