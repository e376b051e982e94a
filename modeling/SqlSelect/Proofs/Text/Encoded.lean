import Mathlib.Data.List.Basic
import SqlSelect.Proofs.Text.Utf8
/-!
Only the bytes of a text are read without a mark. A character that has begun is completed by bytes of the ranges
that its first byte leaves, and within these ranges the bytes are those of a character.
-/

namespace SqlSelect.Utf8

/-! ## The bytes of one character -/

section

variable {first second third fourth : UInt8}

/-- A byte that continues a character. -/
def Continues (b : UInt8) : Prop :=
  0x80 ≤ b.toNat ∧ b.toNat ≤ 0xBF

theorem val_ofNat {v : Nat} (valid : v.isValidChar) : (Char.ofNat v).val.toNat = v := by
  rw [Char.ofNat, dif_pos valid]
  rfl

theorem exists_one (low : first.toNat < 0x80) : ∃ c, String.utf8EncodeChar c = [first] := by
  refine ⟨Char.ofNat first.toNat, ?_⟩
  rw [String.utf8EncodeChar, val_ofNat (.inl (by omega)), if_pos (by omega), UInt8.ofNat_toNat]

theorem exists_two (low : 0xC2 ≤ first.toNat) (high : first.toNat < 0xE0) (next : Continues second) :
    ∃ c, String.utf8EncodeChar c = [first, second] := by
  unfold Continues at next
  obtain ⟨v, number⟩ : ∃ v, v = (first.toNat - 0xC0) * 64 + (second.toNat - 0x80) := ⟨_, rfl⟩
  have one : v / 64 % 32 + 192 = first.toNat := by omega
  have two : v % 64 + 128 = second.toNat := by omega
  refine ⟨Char.ofNat v, ?_⟩
  rw [String.utf8EncodeChar, val_ofNat (.inl (by omega)), if_neg (by omega), if_pos (by omega), one, two]
  simp only [UInt8.ofNat_toNat]

theorem exists_three (low : 0xE0 ≤ first.toNat) (high : first.toNat < 0xF0) (next : Continues second)
    (least : first.toNat = 0xE0 → 0xA0 ≤ second.toNat) (surrogates : first.toNat = 0xED → second.toNat ≤ 0x9F)
    (last : Continues third) : ∃ c, String.utf8EncodeChar c = [first, second, third] := by
  unfold Continues at next last
  obtain ⟨v, number⟩ : ∃ v, v = ((first.toNat - 0xE0) * 64 + (second.toNat - 0x80)) * 64 + (third.toNat - 0x80) :=
    ⟨_, rfl⟩
  have one : v / 4096 % 16 + 224 = first.toNat := by omega
  have two : v / 64 % 64 + 128 = second.toNat := by omega
  have three : v % 64 + 128 = third.toNat := by omega
  have valid : v.isValidChar := by
    unfold Nat.isValidChar
    omega
  refine ⟨Char.ofNat v, ?_⟩
  rw [String.utf8EncodeChar, val_ofNat valid, if_neg (by omega), if_neg (by omega), if_pos (by omega), one, two, three]
  simp only [UInt8.ofNat_toNat]

theorem exists_four (low : 0xF0 ≤ first.toNat) (high : first.toNat ≤ 0xF4) (next : Continues second)
    (least : first.toNat = 0xF0 → 0x90 ≤ second.toNat) (greatest : first.toNat = 0xF4 → second.toNat ≤ 0x8F)
    (later : Continues third) (last : Continues fourth) :
    ∃ c, String.utf8EncodeChar c = [first, second, third, fourth] := by
  unfold Continues at next later last
  obtain ⟨v, number⟩ : ∃ v, v = (((first.toNat - 0xF0) * 64 + (second.toNat - 0x80)) * 64 +
    (third.toNat - 0x80)) * 64 + (fourth.toNat - 0x80) := ⟨_, rfl⟩
  have one : v / 262144 % 8 + 240 = first.toNat := by omega
  have two : v / 4096 % 64 + 128 = second.toNat := by omega
  have three : v / 64 % 64 + 128 = third.toNat := by omega
  have four : v % 64 + 128 = fourth.toNat := by omega
  have valid : v.isValidChar := by
    unfold Nat.isValidChar
    omega
  refine ⟨Char.ofNat v, ?_⟩
  rw [String.utf8EncodeChar, val_ofNat valid, if_neg (by omega), if_neg (by omega), if_neg (by omega), one, two, three,
    four]
  simp only [UInt8.ofNat_toNat]

end

/-! ## Reading without a mark -/

/-- The reader finds no broken part from this state on. -/
def Whole (state : Option Pending) (bytes : List UInt8) : Prop :=
  none ∉ parts state bytes

/-- A pending character is completed, or the next byte takes it further. -/
theorem Whole.next {p : Pending} {bytes : List UInt8} (h : Whole (some p) bytes) :
    ∃ b rest, bytes = b :: rest ∧ p.accepts b = true ∧
      ((p.more = 0 ∧ Whole none rest) ∨
        ∃ more, p.more = more + 1 ∧ Whole (some ⟨p.extend b, 0x80, 0xBF, more⟩) rest) := by
  cases bytes with
  | nil => exact (h List.mem_cons_self).elim
  | cons b rest =>
    by_cases accepted : p.accepts b = true
    · refine ⟨b, rest, rfl, accepted, ?_⟩
      unfold Whole at h
      cases more : p.more with
      | zero =>
        rw [parts_last more accepted] at h
        exact .inl ⟨rfl, fun member => h (List.mem_cons_of_mem _ member)⟩
      | succ n =>
        rw [parts_next more accepted] at h
        exact .inr ⟨n, rfl, h⟩
    · have mark : none ∈ parts (some p) (b :: rest) := by
        simp only [parts, if_neg accepted]
        exact List.mem_cons_self
      exact (h mark).elim

/-- A character that has begun ends where its bytes do, if those that are taken always make a character. -/
theorem Whole.exists_char {p : Pending} {seen bytes : List UInt8} (h : Whole (some p) bytes)
    (complete : ∀ next tail, p.accepts next = true → tail.length = p.more → (∀ b ∈ tail, Continues b) →
      ∃ c, String.utf8EncodeChar c = seen ++ next :: tail) :
    ∃ c rest, seen ++ bytes = String.utf8EncodeChar c ++ rest := by
  induction left : p.more generalizing p seen bytes with
  | zero =>
    obtain ⟨b, rest, rfl, accepted, -⟩ := h.next
    obtain ⟨c, same⟩ := complete b [] accepted left.symm nofun
    exact ⟨c, rest, by simp [same]⟩
  | succ n ih =>
    obtain ⟨b, rest, rfl, accepted, ⟨last, -⟩ | ⟨more, later, whole⟩⟩ := h.next
    · omega
    have taken : ∀ next tail, Pending.accepts ⟨p.extend b, 0x80, 0xBF, more⟩ next = true → tail.length = more →
        (∀ b ∈ tail, Continues b) → ∃ c, String.utf8EncodeChar c = (seen ++ [b]) ++ next :: tail := by
      intro next tail accepted' length continues
      have continues' : ∀ b ∈ next :: tail, Continues b :=
        List.forall_mem_cons.mpr ⟨accepts_iff.mp accepted', continues⟩
      obtain ⟨c, same⟩ := complete b (next :: tail) accepted (by rw [List.length_cons, length, later]) continues'
      exact ⟨c, by simp [same]⟩
    obtain ⟨c, after, same⟩ := ih whole taken (Nat.succ.inj (later.symm.trans left))
    exact ⟨c, after, by simpa using same⟩

theorem start_complete {b : UInt8} {c : Char} (h : start b = .complete c) : b.toNat < 0x80 := by
  have classes := start_ofNat b.toNat_lt
  rw [UInt8.ofNat_toNat, h] at classes
  by_contra above
  rw [if_neg above] at classes
  repeat' split at classes
  all_goals cases classes

/-- What a first byte says: how many bytes are to come, and the range of the next. -/
theorem start_pending {b : UInt8} {p : Pending} (h : start b = .pending p) :
    (0xC2 ≤ b.toNat ∧ b.toNat < 0xE0 ∧ p.more = 0 ∧ ∀ next, p.accepts next = true → Continues next) ∨
    (0xE0 ≤ b.toNat ∧ b.toNat < 0xF0 ∧ p.more = 1 ∧ ∀ next, p.accepts next = true → Continues next ∧
      (b.toNat = 0xE0 → 0xA0 ≤ next.toNat) ∧ (b.toNat = 0xED → next.toNat ≤ 0x9F)) ∨
    (0xF0 ≤ b.toNat ∧ b.toNat ≤ 0xF4 ∧ p.more = 2 ∧ ∀ next, p.accepts next = true → Continues next ∧
      (b.toNat = 0xF0 → 0x90 ≤ next.toNat) ∧ (b.toNat = 0xF4 → next.toNat ≤ 0x8F)) := by
  have classes := start_ofNat b.toNat_lt
  rw [UInt8.ofNat_toNat, h] at classes
  by_cases two : b.toNat < 0xE0
  · left
    split at classes
    · cases classes
    split at classes
    · cases classes
    obtain rfl := Start.pending.inj classes
    exact ⟨by omega, two, rfl, fun next => accepts_iff.mp⟩
  right
  rw [if_neg (by omega), if_neg (by omega), if_neg two] at classes
  simp only [accepts_iff, Continues]
  by_cases three : b.toNat < 0xF0
  · left
    rw [if_pos three] at classes
    split at classes
    · obtain rfl := Start.pending.inj classes
      refine ⟨by omega, three, rfl, fun next range => ?_⟩
      change 0xA0 ≤ _ ∧ _ ≤ 0xBF at range
      omega
    split at classes
    · obtain rfl := Start.pending.inj classes
      refine ⟨by omega, three, rfl, fun next range => ?_⟩
      change 0x80 ≤ _ ∧ _ ≤ 0x9F at range
      omega
    · obtain rfl := Start.pending.inj classes
      refine ⟨by omega, three, rfl, fun next range => ?_⟩
      change 0x80 ≤ _ ∧ _ ≤ 0xBF at range
      omega
  · right
    rw [if_neg (by omega), if_neg (by omega), if_neg three] at classes
    split at classes
    · obtain rfl := Start.pending.inj classes
      refine ⟨by omega, by omega, rfl, fun next range => ?_⟩
      change 0x90 ≤ _ ∧ _ ≤ 0xBF at range
      omega
    split at classes
    · obtain rfl := Start.pending.inj classes
      refine ⟨by omega, by omega, rfl, fun next range => ?_⟩
      change 0x80 ≤ _ ∧ _ ≤ 0xBF at range
      omega
    split at classes
    · obtain rfl := Start.pending.inj classes
      refine ⟨by omega, by omega, rfl, fun next range => ?_⟩
      change 0x80 ≤ _ ∧ _ ≤ 0x8F at range
      omega
    · cases classes

/-- The bytes that a first byte lets in make a character with it. -/
theorem start_completes {b next : UInt8} {tail : List UInt8} {p : Pending} (h : start b = .pending p)
    (accepted : p.accepts next = true) (length : tail.length = p.more) (continues : ∀ b ∈ tail, Continues b) :
    ∃ c, String.utf8EncodeChar c = b :: next :: tail := by
  rcases start_pending h with ⟨low, high, more, range⟩ | ⟨low, high, more, range⟩ | ⟨low, high, more, range⟩
  · obtain rfl := List.length_eq_zero_iff.mp (length.trans more)
    exact exists_two low high (range next accepted)
  · obtain ⟨third, rfl⟩ := List.length_eq_one_iff.mp (length.trans more)
    obtain ⟨continued, least, surrogates⟩ := range next accepted
    exact exists_three low high continued least surrogates (continues third (by simp))
  · obtain ⟨third, fourth, rfl⟩ := List.length_eq_two.mp (length.trans more)
    obtain ⟨continued, least, greatest⟩ := range next accepted
    exact exists_four low high continued least greatest (continues third (by simp)) (continues fourth (by simp))

/-! ## Texts -/

theorem Whole.exists_first {b : UInt8} {bytes : List UInt8} (h : Whole none (b :: bytes)) :
    ∃ c rest, b :: bytes = String.utf8EncodeChar c ++ rest := by
  cases begun : start b with
  | complete c =>
    obtain ⟨c, same⟩ := exists_one (start_complete begun)
    exact ⟨c, bytes, by rw [same, List.singleton_append]⟩
  | pending p =>
    have taken : Whole (some p) bytes := by rwa [Whole, ← parts_start begun]
    exact @Whole.exists_char _ [b] _ taken fun next tail => start_completes begun
  | broken =>
    have mark : none ∈ parts none (b :: bytes) := by
      simp only [parts, begun]
      exact List.mem_cons_self
    exact (h mark).elim

/-- Bytes that are read without a mark are those of a text. -/
theorem Whole.exists_encode (bytes : List UInt8) (h : Whole none bytes) : ∃ text, bytes = encode text := by
  induction size : bytes.length using Nat.strongRecOn generalizing bytes with
  | ind n ih =>
    cases bytes with
    | nil => exact ⟨[], rfl⟩
    | cons b bytes =>
      obtain ⟨c, rest, split⟩ := h.exists_first
      rw [split, Whole, parts_utf8EncodeChar] at h
      have shorter : rest.length < n := by
        have positive := c.utf8Size_pos
        rw [← size, split, List.length_append, String.length_utf8EncodeChar]
        omega
      obtain ⟨text, rfl⟩ := ih _ shorter rest (fun member => h (List.mem_cons_of_mem _ member)) rfl
      exact ⟨c :: text, split⟩

/-- The valid byte strings are those of a text, and each is read as that text. -/
theorem decode?_eq_some_iff_encode {bytes : List UInt8} {text : List Char} :
    decode? bytes = some text ↔ bytes = encode text := by
  constructor
  · intro decoded
    have whole : Whole none bytes := by
      rw [Whole, decode?_eq_some_iff.mp decoded]
      simp
    obtain ⟨found, rfl⟩ := whole.exists_encode
    rw [decode?_encode] at decoded
    rw [Option.some.inj decoded]
  · rintro rfl
    exact decode?_encode text

end SqlSelect.Utf8
