import SqlSelect.Text.Utf8
/-!
Encoded text is read back. The bytes of a character lead the reader through its pending states to that
character, and from there on it reads the next one.
-/

namespace SqlSelect.Utf8

theorem toNat_ofNat {n : Nat} (h : n < 256) : (UInt8.ofNat n).toNat = n := by
  rw [UInt8.toNat_ofNat', Nat.mod_eq_of_lt h]

/-! ## One byte -/

theorem start_ofNat {n : Nat} (h : n < 256) : start (UInt8.ofNat n) =
    if n < 0x80 then .complete (Char.ofNat n)
    else if n < 0xC2 then .broken
    else if n < 0xE0 then .pending ⟨n - 0xC0, 0x80, 0xBF, 0⟩
    else if n = 0xE0 then .pending ⟨0, 0xA0, 0xBF, 1⟩
    else if n = 0xED then .pending ⟨0xD, 0x80, 0x9F, 1⟩
    else if n < 0xF0 then .pending ⟨n - 0xE0, 0x80, 0xBF, 1⟩
    else if n = 0xF0 then .pending ⟨0, 0x90, 0xBF, 2⟩
    else if n < 0xF4 then .pending ⟨n - 0xF0, 0x80, 0xBF, 2⟩
    else if n = 0xF4 then .pending ⟨4, 0x80, 0x8F, 2⟩
    else .broken := by
  unfold start
  simp only [UInt8.lt_iff_toNat_lt, ← UInt8.toNat_inj]
  rw [toNat_ofNat h]
  rfl

theorem accepts_iff {p : Pending} {b : UInt8} :
    p.accepts b = true ↔ p.low.toNat ≤ b.toNat ∧ b.toNat ≤ p.high.toNat := by
  simp [Pending.accepts, UInt8.le_iff_toNat_le]

theorem accepts_tail (bits more v : Nat) :
    Pending.accepts ⟨bits, 0x80, 0xBF, more⟩ (UInt8.ofNat (v % 64 + 128)) = true := by
  rw [accepts_iff, toNat_ofNat (by omega)]
  change 128 ≤ _ ∧ _ ≤ 191
  omega

theorem extend_tail {p : Pending} {v : Nat} (bits : p.bits = v / 64) :
    p.extend (UInt8.ofNat (v % 64 + 128)) = v := by
  unfold Pending.extend
  rw [toNat_ofNat (by omega), bits]
  omega

theorem parts_start {p : Pending} {b : UInt8} (begun : start b = .pending p) (rest : List UInt8) :
    parts none (b :: rest) = parts (some p) rest := by
  simp only [parts, begun]

theorem parts_last {p : Pending} {b : UInt8} (last : p.more = 0) (accepted : p.accepts b = true)
    (rest : List UInt8) : parts (some p) (b :: rest) = some (Char.ofNat (p.extend b)) :: parts none rest := by
  simp only [parts, accepted, if_true, last]

theorem parts_next {p : Pending} {b : UInt8} {more : Nat} (next : p.more = more + 1)
    (accepted : p.accepts b = true) (rest : List UInt8) :
    parts (some p) (b :: rest) = parts (some ⟨p.extend b, 0x80, 0xBF, more⟩) rest := by
  simp only [parts, accepted, if_true, next]

/-! ## The bytes after the first

The character has the number `v`, and the bits above those to come are known. -/

section

variable {p : Pending} {v : Nat} (rest : List UInt8)

theorem parts_tail_one (more : p.more = 0) (bits : p.bits = v / 64)
    (accepted : p.accepts (UInt8.ofNat (v % 64 + 128)) = true) :
    parts (some p) (UInt8.ofNat (v % 64 + 128) :: rest) = some (Char.ofNat v) :: parts none rest := by
  rw [parts_last more accepted, extend_tail bits]

theorem parts_tail_two (more : p.more = 1) (bits : p.bits = v / 4096)
    (accepted : p.accepts (UInt8.ofNat (v / 64 % 64 + 128)) = true) :
    parts (some p) (UInt8.ofNat (v / 64 % 64 + 128) :: UInt8.ofNat (v % 64 + 128) :: rest) =
      some (Char.ofNat v) :: parts none rest := by
  have above : p.bits = v / 64 / 64 := by omega
  rw [parts_next more accepted, extend_tail above]
  exact parts_tail_one rest rfl rfl (accepts_tail _ _ v)

theorem parts_tail_three (more : p.more = 2) (bits : p.bits = v / 262144)
    (accepted : p.accepts (UInt8.ofNat (v / 4096 % 64 + 128)) = true) :
    parts (some p) (UInt8.ofNat (v / 4096 % 64 + 128) :: UInt8.ofNat (v / 64 % 64 + 128) ::
      UInt8.ofNat (v % 64 + 128) :: rest) = some (Char.ofNat v) :: parts none rest := by
  have above : p.bits = v / 4096 / 64 := by omega
  rw [parts_next more accepted, extend_tail above]
  exact parts_tail_two rest rfl rfl (accepts_tail _ _ _)

end

/-! ## Characters -/

theorem start_two {v : Nat} (low : 0x80 ≤ v) (high : v < 0x800) :
    start (UInt8.ofNat (v / 64 % 32 + 192)) = .pending ⟨v / 64, 0x80, 0xBF, 0⟩ := by
  have bits : v / 64 % 32 + 192 - 0xC0 = v / 64 := by omega
  rw [start_ofNat (by omega), if_neg (by omega), if_neg (by omega), if_pos (by omega), bits]

/-- The first of three bytes narrows the range of the second where fewer bytes would do, and where the
surrogates are. -/
theorem start_three {v : Nat} (low : 0x800 ≤ v) (high : v < 0xD800 ∨ 0xDFFF < v ∧ v < 0x10000) :
    ∃ p, start (UInt8.ofNat (v / 4096 % 16 + 224)) = .pending p ∧ p.more = 1 ∧ p.bits = v / 4096 ∧
      p.accepts (UInt8.ofNat (v / 64 % 64 + 128)) = true := by
  simp only [accepts_iff, toNat_ofNat (show v / 64 % 64 + 128 < 256 by omega)]
  rw [start_ofNat (by omega), if_neg (by omega), if_neg (by omega), if_neg (by omega)]
  by_cases least : v / 4096 % 16 + 224 = 0xE0
  · rw [if_pos least]
    refine ⟨_, rfl, rfl, ?_, ?_⟩
    · change 0 = _
      omega
    · change 160 ≤ _ ∧ _ ≤ 191
      omega
  by_cases surrogates : v / 4096 % 16 + 224 = 0xED
  · rw [if_neg least, if_pos surrogates]
    refine ⟨_, rfl, rfl, ?_, ?_⟩
    · change 13 = _
      omega
    · change 128 ≤ _ ∧ _ ≤ 159
      omega
  · have bits : v / 4096 % 16 + 224 - 0xE0 = v / 4096 := by omega
    rw [if_neg least, if_neg surrogates, if_pos (by omega), bits]
    refine ⟨_, rfl, rfl, rfl, ?_⟩
    change 128 ≤ _ ∧ _ ≤ 191
    omega

theorem start_four {v : Nat} (low : 0x10000 ≤ v) (high : v < 0x110000) :
    ∃ p, start (UInt8.ofNat (v / 262144 % 8 + 240)) = .pending p ∧ p.more = 2 ∧ p.bits = v / 262144 ∧
      p.accepts (UInt8.ofNat (v / 4096 % 64 + 128)) = true := by
  simp only [accepts_iff, toNat_ofNat (show v / 4096 % 64 + 128 < 256 by omega)]
  rw [start_ofNat (by omega), if_neg (by omega), if_neg (by omega), if_neg (by omega), if_neg (by omega),
    if_neg (by omega), if_neg (by omega)]
  by_cases least : v / 262144 % 8 + 240 = 0xF0
  · rw [if_pos least]
    refine ⟨_, rfl, rfl, ?_, ?_⟩
    · change 0 = _
      omega
    · change 144 ≤ _ ∧ _ ≤ 191
      omega
  by_cases below : v / 262144 % 8 + 240 < 0xF4
  · have bits : v / 262144 % 8 + 240 - 0xF0 = v / 262144 := by omega
    rw [if_neg least, if_pos below, bits]
    refine ⟨_, rfl, rfl, rfl, ?_⟩
    change 128 ≤ _ ∧ _ ≤ 191
    omega
  · rw [if_neg least, if_neg below, if_pos (by omega)]
    refine ⟨_, rfl, rfl, ?_, ?_⟩
    · change 4 = _
      omega
    · change 128 ≤ _ ∧ _ ≤ 143
      omega

theorem parts_utf8EncodeChar (c : Char) (rest : List UInt8) :
    parts none (String.utf8EncodeChar c ++ rest) = some c :: parts none rest := by
  have valid : c.val.toNat < 0xD800 ∨ 0xDFFF < c.val.toNat ∧ c.val.toNat < 0x110000 := c.valid
  have value : Char.ofNat c.val.toNat = c := Char.ofNat_toNat c
  rw [← congrArg some value]
  unfold String.utf8EncodeChar
  generalize c.val.toNat = v at valid ⊢
  dsimp only
  split
  · have begun : start (UInt8.ofNat v) = .complete (Char.ofNat v) := by
      rw [start_ofNat (by omega), if_pos (by omega)]
    simp only [List.singleton_append, parts, begun]
  split
  · have begun := start_two (show 0x80 ≤ v by omega) (by omega)
    exact (parts_start begun _).trans (parts_tail_one rest rfl rfl (accepts_tail _ _ v))
  split
  · obtain ⟨p, begun, more, bits, accepted⟩ := start_three (show 0x800 ≤ v by omega) (by omega)
    exact (parts_start begun _).trans (parts_tail_two rest more bits accepted)
  · obtain ⟨p, begun, more, bits, accepted⟩ := start_four (show 0x10000 ≤ v by omega) (by omega)
    exact (parts_start begun _).trans (parts_tail_three rest more bits accepted)

/-! ## Texts -/

theorem parts_encode (text : List Char) : parts none (encode text) = text.map some := by
  induction text with
  | nil => rfl
  | cons c text ih =>
    rw [encode, List.flatMap_cons, parts_utf8EncodeChar]
    exact congrArg (some c :: ·) ih

theorem mapM_id_eq_some_iff {found : List (Option Char)} {text : List Char} :
    found.mapM id = some text ↔ found = text.map some := by
  induction found generalizing text with
  | nil => cases text <;> simp
  | cons first found ih =>
    cases first with
    | none => cases text <;> simp
    | some c => cases text <;> simp [Option.bind_eq_some_iff, ih, and_left_comm]

theorem decode?_eq_some_iff {bytes : List UInt8} {text : List Char} :
    decode? bytes = some text ↔ parts none bytes = text.map some :=
  mapM_id_eq_some_iff

/-- Every text is read back from its bytes. -/
theorem decode?_encode (text : List Char) : decode? (encode text) = some text :=
  decode?_eq_some_iff.mpr (parts_encode text)

theorem decodeLossy_of_decode? {bytes : List UInt8} {text : List Char} (h : decode? bytes = some text) :
    decodeLossy bytes = text := by
  rw [decodeLossy, decode?_eq_some_iff.mp h, List.map_map]
  exact text.map_id

/-- A text that is shown without the mark of a broken part is not broken. -/
theorem decode?_of_not_mem {bytes : List UInt8} (whole : '\uFFFD' ∉ decodeLossy bytes) :
    decode? bytes = some (decodeLossy bytes) := by
  have unbroken : ∀ part ∈ parts none bytes, some (part.getD '\uFFFD') = part := by
    intro part member
    cases part with
    | some c => rfl
    | none => exact (whole (List.mem_map.mpr ⟨none, member, rfl⟩)).elim
  rw [decode?_eq_some_iff, decodeLossy, List.map_map]
  exact ((List.map_congr_left unbroken).trans (List.map_id _)).symm

end SqlSelect.Utf8
