import SqlSelect.Proofs.Catalogue
import SqlSelect.Proofs.Normalisation
import SqlSelect.Proofs.Statement.Results
/-!
Decoding against direct reading. A column of the catalogue first normalises a value to the class of its
type, which loses nothing that the type could have read from the value itself.
-/

namespace SqlSelect

namespace HostType

/-- The types that read the value of their storage class as they would have read the value itself. A single
is not among them: an integer is rounded to a double before it is rounded again. -/
def readsDirectly : HostType → Bool
  | .integer _ | .boolean | .double | .text | .bytes => true
  | .single | .fourBytes | .dynamic => false
  | .optional t => t.readsDirectly

theorem fromRaw?_text (bytes : List UInt8) :
    HostType.text.fromRaw? (.text bytes) = (Utf8.decode? bytes).map String.ofList := rfl

theorem fromRaw?_optional {t : HostType} {raw : RawValue} (present : raw ≠ .null) :
    (HostType.optional t).fromRaw? raw = (t.fromRaw? raw).map some := by
  cases raw with
  | null => exact (present rfl).elim
  | _ => rfl

/-- What a type reads from a value, it also reads from the value in the class of the type. -/
theorem fromRaw?_normalise {t : HostType} (direct : t.readsDirectly = true) {c : StorageClass}
    (own : t.storage? = some c) {raw : RawValue} (present : raw ≠ .null) {value : t.Carrier}
    (h : t.fromRaw? raw = some value) :
    ∃ v, c.normalise? raw = some v ∧ t.fromRaw? v.toRaw = some value := by
  induction t with
  | integer t =>
    obtain ⟨-, rfl⟩ : t.isStored = true ∧ StorageClass.integer = c := by simpa [storage?] using own
    cases raw with
    | integer i => exact ⟨.integer i, rfl, h⟩
    | _ => cases h
  | boolean =>
    obtain rfl : StorageClass.integer = c := by simpa [storage?] using own
    cases raw with
    | integer i => exact ⟨.integer i, rfl, h⟩
    | _ => cases h
  | double =>
    obtain rfl : StorageClass.real = c := by simpa [storage?] using own
    cases raw with
    | integer i => exact ⟨.real (.ofInt i.toInt), rfl, h⟩
    | real x => exact ⟨.real x, rfl, h⟩
    | _ => cases h
  | text =>
    obtain rfl : StorageClass.text = c := by simpa [storage?] using own
    cases raw with
    | text bytes =>
      -- a text that is read at all is valid, so showing it leniently changes nothing
      obtain ⟨chars, decoded, rfl⟩ := Option.map_eq_some_iff.mp h
      refine ⟨.text (String.ofList chars), ?_, ?_⟩
      · rw [← Utf8.decodeLossy_of_decode? decoded]
        rfl
      · rw [Value.toRaw, fromRaw?_text, String.toList_ofList, Utf8.decode?_encode]
        rfl
    | _ => cases h
  | bytes =>
    obtain rfl : StorageClass.blob = c := by simpa [storage?] using own
    cases raw with
    | blob bytes => exact ⟨.blob bytes, rfl, h⟩
    | _ => cases h
  | optional t ih =>
    rw [fromRaw?_optional present] at h
    obtain ⟨inner, read, rfl⟩ := Option.map_eq_some_iff.mp h
    obtain ⟨v, normalised, readBack⟩ := ih direct own read
    have present' : v.toRaw ≠ .null := by
      intro absent
      cases v with
      | null => exact present (StorageClass.eq_null_of_normalise? normalised)
      | _ => cases absent
    refine ⟨v, normalised, ?_⟩
    rw [fromRaw?_optional present', readBack]
    rfl
  | single | fourBytes | dynamic => contradiction

theorem read_eq_ok {t : HostType} {raw : RawValue} {value : t.Carrier} :
    t.read raw = .ok value ↔ t.fromRaw? raw = some value := by
  unfold read
  cases t.fromRaw? raw <;> simp

theorem read_eq_error {t : HostType} {raw : RawValue} {e : ReadError} :
    t.read raw = .error e ↔ t.fromRaw? raw = none ∧ e = .valueParse raw.describe t.label := by
  unfold read
  cases t.fromRaw? raw <;> simp [eq_comm]

end HostType

namespace Decoder

/-- A value that is present is normalised, and read from its class. -/
theorem decode_of_normalise? {d : Decoder} {raw : RawValue} (present : raw ≠ .null) {v : Value}
    (h : d.storage.normalise? raw = some v) : d.decode raw = d.type.read v.toRaw := by
  have kept : v ≠ .null := by
    rintro rfl
    exact present (StorageClass.eq_null_of_normalise? h)
  unfold decode StorageClass.parse
  rw [h]
  cases v with
  | null => exact (kept rfl).elim
  | _ => rfl

theorem decode_of_not_normalise? {d : Decoder} {raw : RawValue} (h : d.storage.normalise? raw = none) :
    d.decode raw = .error (.valueParse raw.describe d.storage.name) := by
  unfold decode StorageClass.parse
  rw [h]

theorem decode_eq_error {d : Decoder} {raw : RawValue} (present : raw ≠ .null) {e : ReadError}
    (h : d.decode raw = .error e) :
    (d.storage.normalise? raw = none ∧ e = .valueParse raw.describe d.storage.name) ∨
      ∃ v, d.storage.normalise? raw = some v ∧ e = .valueParse v.toRaw.describe d.type.label := by
  cases normalised : d.storage.normalise? raw with
  | none =>
    rw [decode_of_not_normalise? normalised] at h
    exact .inl ⟨rfl, (Except.error.inj h).symm⟩
  | some v =>
    rw [decode_of_normalise? present normalised] at h
    exact .inr ⟨v, rfl, (HostType.read_eq_error.mp h).2⟩

end Decoder

namespace Statement

/-- A statement for one column of the catalogue, compiled in any way, reads every value that is present to
what its type reads from the value directly; where it reads nothing, the error names the class with the
value, or the type with the value in that class. -/
theorem decode_agrees_with_reading {t : HostType} {c : TypedColumn t}
    (built : Catalogue.Built Catalogue.Source t c) (direct : t.readsDirectly = true) (s : Statement)
    (single : s.projection = .single t c) (way : Compilation) :
    let d : Decoder := ⟨t, c.column.outputName, c.column.info.storage⟩
    t.storage? = some c.column.info.storage ∧ (s.compileBy way).decoder? = some d ∧
      ∀ raw, raw ≠ .null →
        (∀ value, t.read raw = .ok value → d.decode raw = .ok value) ∧
        (∀ name, d.decode raw ≠ .error (.unexpectedNull name)) ∧
        ∀ e, d.decode raw = .error e →
          (d.storage.normalise? raw = none ∧ e = .valueParse raw.describe d.storage.name) ∨
            ∃ v, d.storage.normalise? raw = some v ∧ e = .valueParse v.toRaw.describe t.label := by
  intro d
  have own : t.storage? = some c.column.info.storage := built.storage fun _ _ h => h.storage
  refine ⟨own, ?_, fun raw present => ⟨?_, ?_, ?_⟩⟩
  · rw [s.decoder_compileBy way, single]
    rfl
  · intro value read
    obtain ⟨v, normalised, same⟩ := HostType.fromRaw?_normalise direct own present (HostType.read_eq_ok.mp read)
    exact (Decoder.decode_of_normalise? (d := d) present normalised).trans (HostType.read_eq_ok.mpr same)
  · intro name refused
    rcases Decoder.decode_eq_error present refused with ⟨-, named⟩ | ⟨v, -, named⟩
    · exact nomatch named
    · exact nomatch named
  · intro e refused
    exact Decoder.decode_eq_error present refused

/-- The largest change of an account, up or down, in a byte. -/
def largestChange : TypedColumn (.optional (.integer .int8)) :=
  (Catalogue.max (Catalogue.abs (.of _ rfl (.named "account") "change") rfl)).withAlias "largest"

theorem decode_largestChange :
    let s := select false (.single _ largestChange) (.named "account")
    let d : Decoder := ⟨.optional (.integer .int8), "largest", .integer⟩
    Catalogue.Built Catalogue.Source _ largestChange ∧
      (HostType.optional (.integer .int8)).readsDirectly = true ∧ s.projection = .single _ largestChange ∧
      (s.compileBy (.under .standard)).decoder? = some d ∧
      d.decode (.integer 100) = .ok (some ⟨100, by decide⟩) ∧
      d.decode (.integer 200) = .error (.valueParse "200" "core::option::Option<i8>") ∧
      ∀ name, d.decode (.text []) ≠ .error (.unexpectedNull name) := by
  intro s d
  have built : Catalogue.Built Catalogue.Source _ largestChange :=
    .withAlias "largest" (.max (.abs rfl (.base (.stored _ rfl (.named "account") "change"))))
  obtain ⟨-, compiled, reads⟩ := decode_agrees_with_reading built rfl s rfl (.under .standard)
  refine ⟨built, rfl, rfl, compiled, ?_, ?_, ?_⟩
  · exact (reads (.integer 100) (by decide)).1 _ rfl
  · exact rfl
  · exact (reads (.text []) (by decide)).2.1

end Statement

end SqlSelect
