import SqlSelect.Proofs.Decoding
/-!
Columns that may be `NULL` against types that have one. A stored column takes its nullability from its type; most
functions are declared to give `NULL` whatever they are read into, and the type alone decides what becomes of it.
-/

namespace SqlSelect

/-! ## What a `NULL` is read into -/

namespace HostType

theorem fromRaw?_null_of_bare {t : HostType} (stored : t.storage?.isSome = true) (bare : t.isNullable = false) :
    t.fromRaw? .null = none := by
  cases t with
  | dynamic => contradiction
  | optional t => contradiction
  | _ => rfl

theorem fromRaw?_null_of_nullable {t : HostType} (nullable : t.isNullable = true) :
    ∃ value, t.fromRaw? .null = some value ∧ t.toRaw? value = some .null := by
  cases t with
  | optional t => exact ⟨none, rfl, rfl⟩
  | _ => contradiction

end HostType

namespace Decoder

variable {d : Decoder}

theorem decode_null_of_bare (stored : d.type.storage?.isSome = true) (bare : d.type.isNullable = false) :
    d.decode .null = .error (.unexpectedNull d.name) := by
  have parsed : d.storage.parse .null = .ok .null := by cases d.storage <;> rfl
  simp only [decode, parsed, HostType.fromRaw?_null_of_bare stored bare]

theorem decode_null_of_nullable (nullable : d.type.isNullable = true) :
    ∃ value, d.decode .null = .ok value ∧ d.type.toRaw? value = some .null := by
  have parsed : d.storage.parse .null = .ok .null := by cases d.storage <;> rfl
  obtain ⟨value, read, absent⟩ := HostType.fromRaw?_null_of_nullable nullable
  exact ⟨value, by simp only [decode, parsed, read], absent⟩

/-- Whether a `NULL` is refused is up to the type alone. -/
theorem refuses_null_iff (stored : d.type.storage?.isSome = true) :
    (∃ name, d.decode .null = .error (.unexpectedNull name)) ↔ d.type.isNullable = false := by
  constructor
  · rintro ⟨name, refused⟩
    cases own : d.type.isNullable with
    | false => rfl
    | true =>
      obtain ⟨value, read, -⟩ := decode_null_of_nullable own
      exact nomatch read.symm.trans refused
  · intro bare
    exact ⟨d.name, decode_null_of_bare stored bare⟩

end Decoder

/-! ## What a column is declared to give -/

namespace Catalogue

/-- The columns that are declared to give `NULL` and are read into a type that has none, by the outermost function
below the aliases. -/
inductive Exposed : (t : HostType) → TypedColumn t → Prop
  | withAlias {t} {c : TypedColumn t} (name : String) : Exposed t c → Exposed t (c.withAlias name)
  | avg {t} {c : TypedColumn t} (numeric : t.isNumeric) : Exposed .double (avg c numeric)
  | avgDistinct {t} {c : TypedColumn t} (numeric : t.isNumeric) : Exposed .double (avgDistinct c numeric)
  | max {t} {c : TypedColumn t} : t.isNullable = false → Exposed t (max c)
  | maxDistinct {t} {c : TypedColumn t} : t.isNullable = false → Exposed t (maxDistinct c)
  | min {t} {c : TypedColumn t} : t.isNullable = false → Exposed t (min c)
  | minDistinct {t} {c : TypedColumn t} : t.isNullable = false → Exposed t (minDistinct c)
  | concat (columns : List Column) : Exposed .text (concat columns)
  | abs {t} {c : TypedColumn t} (numeric : t.isNumeric) : t.isNullable = false → Exposed t (abs c numeric)
  | length {t} {c : TypedColumn t} : Exposed countType (length c)
  | lower {t} {c : TypedColumn t} (textual : t.isTextual) : Exposed .text (lower c textual)
  | upper {t} {c : TypedColumn t} (textual : t.isTextual) : Exposed .text (upper c textual)

theorem nullable_withAlias (c : Column) (name : String) :
    (c.withAlias name).info.nullable = c.info.nullable := by
  cases c <;> rfl

theorem Exposed.nullable {t : HostType} {c : TypedColumn t} (h : Exposed t c) :
    c.column.info.nullable = true ∧ t.isNullable = false := by
  induction h with
  | withAlias name _ ih => exact ⟨(nullable_withAlias _ name).trans ih.1, ih.2⟩
  | max bare | maxDistinct bare | min bare | minDistinct bare | abs _ bare => exact ⟨rfl, bare⟩
  | _ => exact ⟨rfl, rfl⟩

theorem Source.nullable {t : HostType} {c : TypedColumn t} (h : Source t c) :
    c.column.info.nullable = t.isNullable := by
  cases h with
  | stored _ _ table name => rfl
  | bound _ _ value => rfl
  | literal l => cases l <;> rfl

/-- The nullability of a built column is that of its type, unless it is exposed. -/
theorem Built.nullable_or_exposed {first : (t : HostType) → TypedColumn t → Prop}
    (kept : ∀ t c, first t c → c.column.info.nullable = t.isNullable) {t : HostType} {c : TypedColumn t}
    (h : Built first t c) : c.column.info.nullable = t.isNullable ∨ Exposed t c := by
  -- a function that keeps its operand's type is exposed just if that type has no `NULL`
  have keeping {t : HostType} {c : TypedColumn t} (declared : c.column.info.nullable = true)
      (exposed : t.isNullable = false → Exposed t c) :
      c.column.info.nullable = t.isNullable ∨ Exposed t c := by
    cases own : t.isNullable with
    | true => exact .inl declared
    | false => exact .inr (exposed own)
  induction h with
  | base h => exact .inl (kept _ _ h)
  | withAlias name _ ih => exact ih.imp (nullable_withAlias _ name).trans (.withAlias name)
  | avg numeric => exact .inr (.avg numeric)
  | avgDistinct numeric => exact .inr (.avgDistinct numeric)
  | max => exact keeping rfl .max
  | maxDistinct => exact keeping rfl .maxDistinct
  | min => exact keeping rfl .min
  | minDistinct => exact keeping rfl .minDistinct
  | concat operands => exact .inr (.concat _)
  | abs numeric => exact keeping rfl (.abs numeric)
  | length => exact .inr .length
  | lower textual => exact .inr (.lower textual)
  | upper textual => exact .inr (.upper textual)
  | count | countAll | countDistinct | groupConcat | groupConcatWith | groupConcatDistinct => exact .inl rfl
  | sum | sumDistinct => exact .inl rfl

end Catalogue

namespace Statement

open Catalogue (Built Exposed Source)

/-- A `NULL` for a single column of the catalogue is refused, under the column's output name, if the type has none,
and is read as one otherwise. So it is refused for every column that is not nullable; and for no other, unless the
column is exposed. -/
theorem null_refused_iff {t : HostType} {c : TypedColumn t} (built : Built Source t c) (s : Statement)
    (single : s.projection = .single t c) (way : Compilation) :
    let d : Decoder := ⟨t, c.column.outputName, c.column.info.storage⟩
    let refused := ∃ name, d.decode .null = .error (.unexpectedNull name)
    (s.compileBy way).decoder? = some d ∧
      (t.isNullable = false → d.decode .null = .error (.unexpectedNull c.column.outputName)) ∧
      (t.isNullable = true → ∃ value, d.decode .null = .ok value ∧ t.toRaw? value = some .null) ∧
      (c.column.info.nullable = false → refused) ∧
      ((refused ↔ c.column.info.nullable = false) ↔ ¬ Exposed t c) := by
  intro d refused
  have stored : t.storage?.isSome = true := by
    rw [built.storage fun _ _ h => h.storage]
    rfl
  have refuses : refused ↔ t.isNullable = false := Decoder.refuses_null_iff (d := d) stored
  have declared := built.nullable_or_exposed fun _ _ h => h.nullable
  refine ⟨?_, Decoder.decode_null_of_bare (d := d) stored, Decoder.decode_null_of_nullable (d := d), ?_, ?_⟩
  · rw [s.decoder_compileBy way, single]
    rfl
  · intro strict
    rcases declared with own | exposed
    · exact refuses.mpr (own ▸ strict)
    · exact refuses.mpr exposed.nullable.2
  · rw [refuses]
    constructor
    · intro agree exposed
      have strict := agree.mp exposed.nullable.2
      exact nomatch strict.symm.trans exposed.nullable.1
    · intro unexposed
      rw [declared.resolve_right unexposed]

/-- The total of amounts that may be missing is never missing itself. -/
theorem null_refused_for_total :
    let amount : TypedColumn (.optional (.integer .int64)) := .of _ rfl (.named "payment") "amount"
    let total := (Catalogue.sum amount rfl).withAlias "total"
    let s := select false (.single _ total) (.named "payment")
    let d : Decoder := ⟨.double, "total", .real⟩
    Built Source _ total ∧ s.projection = .single _ total ∧ (s.compile .standard).decoder? = some d ∧
      d.decode .null = .error (.unexpectedNull "total") ∧ total.column.info.nullable = false ∧
      ¬ Exposed _ total := by
  intro amount total s d
  have built : Built Source _ total := .withAlias "total" (.sum rfl (.base (.stored _ rfl (.named "payment") "amount")))
  obtain ⟨decoder, rejects, -, strict, exact⟩ := null_refused_iff built s rfl (.under .standard)
  refine ⟨built, rfl, decoder, rejects rfl, rfl, exact.mp ?_⟩
  exact iff_of_true (strict rfl) rfl

/-- The average over no rows is `NULL`, and declared to be, but read into a type that has none. -/
theorem null_refused_though_declared :
    let age : TypedColumn (.integer .int64) := .of _ rfl (.named "person") "age"
    let average := Catalogue.avg age rfl
    let s := select false (.single _ average) (.named "person")
    Built Source _ average ∧ average.column.info.nullable = true ∧
      ∃ d, (s.compile .standard).decoder? = some d ∧
        d.decode .null = .error (.unexpectedNull "avg(person.age)") ∧
        ¬ ((∃ name, d.decode .null = .error (.unexpectedNull name)) ↔ average.column.info.nullable = false) := by
  intro age average s
  refine ⟨.avg rfl (.base (.stored _ rfl (.named "person") "age")), rfl, ⟨.double, "avg(person.age)", .real⟩, ?_⟩
  refine ⟨by decide, rfl, ?_⟩
  intro claimed
  exact nomatch claimed.mp ⟨_, rfl⟩

end Statement

end SqlSelect
