import SqlSelect.Function.Catalogue
import SqlSelect.Function.Literal
/-!
Columns built with the catalogue of functions. Whatever the nesting, a column promises the storage class
that belongs to the type it is read into: a function either states its class along with its result type,
or takes both from its operand.
-/

namespace SqlSelect

namespace Catalogue

/-- Columns made from some first columns by the functions of the catalogue, nested in any way. -/
inductive Built (first : (t : HostType) → TypedColumn t → Prop) : (t : HostType) → TypedColumn t → Prop
  | base {t} {c : TypedColumn t} : first t c → Built first t c
  | withAlias {t} {c : TypedColumn t} (name : String) : Built first t c → Built first t (c.withAlias name)
  | avg {t} {c : TypedColumn t} (numeric : t.isNumeric) :
      Built first t c → Built first .double (avg c numeric)
  | avgDistinct {t} {c : TypedColumn t} (numeric : t.isNumeric) :
      Built first t c → Built first .double (avgDistinct c numeric)
  | count {t} {c : TypedColumn t} : Built first t c → Built first countType (count c)
  | countAll : Built first countType countAll
  | countDistinct {t} {c : TypedColumn t} : Built first t c → Built first countType (countDistinct c)
  | groupConcat {t} {c : TypedColumn t} : Built first t c → Built first .text (groupConcat c)
  | groupConcatWith {t} {c : TypedColumn t} (separator : String) :
      Built first t c → Built first .text (groupConcatWith c separator)
  | groupConcatDistinct {t} {c : TypedColumn t} :
      Built first t c → Built first .text (groupConcatDistinct c)
  | max {t} {c : TypedColumn t} : Built first t c → Built first t (max c)
  | maxDistinct {t} {c : TypedColumn t} : Built first t c → Built first t (maxDistinct c)
  | min {t} {c : TypedColumn t} : Built first t c → Built first t (min c)
  | minDistinct {t} {c : TypedColumn t} : Built first t c → Built first t (minDistinct c)
  | sum {t} {c : TypedColumn t} (numeric : t.isNumeric) :
      Built first t c → Built first .double (sum c numeric)
  | sumDistinct {t} {c : TypedColumn t} (numeric : t.isNumeric) :
      Built first t c → Built first .double (sumDistinct c numeric)
  | concat (operands : List ((t : HostType) × TypedColumn t)) :
      (∀ o ∈ operands, Built first o.1 o.2) →
      Built first .text (concat (operands.map fun o => o.2.column))
  | abs {t} {c : TypedColumn t} (numeric : t.isNumeric) : Built first t c → Built first t (abs c numeric)
  | length {t} {c : TypedColumn t} : Built first t c → Built first countType (length c)
  | lower {t} {c : TypedColumn t} (textual : t.isTextual) :
      Built first t c → Built first .text (lower c textual)
  | upper {t} {c : TypedColumn t} (textual : t.isTextual) :
      Built first t c → Built first .text (upper c textual)

/-- The columns to begin with: stored ones whose class follows their type, literals and bound values. -/
inductive Source : (t : HostType) → TypedColumn t → Prop
  | stored (t : HostType) (h : t.storage?.isSome) (table : Table) (name : String) :
      Source t (.of t h table name)
  | literal (l : Literal) : Source l.type l.column
  | bound (t : HostType) (h : t.storage?.isSome) (value : t.Carrier) : Source t (.bound t h value)

theorem Source.storage {t : HostType} {c : TypedColumn t} (h : Source t c) :
    t.storage? = some c.column.info.storage := by
  cases h with
  | stored _ h table name => exact (Option.some_get h).symm
  | bound _ h value => exact (Option.some_get h).symm
  | literal l =>
    cases l with
    | integer t stored i => exact if_pos stored
    | single x => rfl
    | double x => rfl
    | text s => rfl

theorem storage_withAlias (c : Column) (name : String) : (c.withAlias name).info.storage = c.info.storage := by
  cases c <;> rfl

/-- A built column promises the class of its type if the columns it is made from do. -/
theorem Built.storage {first : (t : HostType) → TypedColumn t → Prop}
    (kept : ∀ t c, first t c → t.storage? = some c.column.info.storage) {t : HostType} {c : TypedColumn t}
    (h : Built first t c) : t.storage? = some c.column.info.storage := by
  induction h with
  | base h => exact kept _ _ h
  | withAlias name _ ih => exact ih.trans (congrArg some (storage_withAlias _ name).symm)
  | max _ ih | maxDistinct _ ih | min _ ih | minDistinct _ ih | abs _ _ ih => exact ih
  | _ => rfl

end Catalogue

end SqlSelect
