import SqlSelect.Function.Basic
import SqlSelect.Text.Basic
/-!
The catalogue of functions. Aggregates over an empty group and most scalars may give `NULL`; counts,
totals and concatenated groups are declared not to.
-/

namespace SqlSelect

namespace Catalogue

variable {t : HostType}

def countType : HostType :=
  .integer .int64

def unary (f : FunctionSpec) (c : TypedColumn t) (nullable : Bool) (result : HostType) :
    TypedColumn result :=
  f.apply [c.column] nullable result

def avg (c : TypedColumn t) (_numeric : t.isNumeric) : TypedColumn .double :=
  unary (.named "avg" (.always .real)) c true .double

def avgDistinct (c : TypedColumn t) (_numeric : t.isNumeric) : TypedColumn .double :=
  unary (FunctionSpec.named "avg" (.always .real)).overDistinct c true .double

def count (c : TypedColumn t) : TypedColumn countType :=
  unary (.named "count" (.always .integer)) c false countType

def countAll : TypedColumn countType :=
  (FunctionSpec.named "count" (.always .integer)).apply
    [.literal ⟨.anonymous, none, .integer, false⟩ "*"] false countType

def countDistinct (c : TypedColumn t) : TypedColumn countType :=
  unary (FunctionSpec.named "count" (.always .integer)).overDistinct c false countType

def groupConcat (c : TypedColumn t) : TypedColumn .text :=
  unary (.named "group_concat" (.always .text)) c false .text

def groupConcatWith (c : TypedColumn t) (separator : String) : TypedColumn .text :=
  unary { FunctionSpec.named "group_concat" (.always .text) with
    closing? := some ("," ++ Quoted.literal separator ++ ")") } c false .text

def groupConcatDistinct (c : TypedColumn t) : TypedColumn .text :=
  unary (FunctionSpec.named "group_concat" (.always .text)).overDistinct c false .text

def max (c : TypedColumn t) : TypedColumn t :=
  unary (.named "max" .firstOperand) c true t

def maxDistinct (c : TypedColumn t) : TypedColumn t :=
  unary (FunctionSpec.named "max" .firstOperand).overDistinct c true t

def min (c : TypedColumn t) : TypedColumn t :=
  unary (.named "min" .firstOperand) c true t

def minDistinct (c : TypedColumn t) : TypedColumn t :=
  unary (FunctionSpec.named "min" .firstOperand).overDistinct c true t

/-- The sum as a real; `total` makes the sum of an empty group zero. -/
def sum (c : TypedColumn t) (_numeric : t.isNumeric) : TypedColumn .double :=
  unary (.named "total" (.always .real)) c false .double

def sumDistinct (c : TypedColumn t) (_numeric : t.isNumeric) : TypedColumn .double :=
  unary (FunctionSpec.named "total" (.always .real)).overDistinct c false .double

def concat (columns : List Column) : TypedColumn .text :=
  { FunctionSpec.named "" (.always .text) with separator := " || " }.apply columns true .text

def abs (c : TypedColumn t) (_numeric : t.isNumeric) : TypedColumn t :=
  unary (.named "abs" .firstOperand) c true t

def length (c : TypedColumn t) : TypedColumn countType :=
  unary (.named "length" (.always .integer)) c true countType

def lower (c : TypedColumn t) (_textual : t.isTextual) : TypedColumn .text :=
  unary (.named "lower" (.always .text)) c true .text

def upper (c : TypedColumn t) (_textual : t.isTextual) : TypedColumn .text :=
  unary (.named "upper" (.always .text)) c true .text

end Catalogue

end SqlSelect
