import SqlSelect.Decimal.Reader
import SqlSelect.Text.Basic
import SqlSelect.Value.Basic
/-!
Storage classes. A column promises one, and every raw value is normalised to it before it is read, which is where
something can go wrong: building and compiling a statement never fails.
-/

namespace SqlSelect

inductive ReadError where
  | unknownColumn (name : String)
  | unexpectedNull (column : String)
  | valueParse (value expected : String)
deriving DecidableEq, Repr

namespace ReadError

def message : ReadError → String
  | .unknownColumn name => "Column `" ++ name ++ "` is not part of the compiled projection"
  | .unexpectedNull column => "Column `" ++ column ++ "` returned NULL but is not nullable"
  | .valueParse value expected => "Cannot read `" ++ value ++ "` as " ++ expected

def code : ReadError → String
  | .unknownColumn _ => "tessel_query::unknown_column"
  | .unexpectedNull _ => "tessel_query::unexpected_null"
  | .valueParse _ _ => "tessel_query::value_parse"

def help? : ReadError → Option String
  | .unknownColumn _ =>
    some "Use the column alias, or the table-qualified name when no alias was given"
  | .unexpectedNull _ => some "Select the value as `Option<_>` to accept NULL results"
  | .valueParse _ _ => none

end ReadError

/-- The class of values that a column promises; truth values are integers. -/
inductive StorageClass where
  | integer
  | real
  | text
  | blob
deriving DecidableEq, Repr

namespace StorageClass

def name : StorageClass → String
  | .integer => "integer"
  | .real => "real"
  | .text => "text"
  | .blob => "blob"

/-- Reads a text, less the white space around it, as an integer of 64 bits. -/
def readInteger? (bytes : List UInt8) : Option Int64 :=
  match Numeral.readInt? (Blank.trim (Utf8.decodeLossy bytes)) with
  | some i =>
    if -9223372036854775808 ≤ i ∧ i ≤ 9223372036854775807 then some (Int64.ofInt i) else none
  | none => none

def readReal? (bytes : List UInt8) : Option Double :=
  (BinaryFormat.double.read? (Blank.trim (Utf8.decodeLossy bytes))).map Double.ofPattern

/-- The value in a storage class, where the class admits one. `NULL` belongs to every class. -/
def normalise? : StorageClass → RawValue → Option Value
  | _, .null => some .null
  | .integer, .integer i => some (.integer i)
  | .integer, .real x => some (.integer x.truncate)
  | .integer, .text bytes => (readInteger? bytes).map .integer
  | .integer, .blob _ => none
  | .real, .integer i => some (.real (Double.ofInt i.toInt))
  | .real, .real x => some (.real x)
  | .real, .text bytes => (readReal? bytes).map .real
  | .real, .blob _ => none
  | .text, .blob _ => none
  | .text, raw => some (.text raw.describe)
  | .blob, .text bytes => some (.blob bytes)
  | .blob, .blob bytes => some (.blob bytes)
  | .blob, .integer _ => none
  | .blob, .real _ => none

def parse (c : StorageClass) (raw : RawValue) : Except ReadError Value :=
  match c.normalise? raw with
  | some value => .ok value
  | none => .error (.valueParse raw.describe c.name)

end StorageClass

end SqlSelect
