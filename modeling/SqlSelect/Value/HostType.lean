import SqlSelect.Value.StorageClass
/-!
Host types: what an application reads results into and binds arguments from, and the text under which a value of one
is bound to a placeholder.
-/

namespace SqlSelect

/-- Whole numbers of a fixed width; the last two have the width of a machine word of 64 bits. -/
inductive IntType where
  | int8 | int16 | int32 | int64
  | uint8 | uint16 | uint32 | uint64
  | intWord | uintWord
deriving DecidableEq, Repr

namespace IntType

def lower : IntType → Int
  | .int8 => -128
  | .int16 => -32768
  | .int32 => -2147483648
  | .int64 | .intWord => -9223372036854775808
  | .uint8 | .uint16 | .uint32 | .uint64 | .uintWord => 0

def upper : IntType → Int
  | .int8 => 127
  | .int16 => 32767
  | .int32 => 2147483647
  | .int64 | .intWord => 9223372036854775807
  | .uint8 => 255
  | .uint16 => 65535
  | .uint32 => 4294967295
  | .uint64 | .uintWord => 18446744073709551615

def Carrier (t : IntType) : Type :=
  { i : Int // t.lower ≤ i ∧ i ≤ t.upper }

instance (t : IntType) : DecidableEq t.Carrier :=
  inferInstanceAs (DecidableEq { i : Int // t.lower ≤ i ∧ i ≤ t.upper })

/-- The number as one of the type, where it is in range. -/
def ofInt? (t : IntType) (i : Int) : Option t.Carrier :=
  if h : t.lower ≤ i ∧ i ≤ t.upper then some ⟨i, h⟩ else none

def label : IntType → String
  | .int8 => "i8"
  | .int16 => "i16"
  | .int32 => "i32"
  | .int64 => "i64"
  | .uint8 => "u8"
  | .uint16 => "u16"
  | .uint32 => "u32"
  | .uint64 => "u64"
  | .intWord => "isize"
  | .uintWord => "usize"

/-- Whether a column can be declared with the type: every number of it is an integer of the store. -/
def isStored : IntType → Bool
  | .uint64 | .intWord | .uintWord => false
  | _ => true

end IntType

inductive HostType where
  | integer (t : IntType)
  | boolean
  | single
  | double
  | text
  | bytes
  | fourBytes
  | dynamic
  | optional (t : HostType)
deriving DecidableEq, Repr

namespace HostType

def Carrier : HostType → Type
  | .integer t => t.Carrier
  | .boolean => Bool
  | .single => Single
  | .double => Double
  | .text => String
  | .bytes => List UInt8
  | .fourBytes => Vector UInt8 4
  | .dynamic => Value
  | .optional t => Option t.Carrier

def label : HostType → String
  | .integer t => t.label
  | .boolean => "bool"
  | .single => "f32"
  | .double => "f64"
  | .text => "alloc::string::String"
  | .bytes => "alloc::vec::Vec<u8>"
  | .fourBytes => "[u8; 4]"
  | .dynamic => "rusqlite::types::value::Value"
  | .optional t => "core::option::Option<" ++ t.label ++ ">"

/-- The storage class of columns declared with the type, where they can be. -/
def storage? : HostType → Option StorageClass
  | .integer t => if t.isStored then some .integer else none
  | .boolean => some .integer
  | .single | .double => some .real
  | .text => some .text
  | .bytes => some .blob
  | .fourBytes | .dynamic => none
  | .optional t => t.storage?

def isNullable : HostType → Bool
  | .optional _ => true
  | _ => false

def isNumeric : HostType → Bool
  | .integer t => t.isStored
  | .single | .double => true
  | .optional t => t.isNumeric
  | _ => false

def isTextual : HostType → Bool
  | .text => true
  | .optional t => t.isTextual
  | _ => false

def fromRaw? : (t : HostType) → RawValue → Option t.Carrier
  | .integer t, .integer i => t.ofInt? i.toInt
  | .integer _, _ => none
  | .boolean, .integer i => some (decide (i ≠ 0))
  | .boolean, _ => none
  | .single, .integer i => some (Single.ofInt i.toInt)
  | .single, .real x => some (Single.ofDouble x)
  | .single, _ => none
  | .double, .integer i => some (Double.ofInt i.toInt)
  | .double, .real x => some x
  | .double, _ => none
  | .text, .text bs => (Utf8.decode? bs).map String.ofList
  | .text, _ => none
  | .bytes, .blob bs => some bs
  | .bytes, _ => none
  | .fourBytes, .blob bs => if h : bs.length = 4 then some ⟨bs.toArray, h⟩ else none
  | .fourBytes, _ => none
  | .dynamic, raw => some raw.toValue
  | .optional _, .null => some none
  | .optional t, raw => (t.fromRaw? raw).map some

def read (t : HostType) (raw : RawValue) : Except ReadError t.Carrier :=
  match t.fromRaw? raw with
  | some value => .ok value
  | none => .error (.valueParse raw.describe t.label)

end HostType

/-! ## Bind arguments -/

namespace HostType

def toRaw? : (t : HostType) → t.Carrier → Option RawValue
  | .integer _, i =>
    if -9223372036854775808 ≤ i.val ∧ i.val ≤ 9223372036854775807 then some (.integer (Int64.ofInt i.val))
    else none
  | .boolean, b => some (.integer (Int64.ofNat (Bool.toNat b)))
  | .single, x => some (.real x.toDouble)
  | .double, x => some (.real x)
  | .text, s => some (.text (Utf8.encode s.toList))
  | .bytes, bs => some (.blob bs)
  | .fourBytes, bs => some (.blob bs.toList)
  | .dynamic, value => some value.toRaw
  | .optional _, none => some .null
  | .optional t, some value => t.toRaw? value

/-- The text a host value is bound with; a value that the store cannot hold is bound as `NULL`. -/
def argument (t : HostType) (value : t.Carrier) : String :=
  ((t.toRaw? value).getD .null).describe

end HostType

end SqlSelect
