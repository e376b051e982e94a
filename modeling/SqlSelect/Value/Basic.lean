import SqlSelect.Decimal.Shortest
import SqlSelect.Text.Numeral
import SqlSelect.Text.Utf8
/-!
Values as the storage engine keeps them. A raw text is bytes that may fail to be UTF-8; a normalised
text is characters.
-/

namespace SqlSelect

/-- A 64-bit floating-point number, kept as its bit pattern. -/
structure Double where
  bits : UInt64
deriving DecidableEq, Repr

/-- A 32-bit floating-point number, kept as its bit pattern. -/
structure Single where
  bits : UInt32
deriving DecidableEq, Repr

namespace Double

def ofPattern (bits : Nat) : Double :=
  ⟨UInt64.ofNat bits⟩

def parts (x : Double) : BinaryParts :=
  BinaryFormat.double.decode x.bits.toNat

def ofInt (i : Int) : Double :=
  ofPattern (BinaryFormat.double.ofInt i)

/-- The whole part within 64 bits; what lies beyond is cut to the bounds and NaN is zero. -/
def truncate (x : Double) : Int64 :=
  match x.parts with
  | .nan => 0
  | .infinite negative => if negative then Int64.minValue else Int64.maxValue
  | parts => Int64.ofIntClamp (parts.truncate?.getD 0)

def text (x : Double) : List Char :=
  BinaryFormat.double.text x.bits.toNat

end Double

namespace Single

def ofPattern (bits : Nat) : Single :=
  ⟨UInt32.ofNat bits⟩

def parts (x : Single) : BinaryParts :=
  BinaryFormat.single.decode x.bits.toNat

def ofInt (i : Int) : Single :=
  ofPattern (BinaryFormat.single.ofInt i)

def ofDouble (x : Double) : Single :=
  ofPattern (BinaryFormat.single.ofParts x.parts)

def toDouble (x : Single) : Double :=
  Double.ofPattern (BinaryFormat.double.ofParts x.parts)

def text (x : Single) : List Char :=
  BinaryFormat.single.text x.bits.toNat

end Single

inductive RawValue where
  | null
  | integer (i : Int64)
  | real (x : Double)
  | text (bytes : List UInt8)
  | blob (bytes : List UInt8)
deriving DecidableEq, Repr

/-- A value whose text, if it is one, is characters. -/
inductive Value where
  | null
  | integer (i : Int64)
  | real (x : Double)
  | text (s : String)
  | blob (bytes : List UInt8)
deriving DecidableEq, Repr

namespace RawValue

/-- The written form of a value; broken text is shown leniently and bytes in hexadecimal. -/
def describe : RawValue → String
  | .null => "NULL"
  | .integer i => String.ofList (Numeral.ofInt i.toInt)
  | .real x => String.ofList x.text
  | .text bytes => String.ofList (Utf8.decodeLossy bytes)
  | .blob bytes => String.ofList (Hexadecimal.ofBytes bytes)

def toValue : RawValue → Value
  | .null => .null
  | .integer i => .integer i
  | .real x => .real x
  | .text bytes => .text (String.ofList (Utf8.decodeLossy bytes))
  | .blob bytes => .blob bytes

end RawValue

namespace Value

def toRaw : Value → RawValue
  | .null => .null
  | .integer i => .integer i
  | .real x => .real x
  | .text s => .text (Utf8.encode s.toList)
  | .blob bytes => .blob bytes

end Value

end SqlSelect
