/-!
Numerals. A whole number has one written form in decimal, and a reader that also takes a plus sign and leading zeros;
bytes are pairs of lowercase hexadecimal digits.
-/

namespace SqlSelect

namespace Numeral

def ofNat (n : Nat) : List Char :=
  Nat.toDigits 10 n

def ofInt : Int → List Char
  | .ofNat n => ofNat n
  | .negSucc n => '-' :: ofNat (n + 1)

def digit? (c : Char) : Option Nat :=
  if c.isDigit then some (c.toNat - '0'.toNat) else none

/-- Reads digits after those whose value is `value`. -/
def readFrom (value : Nat) : List Char → Option Nat
  | [] => some value
  | c :: rest =>
    match digit? c with
    | some d => readFrom (value * 10 + d) rest
    | none => none

def readNat? : List Char → Option Nat
  | [] => none
  | c :: rest => readFrom 0 (c :: rest)

/-- Reads an optional sign and one or more digits. -/
def readInt? : List Char → Option Int
  | '-' :: rest => (readNat? rest).map fun n => -(n : Int)
  | '+' :: rest => (readNat? rest).map fun n => (n : Int)
  | text => (readNat? text).map fun n => (n : Int)

end Numeral

namespace Hexadecimal

def digit (n : Nat) : Char :=
  Nat.digitChar n

/-- Two digits for each byte, the high half first. -/
def ofBytes (bytes : List UInt8) : List Char :=
  bytes.flatMap fun b => [digit (b.toNat / 16), digit (b.toNat % 16)]

end Hexadecimal

end SqlSelect
