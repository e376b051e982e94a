import SqlSelect.Decimal.Format
import SqlSelect.Text.Numeral
/-!
Reading a floating-point number: an optional sign, then a word for an infinity or NaN in any case, or
digits with an optional point and an optional exponent.
-/

namespace SqlSelect

namespace BinaryFormat

def spanDigits (text : List Char) : List Char × List Char :=
  (text.takeWhile Char.isDigit, text.dropWhile Char.isDigit)

def digitsValue (digits : List Char) : Nat :=
  digits.foldl (fun value c => value * 10 + (c.toNat - '0'.toNat)) 0

/-- Reads an exponent to the end of the text; no exponent is zero. -/
def readExponent? : List Char → Option Int
  | [] => some 0
  | c :: rest => if c = 'e' ∨ c = 'E' then Numeral.readInt? rest else none

/-- Reads digits with an optional point, at least one digit, and an optional exponent: the number is
`digits * 10 ^ place`. -/
def readDecimal? (text : List Char) : Option (Nat × Int) :=
  let (whole, rest) := spanDigits text
  let (fraction, rest) :=
    match rest with
    | '.' :: more => spanDigits more
    | _ => ([], rest)
  if whole.isEmpty && fraction.isEmpty then none
  else (readExponent? rest).map fun exponent => (digitsValue (whole ++ fraction), exponent - fraction.length)

/-- The pattern nearest to `digits * 10 ^ place`. A number with `n` digits lies between ten to the
`place` and to the `place + n`, so that far outside the range of a format no power is formed. -/
def ofDecimal (f : BinaryFormat) (digits : Nat) (place : Int) : Nat :=
  let top := place + (Numeral.ofNat digits).length
  if digits = 0 then 0
  else if 400 < top then f.infinityBits
  else if top < -400 then 0
  else if 0 ≤ place then f.nearestBits (digits * Nat.pow 10 place.toNat) 1
  else f.nearestBits digits (Nat.pow 10 (-place).toNat)

def readMagnitude? (f : BinaryFormat) (text : List Char) : Option Nat :=
  match text.map Char.toLower with
  | ['i', 'n', 'f'] => some f.infinityBits
  | ['i', 'n', 'f', 'i', 'n', 'i', 't', 'y'] => some f.infinityBits
  | ['n', 'a', 'n'] => some f.nanBits
  | _ => (readDecimal? text).map fun (digits, place) => f.ofDecimal digits place

def read? (f : BinaryFormat) : List Char → Option Nat
  | '-' :: text => (f.readMagnitude? text).map (f.signed true)
  | '+' :: text => f.readMagnitude? text
  | text => f.readMagnitude? text

end BinaryFormat

end SqlSelect
