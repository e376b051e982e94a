import SqlSelect.Decimal.Format
import SqlSelect.Text.Numeral
/-!
The shortest decimal of a binary number: of all decimals that round to it, one with the coarsest last place, and of
those the nearest; of two equally near, the greater. It is written out in full, digits with at most one point between
them and never an exponent.
-/

namespace SqlSelect

/-- The decimal number `digits * 10 ^ place`. -/
structure Decimal where
  digits : Nat
  place : Int
deriving DecidableEq, Repr

namespace Shortest

/-- The numbers that round to one binary number: its value and both ends as multiples of `1 / scale`. -/
structure Interval where
  low : Nat
  value : Nat
  high : Nat
  scale : Nat
  closed : Bool
deriving DecidableEq, Repr

/-- The interval of `significand * 2 ^ exponent`. Below a power of two the gap is half as wide, and the
ends belong to the interval of an even significand. -/
def interval (f : BinaryFormat) (significand : Nat) (exponent : Int) : Interval :=
  let below := if significand = Nat.pow 2 f.fractionBits ∧ f.minExponent < exponent then 1 else 2
  let up := Nat.pow 2 (exponent - 2).toNat
  { low := (4 * significand - below) * up
    value := 4 * significand * up
    high := (4 * significand + 2) * up
    scale := Nat.pow 2 (2 - exponent).toNat
    closed := significand % 2 == 0 }

namespace Interval

/-- Whether a multiple of `1 / scale` rounds to the number. -/
def holds (i : Interval) (x : Nat) : Bool :=
  if i.closed then i.low ≤ x && x ≤ i.high else i.low < x && x < i.high

/-- The interval counted in units of `10 ^ place / unit`: the value, the ends and the size of one grid step. -/
def grid (i : Interval) (place : Int) : Interval × Nat :=
  let up := Nat.pow 10 (-place).toNat
  ({ i with low := i.low * up, value := i.value * up, high := i.high * up }, i.scale * Nat.pow 10 place.toNat)

/-- The nearest multiple of `10 ^ place` among the two around the value that rounds to the number. -/
def candidate? (i : Interval) (place : Int) : Option Nat :=
  let (j, step) := i.grid place
  let floor := j.value / step
  let below := j.holds (floor * step)
  let above := j.holds ((floor + 1) * step)
  if above && (!below || 2 * (j.value % step) ≥ step) then some (floor + 1)
  else if below then some floor
  else none

/-- Searches the places from `place + n` down to `place`, where the value itself is taken. -/
def search (i : Interval) (place : Int) : Nat → Decimal
  | 0 => let (j, step) := i.grid place; ⟨j.value / step, place⟩
  | n + 1 =>
    match i.candidate? (place + n + 1) with
    | some digits => ⟨digits, place + n + 1⟩
    | none => i.search place n

end Interval

/-- A place whose unit is above `significand * 2 ^ exponent`; 30103 / 100000 is just above the decimal
logarithm of two. -/
def topPlace (significand : Nat) (exponent : Int) : Int :=
  Int.fdiv ((significand.log2 + 1 + exponent) * 30103) 100000 + 2

/-- The shortest decimal of a positive binary number. Every such number is itself a multiple of ten to
its exponent, so the search below the top place ends there at the latest. -/
def ofBinary (f : BinaryFormat) (significand : Nat) (exponent : Int) : Decimal :=
  let bottom := min exponent 0
  (interval f significand exponent).search bottom (topPlace significand exponent - bottom).toNat

end Shortest

/-! ## Written out -/

namespace Decimal

/-- The digits with the point where the place puts it; a zero stands before a leading point. -/
def positional (d : Decimal) : List Char :=
  let digits := Numeral.ofNat d.digits
  if 0 ≤ d.place then digits ++ List.replicate d.place.toNat '0'
  else
    let places := (-d.place).toNat
    let padded := List.replicate (places + 1 - digits.length) '0' ++ digits
    padded.take (padded.length - places) ++ '.' :: padded.drop (padded.length - places)

end Decimal

namespace BinaryFormat

/-- The text of a bit pattern: the shortest decimal that reads back, written out in full. -/
def text (f : BinaryFormat) (bits : Nat) : List Char :=
  match f.decode bits with
  | .nan => ['N', 'a', 'N']
  | .infinite negative => if negative then ['-', 'i', 'n', 'f'] else ['i', 'n', 'f']
  | .finite negative significand exponent =>
    let magnitude :=
      if significand = 0 then ['0'] else (Shortest.ofBinary f significand exponent).positional
    if negative then '-' :: magnitude else magnitude

end BinaryFormat

end SqlSelect
