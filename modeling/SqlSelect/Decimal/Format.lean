/-!
Binary floating-point formats: what a bit pattern stands for, and the pattern nearest to a fraction.
-/

namespace SqlSelect

/-- A format is given by the widths of its fraction and exponent fields; a sign bit stands above them. -/
structure BinaryFormat where
  fractionBits : Nat
  exponentBits : Nat
deriving DecidableEq, Repr

/-- What a bit pattern stands for; a finite one is `significand * 2 ^ exponent`. -/
inductive BinaryParts where
  | finite (negative : Bool) (significand : Nat) (exponent : Int)
  | infinite (negative : Bool)
  | nan
deriving DecidableEq, Repr

namespace BinaryFormat

def double : BinaryFormat := ⟨52, 11⟩

def single : BinaryFormat := ⟨23, 8⟩

/-- The exponent of the last place of the smallest numbers. -/
def minExponent (f : BinaryFormat) : Int :=
  2 - Nat.pow 2 (f.exponentBits - 1) - f.fractionBits

def maxField (f : BinaryFormat) : Nat :=
  Nat.pow 2 f.exponentBits - 1

def signWeight (f : BinaryFormat) : Nat :=
  Nat.pow 2 (f.fractionBits + f.exponentBits)

def infinityBits (f : BinaryFormat) : Nat :=
  f.maxField * Nat.pow 2 f.fractionBits

def nanBits (f : BinaryFormat) : Nat :=
  f.infinityBits + Nat.pow 2 (f.fractionBits - 1)

def signed (f : BinaryFormat) (negative : Bool) (magnitude : Nat) : Nat :=
  if negative then f.signWeight + magnitude else magnitude

def decode (f : BinaryFormat) (bits : Nat) : BinaryParts :=
  let fraction := bits % Nat.pow 2 f.fractionBits
  let field := bits / Nat.pow 2 f.fractionBits % Nat.pow 2 f.exponentBits
  let negative := bits / f.signWeight % 2 == 1
  if field = f.maxField then
    if fraction = 0 then .infinite negative else .nan
  else if field = 0 then .finite negative fraction f.minExponent
  else .finite negative (Nat.pow 2 f.fractionBits + fraction) (f.minExponent + field - 1)

/-- The whole number nearest to a fraction; a half goes to the even neighbour. -/
def nearestEven (numerator denominator : Nat) : Nat :=
  let q := numerator / denominator
  let r := numerator % denominator
  if denominator < 2 * r ∨ (2 * r = denominator ∧ q % 2 = 1) then q + 1 else q

/-- The greatest power of two that is not above a positive fraction. -/
def binaryOrder (numerator denominator : Nat) : Int :=
  let k : Int := (numerator.log2 : Int) - denominator.log2
  let reached :=
    if 0 ≤ k then denominator * Nat.pow 2 k.toNat ≤ numerator
    else denominator ≤ numerator * Nat.pow 2 (-k).toNat
  if reached then k else k - 1

/-- The pattern nearest to the fraction `numerator / denominator`, without its sign; a half goes to the
even pattern, and what is too large becomes the infinity. -/
def nearestBits (f : BinaryFormat) (numerator denominator : Nat) : Nat :=
  if numerator = 0 then 0
  else
    let place := max (binaryOrder numerator denominator - f.fractionBits) f.minExponent
    let significand :=
      if 0 ≤ place then nearestEven numerator (denominator * Nat.pow 2 place.toNat)
      else nearestEven (numerator * Nat.pow 2 (-place).toNat) denominator
    min ((place - f.minExponent).toNat * Nat.pow 2 f.fractionBits + significand) f.infinityBits

def ofParts (f : BinaryFormat) : BinaryParts → Nat
  | .finite negative significand exponent =>
    f.signed negative <|
      if 0 ≤ exponent then f.nearestBits (significand * Nat.pow 2 exponent.toNat) 1
      else f.nearestBits significand (Nat.pow 2 (-exponent).toNat)
  | .infinite negative => f.signed negative f.infinityBits
  | .nan => f.nanBits

def ofInt (f : BinaryFormat) (i : Int) : Nat :=
  f.signed (decide (i < 0)) (f.nearestBits i.natAbs 1)

end BinaryFormat

namespace BinaryParts

/-- The whole part of a number, cut toward zero; nothing that is not finite has one. -/
def truncate? : BinaryParts → Option Int
  | .finite negative significand exponent =>
    let magnitude : Nat :=
      if 0 ≤ exponent then significand * Nat.pow 2 exponent.toNat else significand / Nat.pow 2 (-exponent).toNat
    some (if negative then -(magnitude : Int) else magnitude)
  | .infinite _ => none
  | .nan => none

end BinaryParts

end SqlSelect
