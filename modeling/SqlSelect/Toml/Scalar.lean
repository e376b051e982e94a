import SqlSelect.Decimal.Reader
/-!
TOML data, without regard to how it is written, and the bare scalars: truth values, integers in four bases, floats,
dates and times.
-/

namespace SqlSelect.Toml

/-- A TOML value. Of a float it is kept only whether it is in range, and of the parts of a date-time
nothing. -/
inductive Value where
  | text (s : String)
  | integer (i : Int)
  | float (inRange : Bool)
  | boolean (b : Bool)
  | datetime
  | array (items : List Value)
  | table (entries : List (String × Value))
deriving Repr

abbrev Entries := List (String × Value)

mutual

/-- Whether every float in a value is in range, and every integer one that `accepts` takes. -/
def Value.inRange (accepts : Int → Bool) : Value → Bool
  | .text _ => true
  | .integer i => accepts i
  | .float inRange => inRange
  | .boolean _ => true
  | .datetime => true
  | .array items => Value.allInRange accepts items
  | .table entries => Value.entriesInRange accepts entries
termination_by structural v => v

def Value.allInRange (accepts : Int → Bool) : List Value → Bool
  | [] => true
  | v :: rest => v.inRange accepts && Value.allInRange accepts rest
termination_by structural vs => vs

def Value.entriesInRange (accepts : Int → Bool) : List (String × Value) → Bool
  | [] => true
  | (_, v) :: rest => v.inRange accepts && Value.entriesInRange accepts rest
termination_by structural entries => entries

end

namespace Scalar

def digitIn? (base : Nat) (c : Char) : Option Nat :=
  let value? :=
    if c.isDigit then some (c.toNat - '0'.toNat)
    else if 'a' ≤ c ∧ c ≤ 'f' then some (c.toNat - 'a'.toNat + 10)
    else if 'A' ≤ c ∧ c ≤ 'F' then some (c.toNat - 'A'.toNat + 10)
    else none
  value?.filter (· < base)

/-- Reads digits to the end of the text; an underscore stands between two digits. -/
def readDigits? (base : Nat) (value : Nat) (afterDigit : Bool) : List Char → Option Nat
  | [] => if afterDigit then some value else none
  | c :: rest =>
    if c = '_' then
      if afterDigit then readDigits? base value false rest else none
    else
      match digitIn? base c with
      | some d => readDigits? base (value * base + d) true rest
      | none => none

/-- Reads a decimal number without sign; no zero leads other digits. -/
def readDecimal? (text : List Char) : Option Nat :=
  match text with
  | '0' :: _ :: _ => none
  | _ => readDigits? 10 0 false text

def splitSign : List Char → Bool × List Char
  | '-' :: rest => (true, rest)
  | '+' :: rest => (false, rest)
  | text => (false, text)

/-- Reads an integer; only decimal ones have a sign. -/
def readInteger? (text : List Char) : Option Int :=
  match text with
  | '0' :: 'x' :: rest => (readDigits? 16 0 false rest).map fun n => (n : Int)
  | '0' :: 'o' :: rest => (readDigits? 8 0 false rest).map fun n => (n : Int)
  | '0' :: 'b' :: rest => (readDigits? 2 0 false rest).map fun n => (n : Int)
  | _ =>
    let (negative, digits) := splitSign text
    (readDecimal? digits).map fun n => if negative then -(n : Int) else n

def isExponent (text : List Char) : Bool :=
  (readDigits? 10 0 false (splitSign text).2).isSome

/-- The text up to a character for which `stop` holds, and from there on. -/
def splitAt (stop : Char → Bool) (text : List Char) : List Char × List Char :=
  (text.takeWhile fun c => !stop c, text.dropWhile fun c => !stop c)

def isExponentMark (c : Char) : Bool :=
  c == 'e' || c == 'E'

/-- Whether a text without sign is a whole part with a fraction, an exponent, or both. -/
def isFloatBody (text : List Char) : Bool :=
  let (number, exponent) := splitAt isExponentMark text
  let (whole, fraction) := splitAt (· == '.') number
  (readDecimal? whole).isSome && !(exponent.isEmpty && fraction.isEmpty) &&
    (fraction.isEmpty || (readDigits? 10 0 false (fraction.drop 1)).isSome) &&
    (exponent.isEmpty || isExponent (exponent.drop 1))

def isFloat (text : List Char) : Bool :=
  match (splitSign text).2 with
  | ['i', 'n', 'f'] => true
  | ['n', 'a', 'n'] => true
  | body => isFloatBody body

/-- Whether a float is written with digits that round to an infinity. -/
def overflows (text : List Char) : Bool :=
  let (_, body) := splitSign text
  isFloatBody body &&
    BinaryFormat.double.read? (body.filter (· != '_')) == some BinaryFormat.double.infinityBits

/-! ## Dates and times -/

/-- Reads a number of exactly `n` digits at the front of a text. -/
def takeNumber? : Nat → Nat → List Char → Option (Nat × List Char)
  | 0, value, rest => some (value, rest)
  | n + 1, value, c :: rest =>
    match Numeral.digit? c with
    | some d => takeNumber? n (value * 10 + d) rest
    | none => none
  | _ + 1, _, [] => none

def expect? (c : Char) : List Char → Option (List Char)
  | d :: rest => if c = d then some rest else none
  | [] => none

def daysIn (year month : Nat) : Nat :=
  if month = 2 then
    if (year % 4 = 0 ∧ year % 100 ≠ 0) ∨ year % 400 = 0 then 29 else 28
  else if month = 4 ∨ month = 6 ∨ month = 9 ∨ month = 11 then 30
  else 31

def takeDate? (text : List Char) : Option (List Char) := do
  let (year, rest) ← takeNumber? 4 0 text
  let (month, rest) ← takeNumber? 2 0 (← expect? '-' rest)
  let (day, rest) ← takeNumber? 2 0 (← expect? '-' rest)
  if 1 ≤ month ∧ month ≤ 12 ∧ 1 ≤ day ∧ day ≤ daysIn year month then some rest else none

def takeFraction? : List Char → Option (List Char)
  | '.' :: c :: rest => if c.isDigit then some (rest.dropWhile Char.isDigit) else none
  | '.' :: [] => none
  | text => some text

def takeSeconds? : List Char → Option (List Char)
  | ':' :: rest => do
    let (second, rest) ← takeNumber? 2 0 rest
    if second ≤ 60 then takeFraction? rest else none
  | text => some text

def takeTime? (text : List Char) : Option (List Char) := do
  let (hour, rest) ← takeNumber? 2 0 text
  let (minute, rest) ← takeNumber? 2 0 (← expect? ':' rest)
  if hour ≤ 23 ∧ minute ≤ 59 then takeSeconds? rest else none

def takeOffset? : List Char → Option (List Char)
  | [] => some []
  | c :: rest =>
    if c = 'Z' ∨ c = 'z' then some rest
    else if c = '+' ∨ c = '-' then do
      let (hour, rest) ← takeNumber? 2 0 rest
      let (minute, rest) ← takeNumber? 2 0 (← expect? ':' rest)
      if hour ≤ 23 ∧ minute ≤ 59 then some rest else none
    else none

def isDatetime (text : List Char) : Bool :=
  match takeDate? text with
  | some [] => true
  | some (mark :: rest) =>
    (mark == 'T' || mark == 't' || mark == ' ') && ((takeTime? rest).bind takeOffset?) == some []
  | none => takeTime? text == some []

def read? (text : List Char) : Option Value :=
  match text with
  | ['t', 'r', 'u', 'e'] => some (.boolean true)
  | ['f', 'a', 'l', 's', 'e'] => some (.boolean false)
  | _ =>
    match readInteger? text with
    | some i => some (.integer i)
    | none =>
      if isFloat text then some (.float (!overflows text))
      else if isDatetime text then some .datetime
      else none

/-! ## Where a scalar ends -/

def isPart (c : Char) : Bool :=
  c.isAlphanum || c == '+' || c == '-' || c == '_' || c == '.' || c == ':'

/-- A bare scalar at the front of a text, and the rest. A blank joins a date with the time after it. -/
def span (text : List Char) : List Char × List Char :=
  let (token, rest) := (text.takeWhile isPart, text.dropWhile isPart)
  match rest with
  | ' ' :: c :: more =>
    if c.isDigit && takeDate? token == some [] then
      (token ++ ' ' :: (c :: more).takeWhile isPart, (c :: more).dropWhile isPart)
    else (token, rest)
  | _ => (token, rest)

end Scalar

end SqlSelect.Toml
