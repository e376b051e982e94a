/-!
UTF-8 as bytes. Reading marks every maximal broken part, so the strict reader refuses a text with a
mark and the lenient one shows each mark as U+FFFD.
-/

namespace SqlSelect.Utf8

def encode (text : List Char) : List UInt8 :=
  text.flatMap String.utf8EncodeChar

/-- A character that has begun: its bits so far, the range of its next byte, and how many follow that. -/
structure Pending where
  bits : Nat
  low : UInt8
  high : UInt8
  more : Nat
deriving DecidableEq, Repr

inductive Start where
  | complete (c : Char)
  | pending (p : Pending)
  | broken
deriving DecidableEq, Repr

/-- Classifies a first byte; overlong forms, surrogates and values above U+10FFFF have no start. -/
def start (b : UInt8) : Start :=
  if b < 0x80 then .complete (Char.ofNat b.toNat)
  else if b < 0xC2 then .broken
  else if b < 0xE0 then .pending ⟨b.toNat - 0xC0, 0x80, 0xBF, 0⟩
  else if b = 0xE0 then .pending ⟨0, 0xA0, 0xBF, 1⟩
  else if b = 0xED then .pending ⟨0xD, 0x80, 0x9F, 1⟩
  else if b < 0xF0 then .pending ⟨b.toNat - 0xE0, 0x80, 0xBF, 1⟩
  else if b = 0xF0 then .pending ⟨0, 0x90, 0xBF, 2⟩
  else if b < 0xF4 then .pending ⟨b.toNat - 0xF0, 0x80, 0xBF, 2⟩
  else if b = 0xF4 then .pending ⟨4, 0x80, 0x8F, 2⟩
  else .broken

namespace Pending

def accepts (p : Pending) (b : UInt8) : Bool :=
  p.low ≤ b && b ≤ p.high

def extend (p : Pending) (b : UInt8) : Nat :=
  p.bits * 64 + (b.toNat - 0x80)

end Pending

/-- The characters of a byte string; `none` stands for one maximal broken part. -/
def parts : Option Pending → List UInt8 → List (Option Char)
  | none, [] => []
  | some _, [] => [none]
  | none, b :: rest =>
    match start b with
    | .complete c => some c :: parts none rest
    | .pending p => parts (some p) rest
    | .broken => none :: parts none rest
  | some p, b :: rest =>
    if p.accepts b then
      match p.more with
      | 0 => some (Char.ofNat (p.extend b)) :: parts none rest
      | more + 1 => parts (some ⟨p.extend b, 0x80, 0xBF, more⟩) rest
    else
      none :: match start b with
        | .complete c => some c :: parts none rest
        | .pending q => parts (some q) rest
        | .broken => none :: parts none rest

def decode? (bytes : List UInt8) : Option (List Char) :=
  (parts none bytes).mapM id

/-- The text of any byte string, one U+FFFD for each broken part. -/
def decodeLossy (bytes : List UInt8) : List Char :=
  (parts none bytes).map (·.getD '\uFFFD')

end SqlSelect.Utf8
