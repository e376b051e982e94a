import SqlSelect.Toml.Scalar
/-!
TOML strings: basic ones with escapes and literal ones without, each on one line or over several.
-/

namespace SqlSelect.Toml.Strings

def basicMark : Char := '"'

def literalMark : Char := Char.ofNat 39

def isBlank (c : Char) : Bool :=
  c == ' ' || c == '\t'

/-- Whether a character may stand unescaped on a line: tabs and what is no control character. -/
def isInline (c : Char) : Bool :=
  c == '\t' || (' ' ≤ c && c != Char.ofNat 127)

def scalar? (n : Nat) : Option Char :=
  if n.isValidChar then some (Char.ofNat n) else none

def hex? (digits : List Char) : Option Nat :=
  digits.foldlM (fun value c => (Scalar.digitIn? 16 c).map (value * 16 + ·)) 0

def shortEscape? (c : Char) : Option Char :=
  match c with
  | 'b' => some (Char.ofNat 8)
  | 't' => some '\t'
  | 'n' => some '\n'
  | 'f' => some (Char.ofNat 12)
  | 'r' => some '\r'
  | 'e' => some (Char.ofNat 27)
  | '"' => some '"'
  | '\\' => some '\\'
  | _ => none

def escape? : List Char → Option (Char × List Char)
  | 'x' :: a :: b :: rest => ((hex? [a, b]).bind scalar?).map (·, rest)
  | 'u' :: a :: b :: c :: d :: rest => ((hex? [a, b, c, d]).bind scalar?).map (·, rest)
  | 'U' :: a :: b :: c :: d :: e :: f :: g :: h :: rest =>
    ((hex? [a, b, c, d, e, f, g, h]).bind scalar?).map (·, rest)
  | c :: rest => (shortEscape? c).map (·, rest)
  | [] => none

def push (c : Char) : Option (List Char × List Char) → Option (List Char × List Char)
  | some (text, rest) => some (c :: text, rest)
  | none => none

/-- Reads a basic string on one line after its opening quote. Each step takes a character, so the length
of the text is fuel enough. -/
def basic? : Nat → List Char → Option (List Char × List Char)
  | 0, _ => none
  | _ + 1, [] => none
  | fuel + 1, c :: rest =>
    if c = basicMark then some ([], rest)
    else if c = '\\' then
      match escape? rest with
      | some (d, rest) => push d (basic? fuel rest)
      | none => none
    else if isInline c then push c (basic? fuel rest)
    else none

def literal? : List Char → Option (List Char × List Char)
  | [] => none
  | c :: rest =>
    if c = literalMark then some ([], rest)
    else if isInline c then push c (literal? rest)
    else none

def dropNewline : List Char → List Char
  | '\n' :: rest => rest
  | '\r' :: '\n' :: rest => rest
  | text => text

/-- The end of a string over several lines at the front of a text: three quotes, before which one or two
more belong to the string. -/
def closing? (mark : Char) (text : List Char) : Option (List Char × List Char) :=
  let quotes := (text.takeWhile (· == mark)).length
  if quotes < 3 then none
  else
    let inside := min (quotes - 3) 2
    some (List.replicate inside mark, text.drop (inside + 3))

def isMultiline (c : Char) (rest : List Char) : Bool :=
  isInline c || c == '\n' || (c == '\r' && rest.head? == some '\n')

def dropSpace : List Char → List Char
  | '\r' :: '\n' :: rest => dropSpace rest
  | c :: rest => if isBlank c || c == '\n' then dropSpace rest else c :: rest
  | [] => []

/-- A backslash at the end of a line: the text after it and all white space that follows. -/
def continued? (text : List Char) : Option (List Char) :=
  let rest := text.dropWhile isBlank
  if (dropNewline rest).length < rest.length then some (dropSpace rest) else none

def longBasic? : Nat → List Char → Option (List Char × List Char)
  | 0, _ => none
  | _ + 1, [] => none
  | fuel + 1, c :: rest =>
    match closing? basicMark (c :: rest) with
    | some found => some found
    | none =>
      if c = '\\' then
        match continued? rest with
        | some rest => longBasic? fuel rest
        | none =>
          match escape? rest with
          | some (d, rest) => push d (longBasic? fuel rest)
          | none => none
      else if isMultiline c rest then push c (longBasic? fuel rest)
      else none

def longLiteral? : List Char → Option (List Char × List Char)
  | [] => none
  | c :: rest =>
    match closing? literalMark (c :: rest) with
    | some found => some found
    | none => if isMultiline c rest then push c (longLiteral? rest) else none

def short? : List Char → Option (List Char × List Char)
  | [] => none
  | c :: rest =>
    if c = basicMark then basic? (rest.length + 1) rest
    else if c = literalMark then literal? rest
    else none

/-- Reads a string of any form; three quotes open one over several lines, whose first line end is not
part of it. -/
def read? (text : List Char) : Option (List Char × List Char) :=
  match text with
  | a :: b :: c :: rest =>
    if a = b ∧ b = c ∧ a = basicMark then longBasic? (rest.length + 1) (dropNewline rest)
    else if a = b ∧ b = c ∧ a = literalMark then longLiteral? (dropNewline rest)
    else short? text
  | _ => short? text

end SqlSelect.Toml.Strings
