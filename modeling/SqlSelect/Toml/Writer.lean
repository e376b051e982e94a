import SqlSelect.Text.Numeral
import SqlSelect.Toml.Strings
/-!
Writing TOML strings in the plainest form that holds them: a basic string, else a literal one, else one
of these over several lines, and only at last with escapes.
-/

namespace SqlSelect.Toml.Writer

/-- The longest run of a character, where `current` of them end just before the text. -/
def longestRun (mark : Char) (current : Nat) : List Char → Nat
  | [] => current
  | c :: rest =>
    if c = mark then longestRun mark (current + 1) rest else max current (longestRun mark 0 rest)

def isControl (c : Char) : Bool :=
  c < ' ' || c == Char.ofNat 127

/-- Whether a text has control characters that only an escape can write. -/
def needsCodes (text : List Char) : Bool :=
  text.any fun c => isControl c && c != '\n' && c != '\t'

inductive Form where
  | basic
  | literal
  | longBasic
  | longLiteral
deriving DecidableEq, Repr

def form (text : List Char) : Form :=
  let codes := needsCodes text
  let escapes := text.contains '\\'
  let newline := text.contains '\n'
  let basicRun := longestRun Strings.basicMark 0 text
  let literalRun := longestRun Strings.literalMark 0 text
  if !codes && !escapes && !newline && basicRun == 0 then .basic
  else if !codes && !newline && literalRun == 0 then .literal
  else if !codes && !escapes && basicRun ≤ 2 then .longBasic
  else if !codes && literalRun ≤ 2 then .longLiteral
  else if newline then .longBasic
  else .basic

def code (c : Char) : List Char :=
  let digits := (Nat.toDigits 16 c.toNat).map Char.toUpper
  '\\' :: 'u' :: List.replicate (4 - digits.length) '0' ++ digits

/-- A character inside a basic string. On several lines a quote needs no escape unless two stand before
it that have none. -/
def escaped (long : Bool) (quotes : Nat) (c : Char) : List Char :=
  match c with
  | '\t' => ['\\', 't']
  | '\r' => ['\\', 'r']
  | '\n' => if long then ['\n'] else ['\\', 'n']
  | '\\' => ['\\', '\\']
  | '"' => if long && quotes < 2 then ['"'] else ['\\', '"']
  | _ =>
    if c = Char.ofNat 8 then ['\\', 'b']
    else if c = Char.ofNat 12 then ['\\', 'f']
    else if isControl c then code c
    else [c]

/-- The inside of a basic string; `quotes` of those just before it have no escape. -/
def escapedAll (long : Bool) (quotes : Nat) : List Char → List Char
  | [] => []
  | c :: rest =>
    escaped long quotes c ++
      escapedAll long (if c = Strings.basicMark ∧ quotes < 2 then quotes + 1 else 0) rest

/-- A string over several lines begins with a line end if it has one. -/
def opening (mark : Char) (text : List Char) : List Char :=
  List.replicate 3 mark ++ if text.contains '\n' then ['\n'] else []

def string (text : String) : String :=
  let cs := text.toList
  String.ofList <|
    match form cs with
    | .basic => Strings.basicMark :: escapedAll false 0 cs ++ [Strings.basicMark]
    | .literal => Strings.literalMark :: cs ++ [Strings.literalMark]
    | .longBasic => opening Strings.basicMark cs ++ escapedAll true 0 cs ++ List.replicate 3 Strings.basicMark
    | .longLiteral => opening Strings.literalMark cs ++ cs ++ List.replicate 3 Strings.literalMark

def boolean (b : Bool) : String :=
  if b then "true" else "false"

def line (key value : String) : String :=
  key ++ " = " ++ value ++ "\n"

end SqlSelect.Toml.Writer
