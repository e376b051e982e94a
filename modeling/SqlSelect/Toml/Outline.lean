import SqlSelect.Toml.Reader
/-!
Reading a TOML document line by line: the entries above all headers, and the headers with the entries
below them. Blank lines and comments are kept in front of the key or header that comes after them.
-/

namespace SqlSelect.Toml

structure Entry where
  path : List Key
  key : Key
  value : Written
deriving Repr

/-- The header of a table or of an element of an array of tables, with the entries up to the next one. -/
structure Section where
  isArray : Bool
  path : List Key
  key : Key
  before : String
  after : String
  entries : List Entry
deriving Repr

/-- The entries above all headers, the sections, and what follows the last line. -/
structure Outline where
  root : List Entry
  sections : List Section
  trailing : String
deriving Repr

namespace Outline

def empty : Outline :=
  ⟨[], [], ""⟩

/-- The blanks and the comment that end a line, whether a line end follows, and the text after it. -/
def lineEnd? (text : List Char) : Option (String × Bool × List Char) :=
  let blanks := text.takeWhile Strings.isBlank
  let rest := text.dropWhile Strings.isBlank
  let comment := if rest.head? = some '#' then rest.takeWhile Strings.isInline else []
  let rest := rest.drop comment.length
  let more := Strings.dropNewline rest
  if rest.isEmpty then some (String.ofList (blanks ++ comment), false, [])
  else if more.length < rest.length then some (String.ofList (blanks ++ comment), true, more)
  else none

def closeHeader? (isArray : Bool) : List Char → Option (List Char)
  | ']' :: ']' :: rest => if isArray then some rest else none
  | ']' :: rest => if isArray then none else some rest
  | _ => none

def header? (before : String) (text : List Char) : Option (Section × List Char) :=
  let isArray := text.head? == some '['
  let text := if isArray then text.drop 1 else text
  match Reader.keyPath? Reader.maxDepth "" (text.dropWhile Strings.isBlank) with
  | none => none
  | some (path, key, rest) =>
    match (closeHeader? isArray (rest.dropWhile Strings.isBlank)).bind lineEnd? with
    | some (after, _, stop) =>
      let key := { key with before := Reader.blanks text, after := Reader.blanks rest }
      some (⟨isArray, path, key, before, after, []⟩, stop)
    | none => none

def entry? (before : String) (text : List Char) : Option (Entry × List Char) :=
  match Reader.keyPath? Reader.maxDepth "" text with
  | none => none
  | some (path, key, rest) =>
    match rest.dropWhile Strings.isBlank with
    | '=' :: start =>
      match Reader.value? Reader.maxDepth (start.dropWhile Strings.isBlank) with
      | none => none
      | some (written, value, stop) =>
        match lineEnd? stop with
        | none => none
        | some (after, _, stop) =>
          let key := { key with before, after := Reader.blanks rest }
          some (⟨path, key, ⟨Reader.blanks start, written, value, after⟩⟩, stop)
    | _ => none

/-- Adds an entry to the last section, or to the root while there is none. -/
def addEntry (o : Outline) (e : Entry) : Outline :=
  match o.sections.getLast? with
  | none => { o with root := o.root ++ [e] }
  | some s => { o with sections := o.sections.dropLast ++ [{ s with entries := s.entries ++ [e] }] }

/-- Reads lines after those of `o`; `before` is what stands in front of the next key or header. Each line
takes a character, so the length of the text is fuel enough. -/
def lines? : Nat → String → Outline → List Char → Option Outline
  | 0, _, _, _ => none
  | fuel + 1, before, o, text =>
    match lineEnd? text with
    | some (ending, false, _) => some { o with trailing := before ++ ending }
    | some (ending, true, rest) => lines? fuel (before ++ ending ++ "\n") o rest
    | none =>
      let before := before ++ Reader.blanks text
      match text.dropWhile Strings.isBlank with
      | '[' :: rest =>
        match header? before rest with
        | some (s, rest) => lines? fuel "" { o with sections := o.sections ++ [s] } rest
        | none => none
      | rest =>
        match entry? before rest with
        | some (e, rest) => lines? fuel "" (o.addEntry e) rest
        | none => none

def withoutMark : List Char → List Char
  | c :: rest => if c = '\uFEFF' then rest else c :: rest
  | [] => []

def read? (text : String) : Option Outline :=
  let chars := withoutMark text.toList
  lines? (chars.length + 1) "" empty chars

end Outline

end SqlSelect.Toml
