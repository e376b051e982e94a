import SqlSelect.Toml.Item
import SqlSelect.Toml.Strings
/-!
Reading TOML keys and values from the front of a text. Arrays and inline tables may hold blanks, line
ends and comments between their parts, and a comma after the last. Along with its data a value gives the
text that it is written as from then on, in which the items of an inline table are grouped by their
dotted keys, what follows a last comma stands at the front, and lines end in line feeds.
-/

namespace SqlSelect.Toml.Reader

/-- How many keys a path may have, and how deep arrays and inline tables may be nested. -/
def maxDepth : Nat := 80

def between (start finish : List Char) : String :=
  String.ofList (start.take (start.length - finish.length))

def blanks (text : List Char) : String :=
  String.ofList (text.takeWhile Strings.isBlank)

/-! ## Keys -/

def isBare (c : Char) : Bool :=
  c.isAlphanum || c == '_' || c == '-'

def simpleKey? (text : List Char) : Option (List Char × List Char) :=
  match text.takeWhile isBare with
  | [] => Strings.short? text
  | name => some (name, text.dropWhile isBare)

/-- Reads at most so many keys with dots between them and blanks around the dots: the keys on the way, the
last key, and the rest of the text. The blanks before the first key are given. -/
def keyPath? : Nat → String → List Char → Option (List Key × Key × List Char)
  | 0, _, _ => none
  | limit + 1, left, text =>
    match simpleKey? text with
    | none => none
    | some (name, rest) =>
      let key : Key := ⟨String.ofList name, between text rest, left, "", "", ""⟩
      match rest.dropWhile Strings.isBlank with
      | '.' :: more =>
        match keyPath? limit (blanks more) (more.dropWhile Strings.isBlank) with
        | some (path, last, stop) => some ({ key with right := blanks rest } :: path, last, stop)
        | none => none
      | _ => some ([], key, rest)

/-! ## Between the parts of a value -/

def passing (c : Char) : Option (List Char × List Char) → Option (List Char × List Char)
  | some (passed, rest) => some (c :: passed, rest)
  | none => none

/-- Passes over blanks, line ends and comments; `inComment` tells that a comment has begun. A line end is
taken as a line feed. -/
def trivia? (inComment : Bool) : List Char → Option (List Char × List Char)
  | [] => some ([], [])
  | c :: rest =>
    if c = '\n' then passing c (trivia? false rest)
    else if c = '\r' then if rest.head? = some '\n' then trivia? false rest else none
    else if inComment then if Strings.isInline c then passing c (trivia? true rest) else none
    else if Strings.isBlank c then passing c (trivia? false rest)
    else if c = '#' then passing c (trivia? true rest)
    else some ([], c :: rest)

/-! ## Values -/

def scalar? (text : List Char) : Option (String × Value × List Char) :=
  let (token, rest) := Scalar.span text
  (Scalar.read? token).map fun value => (String.ofList token, value, rest)

def string? (text : List Char) : Option (String × Value × List Char) :=
  (Strings.read? text).map fun (s, rest) => (between text rest, .text (String.ofList s), rest)

/-- Reads the items of an array after its bracket or a comma, to the closing bracket. Each step takes a
character, so the length of the text is fuel enough. -/
def items? (value : List Char → Option (String × Value × List Char)) :
    Nat → List Char → Option (String × List Value × List Char)
  | 0, _ => none
  | fuel + 1, text =>
    match trivia? false text with
    | none => none
    | some (before, ']' :: rest) => some (String.ofList before, [], rest)
    | some (before, rest) =>
      match value rest with
      | none => none
      | some (written, item, rest) =>
        match trivia? false rest with
        | some (after, ']' :: rest) =>
          some (String.ofList before ++ written ++ String.ofList after, [item], rest)
        | some (after, ',' :: rest) =>
          match items? value fuel rest with
          | some (more, items, rest) =>
            some (String.ofList before ++ written ++ String.ofList after ++ "," ++ more, item :: items, rest)
          | none => none
        | _ => none

def pair? (value : List Char → Option (String × Value × List Char)) (before : List Char)
    (items : Items) (text : List Char) : Option (Items × List Char) :=
  match keyPath? maxDepth "" text with
  | none => none
  | some (path, key, rest) =>
    match trivia? false rest with
    | some (after, '=' :: rest) =>
      match trivia? false rest with
      | none => none
      | some (gap, rest) =>
        match value rest with
        | none => none
        | some (written, v, rest) =>
          match trivia? false rest with
          | none => none
          | some (behind, rest) =>
            let key := { key with before := String.ofList before, after := String.ofList after }
            (items.addEntry path key ⟨String.ofList gap, written, v, String.ofList behind⟩).map
              fun items => (items, rest)
    | _ => none

/-- Reads the keys and values of an inline table after its brace or a comma, to the closing brace; what
stands before that brace without a key is given too. -/
def pairs? (value : List Char → Option (String × Value × List Char)) :
    Nat → Items → List Char → Option (String × Items × List Char)
  | 0, _, _ => none
  | fuel + 1, items, text =>
    match trivia? false text with
    | none => none
    | some (_, []) => none
    | some (before, c :: rest) =>
      if c = Char.ofNat 125 then some (String.ofList before, items, rest)
      else
        match pair? value before items (c :: rest) with
        | some (items, d :: rest) =>
          if d = ',' then pairs? value fuel items rest
          else if d = Char.ofNat 125 then some ("", items, rest)
          else none
        | _ => none

def inlineText (opening : String) (items : Items) : String :=
  "\x7b" ++ opening ++ String.intercalate "," ((Items.lines [] items).map Line.text) ++ "\x7d"

/-- Reads a value, with arrays and inline tables nested at most so deep: its text, its data, and the rest. -/
def value? : Nat → List Char → Option (String × Value × List Char)
  | _, [] => none
  | depth, c :: rest =>
    if c = Strings.basicMark ∨ c = Strings.literalMark then string? (c :: rest)
    else if c = '[' then
      match depth with
      | 0 => none
      | depth + 1 =>
        (items? (value? depth) (rest.length + 1) rest).map fun (text, items, rest) =>
          ("[" ++ text ++ "]", .array items, rest)
    else if c = Char.ofNat 123 then
      match depth with
      | 0 => none
      | depth + 1 =>
        (pairs? (value? depth) (rest.length + 1) [] rest).map fun (opening, items, rest) =>
          (inlineText opening items, .table (Items.data items), rest)
    else scalar? (c :: rest)

end SqlSelect.Toml.Reader
