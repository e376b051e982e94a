/-!
Texts as lists of characters: the white space at their ends, their lines, the occurrences of a pattern, and the
literals that SQL writes for them.
-/

namespace SqlSelect

/-! ## White space -/

namespace Blank

/-- The property White_Space: twenty-five characters. -/
def isBlank (c : Char) : Bool :=
  let n := c.toNat
  (9 ≤ n && n ≤ 13) || n == 0x20 || n == 0x85 || n == 0xA0 || n == 0x1680 ||
  (0x2000 ≤ n && n ≤ 0x200A) || n == 0x2028 || n == 0x2029 || n == 0x202F || n == 0x205F || n == 0x3000

def trim (text : List Char) : List Char :=
  ((text.dropWhile isBlank).reverse.dropWhile isBlank).reverse

end Blank

/-! ## Lines -/

namespace Lines

def finish (line : List Char) : List Char :=
  match line.reverse with
  | '\r' :: rest => rest.reverse
  | _ => line

/-- The lines of a text after the characters `line` of an unfinished one. -/
def splitFrom (line : List Char) : List Char → List (List Char)
  | [] => if line.isEmpty then [] else [line]
  | c :: rest => if c = '\n' then finish line :: splitFrom [] rest else splitFrom (line ++ [c]) rest

/-- The lines of a text; one that no line feed ends is kept as it is. -/
def split (text : String) : List String :=
  (splitFrom [] text.toList).map String.ofList

end Lines

/-! ## Patterns -/

namespace Substitute

def after? : List Char → List Char → Option (List Char)
  | [], text => some text
  | _ :: _, [] => none
  | p :: pattern, c :: text => if p = c then after? pattern text else none

/-- Scans a text; `skip` counts the characters that belong to a match already replaced. -/
def scan (pattern value : List Char) (skip : Nat) : List Char → List Char
  | [] => []
  | c :: text =>
    match skip with
    | k + 1 => scan pattern value k text
    | 0 =>
      match after? pattern (c :: text) with
      | some _ => value ++ scan pattern value (pattern.length - 1) text
      | none => c :: scan pattern value 0 text

/-- Every occurrence of a non-empty pattern replaced by a value. -/
def replace (pattern value text : String) : String :=
  String.ofList (scan pattern.toList value.toList 0 text.toList)

def occurs (pattern : List Char) : List Char → Bool
  | [] => pattern.isEmpty
  | c :: text => (after? pattern (c :: text)).isSome || occurs pattern text

end Substitute

/-! ## Text literals -/

namespace Quoted

def mark : Char := Char.ofNat 39

def double : List Char → List Char
  | [] => []
  | c :: rest => if c = mark then mark :: mark :: double rest else c :: double rest

def literal (text : String) : String :=
  String.ofList (mark :: double text.toList ++ [mark])

/-- Reads from inside a literal up to the first quote that is not doubled: the value and what follows. -/
def readBody : List Char → Option (List Char × List Char)
  | [] => none
  | c :: rest =>
    if c = mark then
      match rest with
      | d :: more => if d = mark then (readBody more).map fun (v, r) => (mark :: v, r) else some ([], rest)
      | [] => some ([], [])
    else (readBody rest).map fun (v, r) => (c :: v, r)

def read? : List Char → Option (List Char × List Char)
  | [] => none
  | c :: rest => if c = mark then readBody rest else none

end Quoted

end SqlSelect
