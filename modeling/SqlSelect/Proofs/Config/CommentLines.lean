import SqlSelect.Config.Annotation
import SqlSelect.Proofs.Text.Lines
import SqlSelect.Toml.Strings
/-!
Comment lines. Documentation is added behind what already stands in front of an item, and whatever is added ends
its lines and begins each of them with a `#`, so that no part of it is ever read as data.
-/

namespace SqlSelect.Comments

/-- The comment for a line of documentation, without its line end. -/
def commentLine (line : List Char) : List Char :=
  if line = [] then ['#'] else '#' :: ' ' :: line

/-- Lines, each of them with its end. -/
def finished (lines : List (List Char)) : List Char :=
  lines.flatMap (· ++ ['\n'])

theorem finished_append (lines more : List (List Char)) :
    finished (lines ++ more) = finished lines ++ finished more :=
  List.flatMap_append

theorem toList_comment (line : List Char) :
    (comment (String.ofList line)).toList = commentLine line ++ ['\n'] := by
  cases line with
  | nil => rfl
  | cons c line => simp [comment, commentLine]

theorem toList_ofText (text : String) :
    (ofText text).toList = finished ((Lines.splitFrom [] text.toList).map commentLine) := by
  simp [ofText, finished, Lines.split, toList_comment, List.flatMap_map]

/-! ## One step -/

/-- The line end that an unfinished last line has yet to get. -/
def missingEnd (before : List Char) : List Char :=
  if before = [] ∨ before.getLast? = some '\n' then [] else ['\n']

/-- The lines that lines of documentation add: an empty comment behind finished lines, and one for each of them. -/
def addedLines (before : List Char) (lines : List (List Char)) : List (List Char) :=
  (if before.getLast? = some '\n' then [['#']] else []) ++ lines.map commentLine

theorem toList_addTo (before? : Option String) (text : String) :
    let before := (before?.getD "").toList
    let lines := Lines.splitFrom [] text.toList
    (addTo before? text).toList = before ++ missingEnd before ++ finished (addedLines before lines) := by
  intro before lines
  have own : finished (addedLines before lines) =
      finished (if before.getLast? = some '\n' then [['#']] else []) ++ (ofText text).toList := by
    rw [addedLines, finished_append, toList_ofText]
  rw [own]
  cases before? with
  | none => rfl
  | some standing =>
    by_cases absent : standing = ""
    · subst absent
      rfl
    · have filled : standing.toList ≠ [] := by simpa using absent
      have kept : standing.isEmpty = false := by simpa using absent
      by_cases ended : standing.toList.getLast? = some '\n' <;>
        simp [before, addTo, missingEnd, finished, kept, filled, ended]

theorem exists_commentLine_eq (line : List Char) :
    ∃ body, commentLine line = '#' :: body ∧ ∀ c ∈ body, c = ' ' ∨ c ∈ line := by
  cases line with
  | nil => exact ⟨[], rfl, by simp⟩
  | cons c line => exact ⟨' ' :: c :: line, rfl, by simp⟩

theorem comment_of_mem_addedLines {before : List Char} {lines : List (List Char)}
    (solid : ∀ line ∈ lines, '\n' ∉ line) {line : List Char} (added : line ∈ addedLines before lines) :
    line.head? = some '#' ∧ '\n' ∉ line := by
  rcases List.mem_append.mp added with bare | own
  · split at bare
    · obtain rfl := List.mem_singleton.mp bare
      exact ⟨rfl, by decide⟩
    · exact absurd bare List.not_mem_nil
  · obtain ⟨source, member, rfl⟩ := List.mem_map.mp own
    obtain ⟨body, written, own⟩ := exists_commentLine_eq source
    rw [written]
    refine ⟨rfl, ?_⟩
    intro feed
    rcases own '\n' ((List.mem_cons.mp feed).resolve_left (by decide)) with space | inside
    · exact absurd space (by decide)
    · exact solid source member inside

/-! ## Lines without data -/

/-- Whether a line is blank or a comment. -/
def isIdle (line : List Char) : Bool :=
  match line.dropWhile Toml.Strings.isBlank with
  | [] | ['\r'] => true
  | c :: _ => c == '#'

/-- A text of finished lines that are blank or comments. -/
def IsIdle (text : List Char) : Prop :=
  ∃ lines, text = finished lines ∧ ∀ line ∈ lines, '\n' ∉ line ∧ isIdle line = true

theorem isIdle_of_head? {line : List Char} (mark : line.head? = some '#') : isIdle line = true := by
  obtain ⟨rest, rfl⟩ := List.head?_eq_some_iff.mp mark
  have kept : ('#' :: rest).dropWhile Toml.Strings.isBlank = '#' :: rest :=
    List.dropWhile_cons_of_neg (by decide)
  simp [isIdle, kept]

/-- Behind finished lines no line end is missing. -/
theorem missingEnd_finished (lines : List (List Char)) : missingEnd (finished lines) = [] := by
  rcases lines.eq_nil_or_concat with rfl | ⟨earlier, last, rfl⟩
  · rfl
  · exact if_pos (.inr (by simp [finished]))

theorem IsIdle.addTo {before? : Option String} (idle : IsIdle (before?.getD "").toList) (text : String) :
    IsIdle (addTo before? text).toList := by
  obtain ⟨lines, standing, each⟩ := idle
  refine ⟨lines ++ addedLines (before?.getD "").toList (Lines.splitFrom [] text.toList), ?_, ?_⟩
  · rw [toList_addTo, finished_append, standing, missingEnd_finished, List.append_nil]
  · intro line member
    rcases List.mem_append.mp member with old | new
    · exact each line old
    · obtain ⟨mark, solid⟩ := comment_of_mem_addedLines (fun _ => (Lines.isSplit text.toList).not_mem) new
      exact ⟨solid, isIdle_of_head? mark⟩

/-! ## A run of steps -/

/-- What stands in front of an item after some documentation was added, one text after another. -/
def addAll (before? : Option String) : List String → Option String
  | [] => before?
  | text :: rest => addAll (some (addTo before? text)) rest

theorem addAll_append (before? : Option String) (texts more : List String) :
    addAll before? (texts ++ more) = addAll (addAll before? texts) more := by
  induction texts generalizing before? with
  | nil => rfl
  | cons text rest ih => exact ih _

theorem IsIdle.addAll {before? : Option String} (idle : IsIdle (before?.getD "").toList) (texts : List String) :
    IsIdle ((addAll before? texts).getD "").toList := by
  induction texts generalizing before? with
  | nil => exact idle
  | cons text rest ih => exact @ih (some (Comments.addTo before? text)) (idle.addTo text)

/-- Adding documentation keeps what stands in front, ends its last line if need be, and adds finished lines that
each begin with a `#`: a bare one behind finished lines, and the lines of the documentation in their order. So after
any number of steps no line holds data if none did before. -/
theorem documentation_adds_comments (before? : Option String) (texts : List String) :
    let standing (n : Nat) := ((addAll before? (texts.take n)).getD "").toList
    (∀ n text, texts[n]? = some text →
      let lines := Lines.splitFrom [] text.toList
      let added := addedLines (standing n) lines
      Lines.IsSplit text.toList lines ∧
        standing (n + 1) = standing n ++ missingEnd (standing n) ++ finished added ∧
        ∀ line ∈ added, line.head? = some '#' ∧ '\n' ∉ line) ∧
    (IsIdle (before?.getD "").toList → ∀ n, IsIdle (standing n)) := by
  intro standing
  refine ⟨?_, fun idle n => idle.addAll (texts.take n)⟩
  intro n text here lines added
  have split := Lines.isSplit text.toList
  refine ⟨split, ?_, fun line => comment_of_mem_addedLines fun _ => split.not_mem⟩
  have next : addAll before? (texts.take (n + 1)) = some (addTo (addAll before? (texts.take n)) text) := by
    rw [List.take_add_one, here, addAll_append]
    rfl
  have step := toList_addTo (addAll before? (texts.take n)) text
  rw [← Option.getD_some (a := addTo _ text) (b := ""), ← next] at step
  exact step

example : addAll (some "# old") ["one\r\n\ntwo", ""] = some "# old\n# one\n#\n# two\n#\n" := by
  decide

end SqlSelect.Comments
