import Mathlib
import SqlSelect.Proofs.Rename.Aliases
/-!
What templates expand to. A template that passes the check is made of placeholders and of characters of
identifiers. So it makes no difference that the table is put in before the number, and every table and every
number give an identifier.
-/

namespace SqlSelect

namespace Substitute

/-- Several patterns replaced in one scan, so that no value is looked into; where two of them begin, the
first counts. -/
def scanEach (rules : List (List Char × List Char)) (skip : Nat) : List Char → List Char
  | [] => []
  | c :: text =>
    match skip with
    | k + 1 => scanEach rules k text
    | 0 =>
      match rules.find? fun rule => (after? rule.1 (c :: text)).isSome with
      | some rule => rule.2 ++ scanEach rules (rule.1.length - 1) text
      | none => c :: scanEach rules 0 text

/-- Every occurrence of each pattern replaced by its value, all at once. -/
def replaceEach (rules : List (String × String)) (text : String) : String :=
  String.ofList (scanEach (rules.map fun (pattern, value) => (pattern.toList, value.toList)) 0 text.toList)

/-- A value is told by its first character: what begins a scanned text without it began the text. -/
theorem prefix_of_prefix_scan {pattern value word text : List Char} {d : Char} (outside : d ∉ word)
    (h : word <+: scan pattern (d :: value) 0 text) : word <+: text := by
  induction word generalizing text with
  | nil => exact List.nil_prefix
  | cons w word ih =>
    obtain ⟨differs, outside⟩ := not_or.mp (mt List.mem_cons.mpr outside)
    cases text with
    | nil => exact h
    | cons c text =>
      cases found : after? pattern (c :: text) with
      | some rest =>
        simp only [scan, found, List.cons_append] at h
        exact (differs (List.cons_prefix_cons.mp h).1.symm).elim
      | none =>
        simp only [scan, found] at h
        obtain ⟨same, later⟩ := List.cons_prefix_cons.mp h
        exact List.cons_prefix_cons.mpr ⟨same, ih outside later⟩

theorem after?_eq_none {pattern text : List Char} : after? pattern text = none ↔ ¬ pattern <+: text := by
  rw [Option.eq_none_iff_forall_ne_some]
  constructor
  · rintro missing ⟨rest, rfl⟩
    exact missing rest (after?_eq_some.mpr rfl)
  · intro apart rest found
    exact apart ⟨rest, (after?_eq_some.mp found).symm⟩

end Substitute

theorem isIdentifier_iff (name : String) :
    isIdentifier name = true ↔ name.toList.head?.any isIdentifierStart = true ∧
      ∀ c ∈ name.toList, (isIdentifierStart c || c.isDigit) = true := by
  unfold isIdentifier
  cases name.toList with
  | nil => simp
  | cons c rest => simp +contextual

namespace RenameSettings

open Substitute

/-- A text with the table put in first and the number next. -/
def expand (table number text : List Char) : List Char :=
  scan counterPlaceholder.toList number 0 (scan tablePlaceholder.toList table 0 text)

/-- Both put in at once. -/
def expandAtOnce (table number : List Char) : List Char → List Char :=
  scanEach [(tablePlaceholder.toList, table), (counterPlaceholder.toList, number)] 0

theorem toList_aliasFor (s : RenameSettings) (table : String) (n : Nat) :
    (s.aliasFor table n).toList = expand table.toList (Numeral.ofNat n) s.template.toList := by
  simp only [aliasFor, Substitute.replace, String.toList_ofList, expand]

variable {table number : List Char}

theorem expand_counter (rest : List Char) :
    expand table number (counterPlaceholder.toList ++ rest) = number ++ expand table number rest := by
  rw [expand, scan_table_after_counter]
  simp [counterPlaceholder, scan, after?, expand]

theorem expand_table (brace : '\x7b' ∉ table) (rest : List Char) :
    expand table number (tablePlaceholder.toList ++ rest) = table ++ expand table number rest := by
  have put : scan tablePlaceholder.toList table 0 (tablePlaceholder.toList ++ rest) =
      table ++ scan tablePlaceholder.toList table 0 rest := by
    simp [tablePlaceholder, scan, after?]
  rw [expand, put, scan_append_of_not_mem counterPlaceholder.toList rfl brace, expand]

theorem expand_letter {c : Char} (letter : c ≠ '\x7b') (rest : List Char) :
    expand table number (c :: rest) = c :: expand table number rest := by
  simp [expand, scan, after?, counterPlaceholder, tablePlaceholder, Ne.symm letter]

/-- A character at which no placeholder begins stays: with the table `t` put in, none begins there either. -/
theorem expand_other {c : Char} {rest : List Char} (noTable : ¬ tablePlaceholder.toList <+: c :: rest)
    (noCounter : ¬ counterPlaceholder.toList <+: c :: rest) :
    expand ['t'] number (c :: rest) = c :: expand ['t'] number rest := by
  have kept : scan tablePlaceholder.toList ['t'] 0 (c :: rest) =
      c :: scan tablePlaceholder.toList ['t'] 0 rest := by
    simp only [scan, after?_eq_none.mpr noTable]
  have stillNone : ¬ counterPlaceholder.toList <+: c :: scan tablePlaceholder.toList ['t'] 0 rest := by
    intro begins
    obtain ⟨same, later⟩ := List.cons_prefix_cons.mp begins
    exact noCounter (List.cons_prefix_cons.mpr ⟨same, prefix_of_prefix_scan (by decide) later⟩)
  rw [expand, kept]
  simp only [scan, after?_eq_none.mpr stillNone, expand]

theorem expandAtOnce_counter (rest : List Char) :
    expandAtOnce table number (counterPlaceholder.toList ++ rest) =
      number ++ expandAtOnce table number rest := by
  simp [expandAtOnce, scanEach, after?, counterPlaceholder, tablePlaceholder]

theorem expandAtOnce_table (rest : List Char) :
    expandAtOnce table number (tablePlaceholder.toList ++ rest) =
      table ++ expandAtOnce table number rest := by
  simp [expandAtOnce, scanEach, after?, tablePlaceholder]

theorem expandAtOnce_letter {c : Char} (letter : c ≠ '\x7b') (rest : List Char) :
    expandAtOnce table number (c :: rest) = c :: expandAtOnce table number rest := by
  simp [expandAtOnce, scanEach, after?, counterPlaceholder, tablePlaceholder, Ne.symm letter]

/-! ## Well-formed templates -/

/-- Texts made of placeholders and of characters of identifiers. -/
inductive Formed : List Char → Prop where
  | nil : Formed []
  | table {rest : List Char} : Formed rest → Formed (tablePlaceholder.toList ++ rest)
  | counter {rest : List Char} : Formed rest → Formed (counterPlaceholder.toList ++ rest)
  | letter {c : Char} {rest : List Char} :
    (isIdentifierStart c || c.isDigit) = true → Formed rest → Formed (c :: rest)

theorem ne_brace_of_isPart {c : Char} (part : (isIdentifierStart c || c.isDigit) = true) : c ≠ '\x7b' := by
  rintro rfl
  exact absurd part (by decide)

/-- Induction along a template: it begins with a placeholder or with a character at which none begins. -/
@[elab_as_elim]
theorem template_induction {P : List Char → Prop} (nil : P [])
    (table : ∀ rest, P rest → P (tablePlaceholder.toList ++ rest))
    (counter : ∀ rest, P rest → P (counterPlaceholder.toList ++ rest))
    (other : ∀ c rest, ¬ tablePlaceholder.toList <+: c :: rest → ¬ counterPlaceholder.toList <+: c :: rest →
      P rest → P (c :: rest)) (text : List Char) : P text := by
  induction size : text.length using Nat.strongRecOn generalizing text with
  | ind n ih =>
    have behind : ∀ word rest, word ≠ [] → text = word ++ rest → P rest := by
      rintro word rest nonempty rfl
      refine ih rest.length ?_ rest rfl
      rw [← size, List.length_append]
      exact Nat.lt_add_of_pos_left (List.length_pos_iff.mpr nonempty)
    by_cases beginsTable : tablePlaceholder.toList <+: text
    · obtain ⟨rest, rfl⟩ := beginsTable
      exact table rest (behind _ rest (by decide) rfl)
    · by_cases beginsCounter : counterPlaceholder.toList <+: text
      · obtain ⟨rest, rfl⟩ := beginsCounter
        exact counter rest (behind _ rest (by decide) rfl)
      · cases text with
        | nil => exact nil
        | cons c rest => exact other c rest beginsTable beginsCounter (behind [c] rest (List.cons_ne_nil c []) rfl)

/-- One expansion shows that a text is well formed: what it keeps has to be of an identifier. -/
theorem formed_of_expand {text : List Char}
    (parts : ∀ c ∈ expand ['t'] number text, (isIdentifierStart c || c.isDigit) = true) : Formed text := by
  induction text using template_induction with
  | nil => exact .nil
  | table rest ih =>
    rw [expand_table (by decide)] at parts
    exact .table (ih (List.forall_mem_append.mp parts).2)
  | counter rest ih =>
    rw [expand_counter] at parts
    exact .counter (ih (List.forall_mem_append.mp parts).2)
  | other c rest noTable noCounter ih =>
    rw [expand_other noTable noCounter] at parts
    obtain ⟨part, parts⟩ := List.forall_mem_cons.mp parts
    exact .letter part (ih parts)

theorem Formed.expand_eq {text : List Char} (formed : Formed text) (brace : '\x7b' ∉ table) :
    expand table number text = expandAtOnce table number text := by
  induction formed with
  | nil => rfl
  | table _ ih => rw [expand_table brace, expandAtOnce_table, ih]
  | counter _ ih => rw [expand_counter, expandAtOnce_counter, ih]
  | letter part _ ih =>
    have letter := ne_brace_of_isPart part
    rw [expand_letter letter, expandAtOnce_letter letter, ih]

theorem Formed.isPart_of_mem_expand {text : List Char} (formed : Formed text) (brace : '\x7b' ∉ table)
    (tables : ∀ c ∈ table, (isIdentifierStart c || c.isDigit) = true)
    (numbers : ∀ c ∈ number, (isIdentifierStart c || c.isDigit) = true) :
    ∀ c ∈ expand table number text, (isIdentifierStart c || c.isDigit) = true := by
  induction formed with
  | nil => simp [expand, scan]
  | table _ ih =>
    rw [expand_table brace]
    exact List.forall_mem_append.mpr ⟨tables, ih⟩
  | counter _ ih =>
    rw [expand_counter]
    exact List.forall_mem_append.mpr ⟨numbers, ih⟩
  | letter part _ ih =>
    rw [expand_letter (ne_brace_of_isPart part)]
    exact List.forall_mem_cons.mpr ⟨part, ih⟩

/-- A template begins with a letter or with the table: its first alias does not begin with a number. -/
theorem Formed.starts_expand {text : List Char} (formed : Formed text) (brace : '\x7b' ∉ table)
    (first : (expand ['t'] ['1'] text).head?.any isIdentifierStart = true)
    (starts : table.head?.any isIdentifierStart = true) :
    (expand table number text).head?.any isIdentifierStart = true := by
  cases formed with
  | nil => exact first
  | table _ =>
    obtain ⟨c, rest, rfl⟩ := List.exists_cons_of_ne_nil (l := table) (by rintro rfl; simp at starts)
    rw [expand_table brace]
    exact starts
  | counter _ =>
    rw [expand_counter] at first
    have digit : isIdentifierStart '1' = false := by decide
    simp [digit] at first
  | letter part _ =>
    have letter := ne_brace_of_isPart part
    rw [expand_letter letter] at first ⊢
    exact first

/-! ## Accepted templates -/

variable {s : RenameSettings}

theorem resolve_eq_ok : s.resolve.2 = .ok () ↔ s.HasCounter ∧ isIdentifier (s.aliasFor "t" 1) = true :=
  check_eq_ok

theorem formed_of_resolve (accepted : s.resolve.2 = .ok ()) : Formed s.template.toList := by
  have named := (resolve_eq_ok.mp accepted).2
  rw [isIdentifier_iff, toList_aliasFor] at named
  exact formed_of_expand named.2

theorem isIdentifier_aliasFor (accepted : s.resolve.2 = .ok ()) {table : String}
    (name : isIdentifier table = true) (n : Nat) : isIdentifier (s.aliasFor table n) = true := by
  have formed := formed_of_resolve accepted
  have brace : '\x7b' ∉ table.toList := not_mem_of_isIdentifier name (by decide)
  have first := (resolve_eq_ok.mp accepted).2
  rw [isIdentifier_iff, toList_aliasFor] at first
  rw [isIdentifier_iff] at name ⊢
  rw [toList_aliasFor]
  refine ⟨formed.starts_expand brace first.1 name.1, formed.isPart_of_mem_expand brace name.2 ?_⟩
  intro c member
  rw [Numeral.isDigit_of_mem_ofNat member, Bool.or_true]

theorem aliasFor_eq_replaceEach (accepted : s.resolve.2 = .ok ()) {table : String}
    (name : isIdentifier table = true) (n : Nat) :
    s.aliasFor table n = Substitute.replaceEach
      [(tablePlaceholder, table), (counterPlaceholder, String.ofList (Numeral.ofNat n))] s.template := by
  have brace : '\x7b' ∉ table.toList := not_mem_of_isIdentifier name (by decide)
  apply String.toList_injective
  rw [toList_aliasFor, (formed_of_resolve accepted).expand_eq brace]
  simp [Substitute.replaceEach, expandAtOnce]

/-- A template is accepted just if it has the counter and makes an identifier of every identifier and every
number, though only one alias is looked at; and the aliases of an accepted one are those in which the table
and the number are put in at once. -/
theorem resolve_iff_identifiers (s : RenameSettings) :
    (s.resolve.2 = .ok () ↔
      s.HasCounter ∧ ∀ table n, isIdentifier table = true → isIdentifier (s.aliasFor table n) = true) ∧
    (s.resolve.2 = .ok () → ∀ table n, isIdentifier table = true →
      s.aliasFor table n = Substitute.replaceEach
        [(tablePlaceholder, table), (counterPlaceholder, String.ofList (Numeral.ofNat n))] s.template) := by
  refine ⟨⟨?_, ?_⟩, ?_⟩
  · intro accepted
    refine ⟨hasCounter_of_resolve accepted, ?_⟩
    intro table n name
    exact isIdentifier_aliasFor accepted name n
  · rintro ⟨counter, identifiers⟩
    exact resolve_eq_ok.mpr ⟨counter, identifiers "t" 1 (by decide)⟩
  · intro accepted table n name
    exact aliasFor_eq_replaceEach accepted name n

theorem identifier_from_numbered_template :
    let s : RenameSettings := ⟨none, some ("t" ++ counterPlaceholder ++ tablePlaceholder ++ counterPlaceholder)⟩
    s.resolve.2 = .ok () ∧ isIdentifier "n_table" = true ∧ s.HasCounter ∧
      isIdentifier (s.aliasFor "n_table" 12) = true ∧ s.aliasFor "n_table" 12 = "t12n_table12" := by
  intro s
  obtain ⟨identifiers, atOnce⟩ := resolve_iff_identifiers s
  have accepted : s.resolve.2 = .ok () := by cbv
  have name : isIdentifier "n_table" = true := by decide
  obtain ⟨counter, all⟩ := identifiers.mp accepted
  exact ⟨accepted, name, counter, all "n_table" 12 name,
    (atOnce accepted "n_table" 12 name).trans (by cbv)⟩

end RenameSettings

end SqlSelect
