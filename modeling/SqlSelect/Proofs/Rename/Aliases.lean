import SqlSelect.Proofs.Text.Gaps
import SqlSelect.Proofs.Text.Numeral
import SqlSelect.Rename.Settings
/-!
Aliases made from a template. Putting in a table's name leaves the counter in place, so the aliases of one table
differ. Those of different tables may be equal, but not with the default template. A template that is accepted has
the counter, and besides the placeholders only what an identifier is made of.
-/

namespace SqlSelect

open Substitute

namespace RenameSettings

theorem occurs_counter_after_table (rest : List Char) :
    occurs counterPlaceholder.toList (tablePlaceholder.toList ++ rest) =
      occurs counterPlaceholder.toList rest := by
  simp [counterPlaceholder, tablePlaceholder, occurs, after?]

theorem scan_table_after_counter (value rest : List Char) :
    scan tablePlaceholder.toList value 0 (counterPlaceholder.toList ++ rest) =
      counterPlaceholder.toList ++ scan tablePlaceholder.toList value 0 rest := by
  simp [counterPlaceholder, tablePlaceholder, scan, after?]

/-- The two placeholders never overlap, so a counter is still there when the table's name is put in. -/
theorem occurs_counter_scan (value : List Char) (skip : Nat) {text : List Char}
    (h : occurs counterPlaceholder.toList (text.drop skip) = true) :
    occurs counterPlaceholder.toList (scan tablePlaceholder.toList value skip text) = true := by
  induction text generalizing skip with
  | nil => simpa [scan] using h
  | cons c text ih =>
    cases skip with
    | succ k => exact ih k h
    | zero =>
      rw [List.drop_zero] at h
      cases table : after? tablePlaceholder.toList (c :: text) with
      | some rest =>
        -- no counter begins inside a table placeholder, so it stands in the rest
        have split := after?_eq_some.mp table
        have dropped : text.drop (tablePlaceholder.toList.length - 1) = rest := by
          have := congrArg (List.drop tablePlaceholder.toList.length) split
          simpa [tablePlaceholder] using this
        rw [split, occurs_counter_after_table, ← dropped] at h
        simpa only [scan, table] using occurs_append value (ih _ h)
      | none =>
        cases counter : after? counterPlaceholder.toList (c :: text) with
        | some rest =>
          rw [after?_eq_some.mp counter, scan_table_after_counter]
          simp [counterPlaceholder, occurs, after?]
        | none =>
          have later : occurs counterPlaceholder.toList text = true := by simpa [occurs, counter] using h
          simpa only [scan, table, List.singleton_append] using occurs_append [c] (ih 0 later)

/-- The template has a place for the number. -/
def HasCounter (s : RenameSettings) : Prop :=
  occurs counterPlaceholder.toList s.template.toList = true

theorem hasCounter_of_resolve {s : RenameSettings} (accepted : s.resolve.2 = .ok ()) : s.HasCounter := by
  have filled : s.filled.template = s.template := rfl
  cases counter : occurs counterPlaceholder.toList s.template.toList with
  | true => exact counter
  | false => simp [resolve, check, filled, counter] at accepted

theorem aliasFor_injective {s : RenameSettings} (counter : s.HasCounter) (table : String) {n m : Nat}
    (same : s.aliasFor table n = s.aliasFor table m) : n = m := by
  have kept := occurs_counter_scan table.toList 0 counter
  have texts := congrArg String.toList same
  simp only [aliasFor, Substitute.replace, String.toList_ofList] at texts
  exact Numeral.ofNat_injective (scan_injective (by decide) kept texts)

/-! ## The default template -/

theorem hasCounter_of_default {s : RenameSettings} (usual : s.template = defaultTemplate) :
    s.HasCounter := by
  rw [HasCounter, usual]
  decide

theorem not_mem_of_isIdentifier {name : String} (h : isIdentifier name = true) {c : Char}
    (hc : (isIdentifierStart c || c.isDigit) = false) : c ∉ name.toList := by
  unfold isIdentifier at h
  cases letters : name.toList with
  | nil => simp
  | cons d rest =>
    simp only [letters, Bool.and_eq_true, List.all_eq_true] at h
    rintro (_ | ⟨_, member⟩)
    · simp [h.1] at hc
    · simp [h.2 c member] at hc

theorem isPart_of_mem_isIdentifier {name : String} (h : isIdentifier name = true) {c : Char}
    (member : c ∈ name.toList) : (isIdentifierStart c || c.isDigit) = true := by
  cases part : isIdentifierStart c || c.isDigit with
  | true => rfl
  | false => exact (not_mem_of_isIdentifier h part member).elim

theorem aliasFor_default {s : RenameSettings} (usual : s.template = defaultTemplate) {table : String}
    (h : isIdentifier table = true) (n : Nat) :
    s.aliasFor table n = table ++ "_" ++ String.ofList (Numeral.ofNat n) := by
  have brace : '\x7b' ∉ table.toList := not_mem_of_isIdentifier h (by decide)
  have first : scan tablePlaceholder.toList table.toList 0 defaultTemplate.toList =
      table.toList ++ ("_" ++ counterPlaceholder).toList := by
    simp [tablePlaceholder, defaultTemplate, counterPlaceholder, scan, after?]
  have kept := scan_append_of_not_mem counterPlaceholder.toList rfl brace (Numeral.ofNat n)
    ("_" ++ counterPlaceholder).toList
  have second : scan counterPlaceholder.toList (Numeral.ofNat n) 0 ("_" ++ counterPlaceholder).toList =
      '_' :: Numeral.ofNat n := by
    simp [counterPlaceholder, scan, after?]
  have letters : (s.aliasFor table n).toList = table.toList ++ '_' :: Numeral.ofNat n := by
    simp only [aliasFor, usual, Substitute.replace, String.toList_ofList]
    rw [first, kept, second]
  apply String.toList_injective
  simp [letters]

theorem underscore_not_mem_ofNat (n : Nat) : '_' ∉ Numeral.ofNat n := fun h =>
  absurd (Numeral.isDigit_of_mem_ofNat h) (by decide)

theorem eq_nil_of_underscore_cons {digits between more : List Char} (hd : '_' ∉ digits)
    (same : '_' :: digits = between ++ '_' :: more) : between = [] ∧ digits = more := by
  cases between with
  | nil => exact ⟨rfl, (List.cons.inj same).2⟩
  | cons c between =>
    have inside : digits = between ++ '_' :: more := (List.cons.inj same).2
    exact (hd (by simp [inside])).elim

/-- A text is cut in one way at an underscore that has none behind it. -/
theorem eq_of_append_underscore {name other digits more : List Char} (hd : '_' ∉ digits) (hm : '_' ∉ more)
    (same : name ++ '_' :: digits = other ++ '_' :: more) : name = other ∧ digits = more := by
  rcases List.append_eq_append_iff.mp same with ⟨between, left, right⟩ | ⟨between, left, right⟩
  · obtain ⟨rfl, digits⟩ := eq_nil_of_underscore_cons hd right
    exact ⟨by simpa using left.symm, digits⟩
  · obtain ⟨rfl, digits⟩ := eq_nil_of_underscore_cons hm right
    exact ⟨by simpa using left, digits.symm⟩

/-- With the default template an alias tells its table and its number. -/
theorem aliasFor_default_injective {s : RenameSettings} (usual : s.template = defaultTemplate)
    {table other : String} (ht : isIdentifier table = true) (ho : isIdentifier other = true) {n m : Nat}
    (same : s.aliasFor table n = s.aliasFor other m) : table = other ∧ n = m := by
  rw [aliasFor_default usual ht, aliasFor_default usual ho] at same
  have letters : table.toList ++ '_' :: Numeral.ofNat n = other.toList ++ '_' :: Numeral.ofNat m := by
    simpa using congrArg String.toList same
  obtain ⟨tables, numbers⟩ :=
    eq_of_append_underscore (underscore_not_mem_ofNat n) (underscore_not_mem_ofNat m) letters
  exact ⟨String.toList_injective tables, Numeral.ofNat_injective numbers⟩

end RenameSettings

/-! ## Accepted templates -/

namespace RenameSettings

theorem check_eq_ok {s : RenameSettings} :
    s.check = .ok () ↔
      Substitute.occurs counterPlaceholder.toList s.template.toList = true ∧
        isIdentifier (s.aliasFor "t" 1) = true := by
  cases counter : Substitute.occurs counterPlaceholder.toList s.template.toList <;>
    cases named : isIdentifier (s.aliasFor "t" 1) <;> simp [check, counter, named]

/-- What a template that is accepted may be made of. -/
def isTemplatePart (c : Char) : Bool :=
  isIdentifierStart c || c.isDigit || c == Char.ofNat 123 || c == Char.ofNat 125

/-- Only the placeholders go when the first alias is made, and that is an identifier. -/
theorem isTemplatePart_of_check {s : RenameSettings} (accepted : s.check = .ok ()) :
    ∀ c ∈ s.template.toList, isTemplatePart c = true := by
  intro c member
  have named := (check_eq_ok.mp accepted).2
  have table : ∀ c ∈ tablePlaceholder.toList, isTemplatePart c = true := List.all_eq_true.mp (by decide)
  have counter : ∀ c ∈ counterPlaceholder.toList, isTemplatePart c = true := List.all_eq_true.mp (by decide)
  rcases Substitute.mem_replace (by decide : tablePlaceholder.toList ≠ []) "t" member with inside | kept
  · exact table c inside
  · rcases Substitute.mem_replace (by decide : counterPlaceholder.toList ≠ [])
      (String.ofList (Numeral.ofNat 1)) kept with inside | kept
    · exact counter c inside
    · simp only [isTemplatePart, isPart_of_mem_isIdentifier named kept, Bool.true_or]

end RenameSettings

end SqlSelect
