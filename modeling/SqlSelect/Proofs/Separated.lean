import Mathlib.Data.List.Forall2
import SqlSelect.Proofs.Numbered.Pieces
import SqlSelect.Proofs.Written
/-!
Parts with a separator between them. A rendering hands its renaming from one part to the next and joins their
texts; and two joins in which no part of the one is longer than its counterpart are the same just if all parts are.
-/

namespace SqlSelect

namespace Rendering

theorem separated_append (separator : String) {parts more : List (List Piece)} (hp : parts ≠ [])
    (hm : more ≠ []) : separated separator (parts ++ more) =
      separated separator parts ++ .text separator :: separated separator more := by
  induction parts with
  | nil => exact (hp rfl).elim
  | cons pieces rest ih =>
    cases rest with
    | nil =>
      obtain ⟨next, rest, rfl⟩ := List.exists_cons_of_ne_nil hm
      rfl
    | cons next rest =>
      have step := ih (List.cons_ne_nil next rest)
      simp only [List.cons_append] at step ⊢
      simp [separated, step]

/-- Separated lists of parts are separated like all the parts in one list, if each of them has a part. -/
theorem separated_flatMap (separator : String) {α : Type} (f : α → List (List Piece)) {items : List α}
    (filled : ∀ a ∈ items, f a ≠ []) :
    separated separator (items.map fun a => separated separator (f a)) =
      separated separator (items.flatMap f) := by
  induction items with
  | nil => rfl
  | cons a rest ih =>
    have later : ∀ b ∈ rest, f b ≠ [] := fun b member => filled b (List.mem_cons_of_mem _ member)
    have first := filled a List.mem_cons_self
    cases rest with
    | nil => simp [separated]
    | cons b rest =>
      have more : (b :: rest).flatMap f ≠ [] := by simp [filled b (by simp)]
      rw [List.flatMap_cons, separated_append separator first more, ← ih later]
      rfl

/-! ## Texts -/

/-- The text of each part, rendered with the renaming that the part before it left. -/
def texts : List (List Piece) → Renaming → List String × Renaming
  | [], r => ([], r)
  | part :: rest, r =>
    let (text, r) := under part r
    let (more, r) := texts rest r
    (text :: more, r)

theorem under_cons_text (s : String) (ps : List Piece) (r : Renaming) :
    under (.text s :: ps) r = (s ++ (under ps r).1, (under ps r).2) :=
  rfl

theorem under_separated (separator : String) (parts : List (List Piece)) (r : Renaming) :
    under (separated separator parts) r = (separator.intercalate (texts parts r).1, (texts parts r).2) := by
  induction parts generalizing r with
  | nil => simp [separated, under, texts]
  | cons part rest ih =>
    cases rest with
    | nil => simp [separated, texts]
    | cons next rest =>
      rw [separated, under_append, under_cons_text, ih]
      · simp [texts, String.append_assoc]
      · exact List.cons_ne_nil next rest

/-- Parts that render alike under every renaming can stand for each other. -/
theorem under_separated_congr (separator : String) {α : Type} {f g : α → List Piece} {items : List α}
    (same : ∀ a ∈ items, ∀ r, under (f a) r = under (g a) r) (r : Renaming) :
    under (separated separator (items.map f)) r = under (separated separator (items.map g)) r := by
  have all : texts (items.map f) r = texts (items.map g) r := by
    induction items generalizing r with
    | nil => rfl
    | cons a rest ih =>
      have later := ih fun b member => same b (List.mem_cons_of_mem _ member)
      simp only [List.map_cons, texts, same a List.mem_cons_self, later]
  rw [under_separated, under_separated, all]

theorem texts_off (parts : List (List Piece)) : texts parts .off = (parts.map plain, .off) := by
  induction parts with
  | nil => rfl
  | cons part rest ih => simp only [texts, under_off, ih, List.map_cons]

theorem plain_separated (separator : String) (parts : List (List Piece)) :
    plain (separated separator parts) = separator.intercalate (parts.map plain) := by
  have text := under_separated separator parts .off
  rw [under_off, texts_off] at text
  exact congrArg Prod.fst text

end Rendering

theorem intercalate_flatMap (separator : String) {α : Type} (f : α → List String) {items : List α}
    (filled : ∀ a ∈ items, f a ≠ []) :
    separator.intercalate (items.map fun a => separator.intercalate (f a)) =
      separator.intercalate (items.flatMap f) := by
  have parted : ∀ a ∈ items, (f a).map (fun text => [Piece.text text]) ≠ [] := by simpa using filled
  have joined := congrArg Rendering.plain (Rendering.separated_flatMap separator _ parted)
  have single (text : String) : Rendering.plain [.text text] = text := String.append_empty
  simpa only [Rendering.plain_separated, List.map_map, List.map_flatMap, Function.comp_def, single,
    List.map_id_fun', id_eq] using joined

theorem forall₂_flatMap {α β γ : Type} {R : β → γ → Prop} {f : α → List β} {g : α → List γ} {items : List α}
    (related : ∀ a ∈ items, List.Forall₂ R (f a) (g a)) :
    List.Forall₂ R (items.flatMap f) (items.flatMap g) := by
  induction items with
  | nil => exact .nil
  | cons a rest ih =>
    have later := ih fun b member => related b (List.mem_cons_of_mem _ member)
    exact List.rel_append (related a List.mem_cons_self) later

theorem flatMap_eq_iff {α β : Type} {f g : α → List β} {items : List α}
    (lengths : ∀ a ∈ items, (f a).length = (g a).length) :
    items.flatMap f = items.flatMap g ↔ ∀ a ∈ items, f a = g a := by
  refine ⟨?_, List.flatMap_congr⟩
  induction items with
  | nil => exact fun _ a member => (List.not_mem_nil member).elim
  | cons a rest ih =>
    intro same
    obtain ⟨first, later⟩ := List.append_inj same (lengths a List.mem_cons_self)
    have others := ih (fun b member => lengths b (List.mem_cons_of_mem _ member)) later
    exact List.forall_mem_cons.mpr ⟨first, others⟩

theorem length_intercalate_le (separator : String) {parts others : List String}
    (le : List.Forall₂ (fun a b => a.length ≤ b.length) parts others) :
    (separator.intercalate parts).length ≤ (separator.intercalate others).length := by
  induction le with
  | nil => exact Nat.le_refl _
  | cons first rest ih =>
    cases rest with
    | nil => simpa using first
    | cons second rest =>
      simp only [String.intercalate_cons_cons, String.length_append] at ih ⊢
      omega

/-- Where no part of one join is longer than its counterpart, only the same parts give the same text. -/
theorem intercalate_eq_iff_of_le {separator : String} {parts others : List String}
    (le : List.Forall₂ (fun a b => a.length ≤ b.length) parts others) :
    separator.intercalate parts = separator.intercalate others ↔ parts = others := by
  refine ⟨?_, fun same => same ▸ rfl⟩
  intro same
  induction le with
  | nil => rfl
  | cons first le ih =>
    cases le with
    | nil => simpa using same
    | cons second le =>
      -- the rests are no longer either, so the first parts have one length
      have later := length_intercalate_le separator (.cons second le)
      have whole := congrArg String.length same
      simp only [String.intercalate_cons_cons, String.length_append] at whole
      have texts := congrArg String.toList same
      simp only [String.intercalate_cons_cons, String.toList_append, List.append_assoc] at texts
      obtain ⟨left, right⟩ := List.append_inj texts (by simp only [String.length_toList]; omega)
      have rest := ih (String.toList_inj.mp (List.append_cancel_left right))
      rw [String.toList_inj.mp left, rest]

end SqlSelect
