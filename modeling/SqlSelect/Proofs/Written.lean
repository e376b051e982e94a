import SqlSelect.Statement.Compile
/-!
Projections written entry by entry. The renaming is handed from one entry to the next, and only the text
of an entry depends on it: the name that finds the slot is the alias, or the text without renaming.
-/

namespace SqlSelect

namespace Rendering

theorem under_append (ps qs : List Piece) (r : Renaming) :
    under (ps ++ qs) r =
      ((under ps r).1 ++ (under qs (under ps r).2).1, (under qs (under ps r).2).2) := by
  induction ps generalizing r with
  | nil => simp [under]
  | cons p rest ih => cases h : p.occurrence? <;> simp [under, h, ih, String.append_assoc]

theorem under_singleton_text (s : String) (r : Renaming) : under [.text s] r = (s, r) := by
  simp [under, Piece.occurrence?, Piece.plain, Piece.textUnder]

end Rendering

/-- A projection as far as it is written, with the slot and the renaming that the next entry begins with. -/
structure Written where
  text : String
  positions : Positions
  next : Nat
  after : Renaming

namespace Written

def entry (w : Written) (pieces : List Piece) (name : String) : Written :=
  let (text, r) := Rendering.under pieces w.after
  ⟨w.text ++ text, w.positions.insert name w.next, w.next + 1, r⟩

def comma (w : Written) : Written :=
  { w with text := w.text ++ "," }

/-- The same names at the same slots, whatever the texts are. -/
structure Alike (w v : Written) : Prop where
  positions : w.positions = v.positions
  next : w.next = v.next

theorem Alike.comma {w v : Written} (h : Alike w v) : Alike w.comma v.comma :=
  ⟨h.positions, h.next⟩

theorem Alike.entry {w v : Written} (h : Alike w v) (pieces : List Piece) (name : String) :
    Alike (w.entry pieces name) (v.entry pieces name) := by
  constructor
  · simp only [Written.entry, h.positions, h.next]
  · simp only [Written.entry, h.next]

end Written

namespace Projected

/-- What is written when the pieces so far are rendered under a renaming. -/
def written (s : Projected) (r : Renaming) : Written :=
  let (text, r) := Rendering.under s.pieces r
  ⟨text, s.positions, s.next, r⟩

theorem written_entry (s : Projected) (pieces : List Piece) (name : String) (r : Renaming) :
    (s.entry pieces name).written r = (s.written r).entry pieces name := by
  simp only [written, entry, Written.entry, Rendering.under_append]

theorem written_comma (s : Projected) (r : Renaming) :
    (s.append [.text ","]).written r = (s.written r).comma := by
  simp only [written, append, Written.comma, Rendering.under_append, Rendering.under_singleton_text]

end Projected

namespace Column

def writeEntry (alias? : Option String) (c : Column) (w : Written) : Written :=
  w.entry (c.pieces ++ aliasPieces alias?) (alias?.getD c.sql)

theorem writeEntry_alike (alias? : Option String) (c : Column) {w v : Written} (alike : w.Alike v) :
    (c.writeEntry alias? w).Alike (c.writeEntry alias? v) :=
  alike.entry _ _

mutual

def write (alias? : Option String) : Column → Written → Written
  | composite _ parts, w => writeParts alias? parts w
  | field info name, w => writeEntry alias? (field info name) w
  | literal info sql, w => writeEntry alias? (literal info sql) w
  | bound info argument, w => writeEntry alias? (bound info argument) w
  | function info o sep c operands, w => writeEntry alias? (function info o sep c operands) w

def writeParts (alias? : Option String) : List Column → Written → Written
  | [], w => w
  | [part], w => write (partAlias alias? part) part w
  | part :: rest, w => writeParts alias? rest (write (partAlias alias? part) part w).comma

end

/-! ## Agreement with the pieces -/

theorem written_projectParts_of {cs : List Column} {r : Renaming}
    (h : ∀ c ∈ cs, ∀ alias? s, (c.project alias? s).written r = c.write alias? (s.written r))
    (alias? : Option String) (s : Projected) :
    (projectParts alias? cs s).written r = writeParts alias? cs (s.written r) := by
  induction cs generalizing s with
  | nil => rfl
  | cons c rest ih =>
    have hc := h c List.mem_cons_self
    have hrest := ih fun d hd => h d (List.mem_cons_of_mem _ hd)
    cases rest with
    | nil => exact hc (partAlias alias? c) s
    | cons d rest => simp only [projectParts, writeParts, hrest, Projected.written_comma, hc]

theorem written_project (c : Column) (alias? : Option String) (s : Projected) (r : Renaming) :
    (c.project alias? s).written r = c.write alias? (s.written r) := by
  induction c using Column.induction generalizing alias? s with
  | composite info parts ih => exact written_projectParts_of ih alias? s
  | _ => exact s.written_entry _ _ r

theorem written_projectParts (alias? : Option String) (cs : List Column) (s : Projected) (r : Renaming) :
    (projectParts alias? cs s).written r = writeParts alias? cs (s.written r) :=
  written_projectParts_of (fun c _ alias? s => c.written_project alias? s r) alias? s

/-! ## Two renamings -/

theorem writeParts_alike_of {cs : List Column}
    (h : ∀ c ∈ cs, ∀ alias? w v, w.Alike v → (c.write alias? w).Alike (c.write alias? v))
    (alias? : Option String) {w v : Written} (alike : w.Alike v) :
    (writeParts alias? cs w).Alike (writeParts alias? cs v) := by
  induction cs generalizing w v with
  | nil => exact alike
  | cons c rest ih =>
    have hc := h c List.mem_cons_self (partAlias alias? c) w v alike
    cases rest with
    | nil => exact hc
    | cons d rest => exact ih (fun d hd => h d (List.mem_cons_of_mem _ hd)) hc.comma

/-- Writing a column keeps two projections alike, whatever renamings they go on with. -/
theorem write_alike (c : Column) (alias? : Option String) {w v : Written} (alike : w.Alike v) :
    (c.write alias? w).Alike (c.write alias? v) := by
  induction c using Column.induction generalizing alias? w v with
  | composite info parts ih =>
    exact writeParts_alike_of (fun c hc alias? _ _ => ih c hc alias?) alias? alike
  | _ => simpa only [write] using writeEntry_alike alias? _ alike

theorem writeParts_alike (alias? : Option String) (cs : List Column) {w v : Written} (alike : w.Alike v) :
    (writeParts alias? cs w).Alike (writeParts alias? cs v) :=
  writeParts_alike_of (fun c _ alias? _ _ => c.write_alike alias?) alias? alike

end Column

namespace Projection

/-- The projection written under a renaming; without columns it has no slot to find by name. -/
def write (p : Projection) (r : Renaming) : Written :=
  match p with
  | all => ⟨"*", ∅, 0, r⟩
  | _ => Column.writeParts none p.toList ⟨"", ∅, 0, r⟩

theorem write_alike (p : Projection) (r r' : Renaming) : (p.write r).Alike (p.write r') := by
  cases p with
  | all => exact ⟨rfl, rfl⟩
  | columns first rest => exact Column.writeParts_alike none _ ⟨rfl, rfl⟩
  | single t c => exact Column.writeParts_alike none _ ⟨rfl, rfl⟩

theorem written_projected (p : Projection) (r : Renaming) : p.projected.written r = p.write r := by
  cases p with
  | all => rfl
  | columns first rest => exact Column.written_projectParts none _ _ r
  | single t c => exact Column.written_projectParts none _ _ r

/-- Compiling a projection is writing it entry by entry. -/
theorem compile_eq_write (p : Projection) (r : Renaming) :
    p.compile r = ⟨(p.write r).text, (p.write r).positions, (p.write r).after⟩ := by
  rw [← written_projected]
  rfl

end Projection

end SqlSelect
