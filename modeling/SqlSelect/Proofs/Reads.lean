import SqlSelect.Proofs.Numbered.Condition
/-!
The tables that are read. A column reads the tables that own the stored columns in it, however deep they
stand, and a fragment those that it declares; aliases play no part.
-/

namespace SqlSelect

namespace Column

/-- A table owns a stored column somewhere in a column. -/
inductive HasOwner : Column → Table → Prop
  | field (info : ColumnInfo) (name : String) : HasOwner (.field info name) info.table
  | operand {info : ColumnInfo} {opening separator closing : String} {operands : List Column} {c : Column}
      {t : Table} (member : c ∈ operands) (inside : HasOwner c t) :
      HasOwner (.function info opening separator closing operands) t
  | part {info : ColumnInfo} {parts : List Column} {c : Column} {t : Table} (member : c ∈ parts)
      (inside : HasOwner c t) : HasOwner (.composite info parts) t

/-- The name is that of a table, not anonymous, that owns a stored column of the column. -/
def Reads (c : Column) (name : String) : Prop :=
  ∃ t, c.HasOwner t ∧ t.isAnonymous = false ∧ t.name = name

theorem reads_field (info : ColumnInfo) (column name : String) :
    (field info column).Reads name ↔ info.table.isAnonymous = false ∧ info.table.name = name := by
  constructor
  · rintro ⟨t, ⟨⟩, named, same⟩
    exact ⟨named, same⟩
  · rintro ⟨named, same⟩
    exact ⟨info.table, .field info column, named, same⟩

theorem reads_function (info : ColumnInfo) (opening separator closing : String) (operands : List Column)
    (name : String) :
    (function info opening separator closing operands).Reads name ↔ ∃ c ∈ operands, c.Reads name := by
  constructor
  · rintro ⟨t, owner, named, same⟩
    cases owner with
    | operand member inside => exact ⟨_, member, t, inside, named, same⟩
  · rintro ⟨c, member, t, inside, named, same⟩
    exact ⟨t, .operand member inside, named, same⟩

theorem reads_composite (info : ColumnInfo) (parts : List Column) (name : String) :
    (composite info parts).Reads name ↔ ∃ c ∈ parts, c.Reads name := by
  constructor
  · rintro ⟨t, owner, named, same⟩
    cases owner with
    | part member inside => exact ⟨_, member, t, inside, named, same⟩
  · rintro ⟨c, member, t, inside, named, same⟩
    exact ⟨t, .part member inside, named, same⟩

theorem mem_listObserve_of {cs : List Column} {name : String}
    (h : ∀ c ∈ cs, ∀ names, name ∈ c.observe names ↔ c.Reads name ∨ name ∈ names) (names : NameSet) :
    name ∈ listObserve cs names ↔ (∃ c ∈ cs, c.Reads name) ∨ name ∈ names := by
  induction cs generalizing names with
  | nil => simp [listObserve]
  | cons c rest ih =>
    have here := h c List.mem_cons_self names
    have later := ih (fun d hd => h d (List.mem_cons_of_mem _ hd)) (c.observe names)
    rw [listObserve, later, here, List.exists_mem_cons_iff, or_left_comm, or_assoc]

theorem mem_observe (c : Column) (name : String) (names : NameSet) :
    name ∈ c.observe names ↔ c.Reads name ∨ name ∈ names := by
  induction c using Column.induction generalizing names with
  | field info column =>
    rw [reads_field]
    cases anonymous : info.table.isAnonymous <;> simp [observe, anonymous, Std.ExtTreeSet.mem_insert]
  | literal info sql => exact ⟨.inr, fun h => h.resolve_left (by rintro ⟨_, ⟨⟩, _⟩)⟩
  | bound info argument => exact ⟨.inr, fun h => h.resolve_left (by rintro ⟨_, ⟨⟩, _⟩)⟩
  | function info opening separator closing operands ih =>
    rw [observe, mem_listObserve_of ih, reads_function]
  | composite info parts ih => rw [observe, mem_listObserve_of ih, reads_composite]

theorem mem_listObserve (cs : List Column) (name : String) (names : NameSet) :
    name ∈ listObserve cs names ↔ (∃ c ∈ cs, c.Reads name) ∨ name ∈ names :=
  mem_listObserve_of (fun c _ => c.mem_observe name) names

theorem reads_of_mem_references (c : Column) {o : Occurrence} (h : o ∈ c.references) : c.Reads o.table := by
  induction c using Column.induction with
  | field info column =>
    rw [references, Table.visits_eq] at h
    split at h
    · rename_i renameable
      obtain rfl := List.mem_singleton.mp h
      refine (reads_field _ _ _).mpr ⟨?_, rfl⟩
      cases anonymous : info.table.isAnonymous with
      | false => rfl
      | true => simp [Table.isRenameable_of_isAnonymous anonymous] at renameable
    · cases h
  | literal info sql => cases h
  | bound info argument => cases h
  | function info opening separator closing operands ih =>
    rw [references, listReferences_eq] at h
    obtain ⟨c, member, inside⟩ := List.mem_flatMap.mp h
    exact (reads_function _ _ _ _ _ _).mpr ⟨c, member, ih c member inside⟩
  | composite info parts ih =>
    rw [references, listReferences_eq] at h
    obtain ⟨c, member, inside⟩ := List.mem_flatMap.mp h
    exact (reads_composite _ _ _).mpr ⟨c, member, ih c member inside⟩

end Column

namespace Expression

/-- The name is read by a column somewhere in the expression or declared by a fragment in it. -/
inductive Reads : Expression → String → Prop
  | column {c : Column} {name : String} (inside : c.Reads name) : Reads (.column c) name
  | fragment {sql : String} {arguments tables : List String} {name : String} (declared : name ∈ tables) :
      Reads (.raw sql arguments tables) name
  | compareArgument {left : Expression} {operator argument name : String} (inside : Reads left name) :
      Reads (.compareArgument left operator argument) name
  | compareLeft {left right : Expression} {operator name : String} (inside : Reads left name) :
      Reads (.compare left operator right) name
  | compareRight {left right : Expression} {operator name : String} (inside : Reads right name) :
      Reads (.compare left operator right) name
  | like {left : Expression} {pattern name : String} {ignoreCase : Bool} (inside : Reads left name) :
      Reads (.like left pattern ignoreCase) name
  | member {left : Expression} {arguments : List String} {negated : Bool} {name : String}
      (inside : Reads left name) : Reads (.member left arguments negated) name
  | isNull {left : Expression} {negated : Bool} {name : String} (inside : Reads left name) :
      Reads (.isNull left negated) name
  | logicalLeft {left right : Expression} {operator : Connective} {name : String}
      (inside : Reads left name) : Reads (.logical left operator right) name
  | logicalRight {left right : Expression} {operator : Connective} {name : String}
      (inside : Reads right name) : Reads (.logical left operator right) name
  | not {inner : Expression} {name : String} (inside : Reads inner name) : Reads (.not inner) name

theorem mem_observe (e : Expression) (name : String) (names : NameSet) :
    name ∈ e.observe names ↔ e.Reads name ∨ name ∈ names := by
  induction e generalizing names with
  | column c =>
    rw [observe, c.mem_observe]
    exact or_congr_left ⟨.column, fun | .column inside => inside⟩
  | compareArgument left operator argument ih =>
    rw [observe, ih]
    exact or_congr_left ⟨.compareArgument, fun | .compareArgument inside => inside⟩
  | compare left operator right ihl ihr =>
    rw [observe, ihr, ihl, ← or_assoc, or_comm (a := right.Reads name)]
    refine or_congr_left ⟨fun h => h.elim .compareLeft .compareRight, ?_⟩
    rintro (_ | _ | _ | inside | inside)
    · exact .inl inside
    · exact .inr inside
  | like left pattern ignoreCase ih =>
    rw [observe, ih]
    exact or_congr_left ⟨.like, fun | .like inside => inside⟩
  | member left arguments negated ih =>
    rw [observe, ih]
    exact or_congr_left ⟨.member, fun | .member inside => inside⟩
  | isNull left negated ih =>
    rw [observe, ih]
    exact or_congr_left ⟨.isNull, fun | .isNull inside => inside⟩
  | logical left operator right ihl ihr =>
    rw [observe, ihr, ihl, ← or_assoc, or_comm (a := right.Reads name)]
    refine or_congr_left ⟨fun h => h.elim .logicalLeft .logicalRight, ?_⟩
    intro h
    cases h with
    | logicalLeft inside => exact .inl inside
    | logicalRight inside => exact .inr inside
  | not inner ih =>
    rw [observe, ih]
    exact or_congr_left ⟨.not, fun | .not inside => inside⟩
  | raw sql arguments tables =>
    rw [observe, Std.ExtTreeSet.mem_insertMany_list, List.contains_iff_mem, or_comm]
    exact or_congr_left ⟨.fragment, fun | .fragment declared => declared⟩

theorem reads_of_mem_references (e : Expression) {o : Occurrence} (h : o ∈ e.references) :
    e.Reads o.table := by
  induction e with
  | column c => exact .column (c.reads_of_mem_references h)
  | compareArgument left operator argument ih => exact .compareArgument (ih h)
  | compare left operator right ihl ihr =>
    exact (List.mem_append.mp h).elim (fun h => .compareLeft (ihl h)) fun h => .compareRight (ihr h)
  | like left pattern ignoreCase ih => exact .like (ih h)
  | member left arguments negated ih => exact .member (ih h)
  | isNull left negated ih => exact .isNull (ih h)
  | logical left operator right ihl ihr =>
    exact (List.mem_append.mp h).elim (fun h => .logicalLeft (ihl h)) fun h => .logicalRight (ihr h)
  | not inner ih => exact .not (ih h)
  | raw sql arguments tables => cases h

end Expression

namespace Join

/-- The condition that a join is made on, if it has one. -/
def condition? (j : Join) : Option Expression :=
  match j.clause.constraint? with
  | some (.condition e) => some e
  | _ => none

theorem mem_observe (j : Join) (name : String) (names : NameSet) :
    name ∈ j.observe names ↔
      (j.table.name = name ∨ ∃ e, j.condition? = some e ∧ e.Reads name) ∨ name ∈ names := by
  rcases h : j.clause.constraint? with _ | (e | cs)
  · simp [observe, condition?, h, Std.ExtTreeSet.mem_insert]
  · simp [observe, condition?, h, JoinConstraint.observe, Expression.mem_observe,
      Std.ExtTreeSet.mem_insert, or_left_comm, or_assoc]
  · simp [observe, condition?, h, JoinConstraint.observe, Std.ExtTreeSet.mem_insert]

theorem mem_foldl_observe (js : List Join) (name : String) (names : NameSet) :
    name ∈ js.foldl (fun names j => j.observe names) names ↔
      (∃ j ∈ js, j.table.name = name ∨ ∃ e, j.condition? = some e ∧ e.Reads name) ∨ name ∈ names := by
  induction js generalizing names with
  | nil => simp
  | cons j rest ih =>
    rw [List.foldl_cons, ih, mem_observe, List.exists_mem_cons_iff, or_left_comm, ← or_assoc]

end Join

end SqlSelect
