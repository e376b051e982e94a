import SqlSelect.Proofs.Statement.Building
import SqlSelect.Proofs.Statement.Carried
import SqlSelect.Proofs.Statement.Compilation
import SqlSelect.Proofs.Statement.Sections
/-!
Arguments and placeholders. The arguments of a compiled statement are those that its text carries, from
left to right, but for `GROUP BY`, `ORDER BY` and `USING`, whose placeholders get no argument.
-/

namespace SqlSelect

open Rendering

namespace Statement

end Statement

end SqlSelect
