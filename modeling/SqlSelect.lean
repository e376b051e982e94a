import SqlSelect.Column.Tuple
import SqlSelect.Config.Location
import SqlSelect.Function.Catalogue
import SqlSelect.Proofs.Condition.Readable
import SqlSelect.Proofs.Config.Resolving
import SqlSelect.Proofs.Config.Saved
import SqlSelect.Proofs.Decoding
import SqlSelect.Proofs.Inlined
import SqlSelect.Proofs.IntegerText
import SqlSelect.Proofs.Nullability
import SqlSelect.Proofs.Rename.Entries
import SqlSelect.Proofs.Rename.Expansion
import SqlSelect.Proofs.Statement.AliasLiterals
import SqlSelect.Proofs.Statement.Joining
import SqlSelect.Proofs.Statement.Observed
import SqlSelect.Proofs.Statement.Placeholders
import SqlSelect.Proofs.Statement.Repeated
import SqlSelect.Proofs.Statement.SharedColumns
import SqlSelect.Proofs.Statement.SingleSlot
import SqlSelect.Proofs.Statement.SortKeys
import SqlSelect.Statement.Chain
import SqlSelect.Statement.Raw
