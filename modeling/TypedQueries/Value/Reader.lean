import TypedQueries.ErrorKind
import TypedQueries.Value.Basic

/-!
# Reading documents

A value is read from the text of a document by a reader, which says of every other text what is
wrong with it.
-/

namespace TypedQueries

structure DocumentFault where
  kind : ErrorKind
  message : Text
deriving DecidableEq

class DocumentReader where
  read : Text → Except DocumentFault Value

end TypedQueries
