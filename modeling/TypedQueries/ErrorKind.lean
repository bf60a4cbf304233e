import TypedQueries.Text.Basic

/-!
# Kinds of errors

An error that has a wording of its own is shown with it. Of one that ends a run from within,
nothing is known to the user but its kind and its message.
-/

namespace TypedQueries

inductive ErrorKind where
  | value
  | decoding
  | document
  | type
  | overflow
  | key
  | position
deriving DecidableEq

namespace ErrorKind

def name : ErrorKind → Text
  | value => "ValueError"
  | decoding => "UnicodeDecodeError"
  | document => "YAMLError"
  | type => "TypeError"
  | overflow => "OverflowError"
  | key => "KeyError"
  | position => "IndexError"

end ErrorKind

end TypedQueries
