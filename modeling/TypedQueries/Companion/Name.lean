import TypedQueries.FileTree.Path

/-!
# Names of companion modules

The companion of a file lies beside it. Its name follows from that of the file: the ends that mark
a file of queries are dropped, and tests have companions of their own.
-/

namespace TypedQueries.Companion

def ending : Text := "_query_gen.py"

def testEnding : Text := "_query_gen_test.py"

/-- The ends of file names that give way to that of the companion, of which the first that fits
counts, with what they give way to. -/
def rewrites : List (Text × Text) :=
  [("_query.py", ending), ("_queries.py", ending), ("_test.py", testEnding)]

def isCompanionName (path : Text) : Bool :=
  ending.isSuffixOf path || testEnding.isSuffixOf path

/-- Whether a path is that of a companion. -/
def isCompanion (p : Path) : Bool := isCompanionName p.text

/-- How the path of a companion is written, given how that of its file is. -/
def nameOf (source : Text) : Text :=
  let fits (e : Text × Text) : Bool := e.1.isSuffixOf source && !testEnding.isSuffixOf source
  match rewrites.find? fits with
  | some (old, new) => Text.dropEnd old.length source ++ new
  | none => Text.dropEnd 3 source ++ ending

/-- The path of the companion of a file. -/
def pathOf (source : Path) : Path := .ofText (nameOf source.text)

end TypedQueries.Companion
