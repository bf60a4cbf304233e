import TypedQueries.FileTree.Path
import TypedQueries.Text.Quoted

/-!
# File trees

A file tree maps absolute paths to files and directories. Every directory has an entry of its own,
so one that has lost all its files is still there.
-/

namespace TypedQueries

inductive Node where
  | file (contents : Bytes)
  | directory
deriving DecidableEq

/-- Files and directories by their absolute paths. -/
structure FileTree where
  entries : List (Path × Node)
deriving DecidableEq

inductive FileFault where
  | notFound
  | alreadyExists
  | notADirectory
  | isADirectory
deriving DecidableEq

structure FileError where
  fault : FileFault
  path : Path
deriving DecidableEq

namespace FileFault

def number : FileFault → Nat
  | notFound => 2
  | alreadyExists => 17
  | notADirectory => 20
  | isADirectory => 21

def reason : FileFault → Text
  | notFound => "No such file or directory"
  | alreadyExists => "File exists"
  | notADirectory => "Not a directory"
  | isADirectory => "Is a directory"

end FileFault

def FileError.message (e : FileError) : Text :=
  "[Errno " ++ Text.ofNat e.fault.number ++ "] " ++ e.fault.reason ++ ": " ++
    Text.Quoted.encode e.path.text

namespace FileTree

def node? (t : FileTree) (p : Path) : Option Node := t.entries.lookup p

def contains (t : FileTree) (p : Path) : Bool := (t.node? p).isSome

def isFile (t : FileTree) (p : Path) : Bool :=
  match t.node? p with
  | some (.file _) => true
  | _ => false

def isDirectory (t : FileTree) (p : Path) : Bool := t.node? p = some .directory

def put (t : FileTree) (p : Path) (n : Node) : FileTree :=
  ⟨(p, n) :: t.entries.filter fun (q, _) => q ≠ p⟩

def erase (t : FileTree) (p : Path) : FileTree := ⟨t.entries.filter fun (q, _) => q ≠ p⟩

/-- The directories above a path, the topmost first. -/
def ancestors (p : Path) : List Path :=
  (List.range p.parts.length).map fun n => { p with parts := p.parts.take n }

/-- The paths of the entries of a directory, in no particular order. -/
def children (t : FileTree) (d : Path) : List Path :=
  (t.entries.map (·.1)).filter fun p => p.parts ≠ [] && p.parent = d

/-- The paths of all that lies below a directory, in no particular order. -/
def descendants (t : FileTree) (d : Path) : List Path :=
  (t.entries.map (·.1)).filter (Path.isBelow d)

/-- Why there is nothing to be found at a path: a file stands where a directory would have to, or
nothing does. -/
def absence (t : FileTree) (p : Path) : FileFault :=
  if (ancestors p).any t.isFile then .notADirectory else .notFound

/-- Follows names from `d` on. Whatever stands before a further name has to be a directory, also
where a double dot goes back. -/
def follow (t : FileTree) (d : Path) : List Text → Except FileFault Path
  | [] => .ok d
  | w :: ws =>
    match t.node? d with
    | some .directory => t.follow (if w = ['.', '.'] then d.parent else d.child w) ws
    | some (.file _) => .error .notADirectory
    | none => .error .notFound

/-- The path without double dots that a path leads to. -/
def locate (t : FileTree) (p : Path) : Except FileFault Path := t.follow ⟨.root, []⟩ p.parts

def read (t : FileTree) (p : Path) : Except FileError Bytes :=
  match t.node? p with
  | some (.file contents) => .ok contents
  | some .directory => .error ⟨.isADirectory, p⟩
  | none => .error ⟨t.absence p, p⟩

/-- The tree with a new file; there must be a directory for it, and nothing at its path. -/
def create (t : FileTree) (p : Path) (contents : Bytes) : Except FileError FileTree :=
  if t.contains p then .error ⟨.alreadyExists, p⟩
  else if t.isDirectory p.parent then .ok (t.put p (.file contents))
  else .error ⟨t.absence p, p⟩

def overwrite (t : FileTree) (p : Path) (contents : Bytes) : Except FileError FileTree := do
  let _ ← t.read p
  .ok (t.put p (.file contents))

def delete (t : FileTree) (p : Path) : Except FileError FileTree := do
  let _ ← t.read p
  .ok (t.erase p)

/-! ### What a path leads to after a change -/

theorem lookup_filter_ne {α β : Type} [DecidableEq α] (l : List (α × β)) {a b : α} (h : b ≠ a) :
    (l.filter fun (q, _) => q ≠ a).lookup b = l.lookup b := by
  induction l with
  | nil => rfl
  | cons e l ih =>
    obtain ⟨q, v⟩ := e
    by_cases hq : q = a
    · subst hq
      have hb : (b == q) = false := beq_false_of_ne h
      simpa [List.lookup_cons, hb] using ih
    · simp only [ne_eq, hq, not_false_eq_true, decide_true, List.filter_cons_of_pos,
        List.lookup_cons]
      split
      · rfl
      · simpa using ih

theorem node?_put_self (t : FileTree) (p : Path) (n : Node) : (t.put p n).node? p = some n := by
  simp [node?, put]

theorem node?_put_of_ne (t : FileTree) {p q : Path} (n : Node) (h : q ≠ p) :
    (t.put p n).node? q = t.node? q := by
  have hb : (q == p) = false := beq_false_of_ne h
  simpa [node?, put, List.lookup_cons, hb] using lookup_filter_ne t.entries h

theorem node?_erase_of_ne (t : FileTree) {p q : Path} (h : q ≠ p) :
    (t.erase p).node? q = t.node? q := by
  simpa [node?, erase] using lookup_filter_ne t.entries h

end FileTree

end TypedQueries
