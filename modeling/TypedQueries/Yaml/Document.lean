import TypedQueries.Value.Reader
import TypedQueries.Yaml.Kind
import TypedQueries.Yaml.Scan

/-!
# Documents

The value of a document: aliases are replaced by what their anchors name, and each node by the
value of its kind. What is merged into a mapping comes before the entries of the mapping itself,
which win over it.
-/

namespace TypedQueries.Yaml

/-! ### Aliases -/

/-- The nodes that anchors name; nothing while the node of an anchor is still being read. -/
abbrev Anchors := List (Text × Option Node)

def Anchors.declare (anchors : Anchors) (p : Properties) : Except Fault Anchors :=
  match p.anchor with
  | none => .ok anchors
  | some a =>
    if (anchors.lookup a).isSome then .error .malformed else .ok ((a, none) :: anchors)

/-- The anchors after the node of one has been read. -/
def Anchors.define (anchors : Anchors) (p : Properties) (n : Node) : Anchors :=
  match p.anchor with
  | none => anchors
  | some a => (a, some n) :: anchors

mutual

/-- The node without aliases, and the anchors after it. An alias inside the node that it names
stays. -/
def Node.expand (anchors : Anchors) : Node → Except Fault (Node × Anchors)
  | .alias name =>
    match anchors.lookup name with
    | none => .error .malformed
    | some none => .ok (.alias name, anchors)
    | some (some n) => .ok (n, anchors)
  | .scalar p t plain => do
    let anchors ← anchors.declare p
    .ok (.scalar p t plain, anchors.define p (.scalar p t plain))
  | .sequence p items => do
    let anchors ← anchors.declare p
    let (items, anchors) ← expandItems anchors items
    .ok (.sequence p items, anchors.define p (.sequence p items))
  | .mapping p pairs => do
    let anchors ← anchors.declare p
    let (pairs, anchors) ← expandPairs anchors pairs
    .ok (.mapping p pairs, anchors.define p (.mapping p pairs))

def expandItems (anchors : Anchors) : List Node → Except Fault (List Node × Anchors)
  | [] => .ok ([], anchors)
  | n :: ns => do
    let (n, anchors) ← n.expand anchors
    let (ns, anchors) ← expandItems anchors ns
    .ok (n :: ns, anchors)

def expandPairs (anchors : Anchors) :
    List (Node × Node) → Except Fault (List (Node × Node) × Anchors)
  | [] => .ok ([], anchors)
  | (k, v) :: ps => do
    let (k, anchors) ← k.expand anchors
    let (v, anchors) ← v.expand anchors
    let (ps, anchors) ← expandPairs anchors ps
    .ok ((k, v) :: ps, anchors)

end

/-! ### Values -/

/-- Whether a collection with a tag is of the usual kind. -/
def isUsual (tag : Option Text) (kind : Text) : Bool :=
  match tag with
  | none => true
  | some tag => tag = ['!'] || tag = coreTag ++ kind

def Node.scalarKind? : Node → Option Kind
  | .scalar p t plain => Yaml.scalarKind? p.tag t plain
  | _ => none

/-- The entries that a value brings into a mapping: those of a map, or those of the maps in a list,
where the first one wins. -/
def mergedEntries : Value → Except Fault (List (Value × Value))
  | .map entries => .ok entries
  | .list items => do
    let maps ← items.mapM fun
      | .map entries => .ok entries
      | _ => (.error .malformed : Except Fault (List (Value × Value)))
    .ok maps.reverse.flatten
  | _ => .error .malformed

/-- The entries of a mapping: what is merged into it, and what it says itself. -/
structure Entries where
  merged : List (Value × Value)
  own : List (Value × Value)

/-- The map of some entries; of two under one key the later one counts. -/
def Entries.toMap (e : Entries) : Value :=
  .map ((e.merged ++ e.own).foldl (fun es (k, v) => Value.insertEntry k v es) [])

mutual

/-- The value of a node without aliases; one that is left, inside the node that it names, stands
for nothing. -/
def Node.value : Node → Except Fault Value
  | .alias _ => .ok .null
  | .scalar p t plain =>
    match scalarKind? p.tag t plain with
    | some kind => scalarValue t kind
    | none => .error .malformed
  | .sequence p items => do
    if isUsual p.tag "seq" then
      let values ← itemValues items
      .ok (.list values)
    else .error .malformed
  | .mapping p pairs => do
    if isUsual p.tag "map" then
      let entries ← entryValues pairs
      .ok entries.toMap
    else .error .malformed

def itemValues : List Node → Except Fault (List Value)
  | [] => .ok []
  | n :: ns => do
    let v ← n.value
    let vs ← itemValues ns
    .ok (v :: vs)

def entryValues : List (Node × Node) → Except Fault Entries
  | [] => .ok ⟨[], []⟩
  | (k, v) :: ps =>
    match k.scalarKind? with
    | some .merge => do
      let v ← v.value
      let merged ← mergedEntries v
      let rest ← entryValues ps
      .ok { rest with merged := merged ++ rest.merged }
    | kind => do
      let key ← if kind = some .default then .ok (.text (['='] : Text)) else k.value
      if !key.isKey then .error .malformed
      else
        let v ← v.value
        let rest ← entryValues ps
        .ok { rest with own := (key, v) :: rest.own }

end

/-- The value of a document; an empty one stands for nothing. -/
def read (t : Text) : Except Fault Value := do
  let ts ← tokens t
  match document? ts with
  | none => .error .malformed
  | some none => .ok .null
  | some (some n) =>
    let (n, _) ← n.expand []
    n.value

namespace Standard

scoped instance : DocumentReader where
  read t := (read t).mapError fun e => ⟨e.kind, e.message⟩

end Standard

end TypedQueries.Yaml
