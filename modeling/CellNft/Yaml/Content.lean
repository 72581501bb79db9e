/-
CellNft.Yaml.Content — what the nodes of a graph stand for.

* `Content` is a scalar, or a collection whose parts are still places in the graph. The keys of a
  mapping and the members of a set are scalars.
* `Content.ofGraph` finds the content of every node that belongs to the document. It goes through
  the graph level by level, which decides what is reported of several faults: all parts of a
  collection come before the parts of these parts.
* The key `<<` merges the mappings under it: before the content of a mapping is found, their entries
  go in front of all others instead of such a key. Of several merged mappings the earlier one wins.
  The key `=` is a text from then on.
* `Graph.toValue` puts the value of a document together.
-/
import CellNft.Yaml.Literal
import CellNft.Yaml.Node

namespace CellNft.Yaml

inductive Content where
  | scalar (s : Scalar)
  | list (items : List Nat)
  | pairs (entries : List (Nat × Nat))
  | set (members : List Scalar)
  | dict (entries : List (Scalar × Nat))

namespace Content

/-- The nodes, the contents that are known, and the collections whose parts are still to be looked
at. The content of such a collection is empty until then. -/
structure Search where
  nodes : Array Node
  known : Array (Option Content)
  waiting : List Nat := []

abbrev Finder := StateT Search (Except Fault)

def node (place : Nat) : Finder Node := return (← get).nodes.getD place Node.empty

def putNode (place : Nat) (n : Node) : Finder Unit :=
  modify fun s => { s with nodes := s.nodes.setIfInBounds place n }

def know (place : Nat) (c : Content) : Finder Unit :=
  modify fun s => { s with known := s.known.setIfInBounds place (some c) }

def wait (place : Nat) : Finder Unit :=
  modify fun s => { s with waiting := s.waiting ++ [place] }

/-- The entries of a node that must be a mapping. -/
def entriesAt (place : Nat) : Finder (List (Nat × Nat)) := do
  match ← node place with
  | .mapping _ entries => return entries
  | _ => throw .malformedYaml

/-! ## Merging -/

/-- The first merge among entries, with its place there. -/
def firstMerge? (nodes : Array Node) (entries : List (Nat × Nat)) : Option (Nat × Nat) := do
  let isMerge (e : Nat × Nat) : Bool := (nodes.getD e.1 Node.empty).tag = .merge
  let index ← entries.findIdx? isMerge
  return (index, (← entries[index]?).2)

/-- Puts what the merges of a mapping bring in front of its own entries. How the merges are taken
out is the parameter. -/
def flattenBy (takeMerges : Nat → Finder (List (Nat × Nat))) (place : Nat) : Finder Unit := do
  let merged ← takeMerges place
  let own ← entriesAt place
  for (k, _) in own do
    let key ← node k
    if key.tag = .default then putNode k (key.withTag .str)
  putNode place (.mapping (← node place).tag (merged ++ own))

/-- Takes the merges out of a mapping; the result is the entries that they bring. A mapping that
brings entries is flattened first, so no merge ever comes in, and the number of merges in the graph
is fuel enough. -/
def takeMerges : (fuel place : Nat) → Finder (List (Nat × Nat))
  | 0, _ => return []
  | fuel + 1, place => do
    let entries ← entriesAt place
    match firstMerge? (← get).nodes entries with
    | none => return []
    | some (index, source) =>
      putNode place (.mapping (← node place).tag (entries.eraseIdx index))
      let bring (place : Nat) : Finder (List (Nat × Nat)) := do
        flattenBy (takeMerges fuel) place
        entriesAt place
      let here ← match ← node source with
        | .mapping .. => bring source
        | .sequence _ items => do
          let parts ← items.mapM bring
          pure parts.reverse.flatten
        | .scalar .. => throw .malformedYaml
      return here ++ (← takeMerges fuel place)

/-- How many entries the mappings of a graph have. -/
def entryCount (nodes : Array Node) : Nat :=
  nodes.foldl (fun n node => match node with
    | .mapping _ entries => n + entries.length
    | _ => n) 0

/-- Replaces the merges of a mapping. -/
def flatten (place : Nat) : Finder Unit := do
  flattenBy (takeMerges (entryCount (← get).nodes + 1)) place

/-! ## Finding contents -/

/-- The text of a scalar. A mapping has the text under its first key `=`. -/
def text? (nodes : Array Node) : (fuel place : Nat) → Option Text
  | 0, _ => none
  | fuel + 1, place =>
    match nodes.getD place Node.empty with
    | .scalar _ text => some text
    | .sequence .. => none
    | .mapping _ entries => do
      let e ← entries.find? fun e => (nodes.getD e.1 Node.empty).tag = .default
      text? nodes fuel e.2

/-- The scalar that a node stands for. A timestamp must be written as a scalar. -/
def scalarAt (place : Nat) (n : Node) : Finder Scalar := do
  let nodes := (← get).nodes
  match text? nodes (nodes.size + 1) place with
  | none => throw .malformedYaml
  | some text =>
    match n with
    | .mapping .timestamp _ => throw .wrongType
    | _ => Literal.read n.tag text

/-- The content of a node, as far as it is known now. -/
def find (place : Nat) : Finder Content := do
  match (← get).known.getD place none with
  | some c => return c
  | none =>
    let n ← node place
    let later (c : Content) : Finder Content := do
      know place c
      wait place
      return c
    match n.tag with
    | .seq => later (.list [])
    | .map => later (.dict [])
    | .set => later (.set [])
    | .orderedMap | .pairs => later (.pairs [])
    | _ =>
      let c := Content.scalar (← scalarAt place n)
      know place c
      return c

/-- The scalar that a key must stand for. -/
def key (place : Nat) : Finder Scalar := do
  match ← find place with
  | .scalar s => return s
  | _ => throw .malformedYaml

/-- The entries of a mapping, with its merges replaced. -/
def mappingEntries (place : Nat) : Finder (List (Scalar × Nat)) := do
  flatten place
  (← entriesAt place).mapM fun (k, v) => do
    let k ← key k
    let _ ← find v
    return (k, v)

/-- The entry that an item of an ordered mapping consists of. -/
def soleEntry (place : Nat) : Finder (Nat × Nat) := do
  match ← entriesAt place with
  | [(k, v)] =>
    let _ ← find k
    let _ ← find v
    return (k, v)
  | _ => throw .malformedYaml

/-- Looks at the parts of a collection. -/
def complete (place : Nat) : Finder Unit := do
  match ← node place with
  | .sequence .seq items =>
    for i in items do
      let _ ← find i
    know place (.list items)
  | .sequence .orderedMap items | .sequence .pairs items =>
    know place (.pairs (← items.mapM soleEntry))
  | .mapping .map _ => know place (.dict (← mappingEntries place))
  | .mapping .set _ => know place (.set ((← mappingEntries place).map (·.1)))
  | _ => throw .malformedYaml

/-- Looks at the parts of all collections that wait. Each waits once at most. -/
def completeAll : (fuel : Nat) → Finder Unit
  | 0 => return
  | fuel + 1 => do
    match (← get).waiting with
    | [] => return
    | place :: rest =>
      modify fun s => { s with waiting := rest }
      complete place
      completeAll fuel

/-- The contents of the nodes of a document. -/
def ofGraph (g : Graph) : Except Fault (Array (Option Content)) := do
  let size := g.nodes.size
  let search : Finder Unit := do
    let _ ← find g.root
    completeAll (size + 1)
  let (_, s) ← search.run { nodes := g.nodes, known := Array.replicate size none }
  return s.known

/-! ## Values -/

/-- What stands for a node that has been inside itself three times. -/
def endless : Value := .str "..."

/-- The value of the node at a place below the places `above`. Every place is there three times at
most, which bounds the depth. -/
def value (known : Array (Option Content)) : (fuel : Nat) → (above : List Nat) → Nat → Value
  | 0, _, _ => endless
  | fuel + 1, above, place =>
    if 3 ≤ above.count place then endless
    else
      let part := value known fuel (place :: above)
      match known.getD place none with
      | none => .null
      | some (.scalar s) => .scalar s
      | some (.list items) => .list (items.map part)
      | some (.pairs entries) => .list (entries.map fun e => .pair (part e.1) (part e.2))
      | some (.set members) => .set (Scalar.distinct members)
      | some (.dict entries) => .dict (Dict.ofPairs (entries.map fun e => (e.1, part e.2)))

end Content

/-- The value of a graph. -/
def Graph.toValue (g : Graph) : Except Fault Value := do
  let known ← Content.ofGraph g
  return Content.value known (3 * g.nodes.size + 1) [] g.root

end CellNft.Yaml
