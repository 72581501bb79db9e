/-
CellNft.Yaml.Node — the graph that the tokens of a document describe.

A node has a type and is a scalar, a sequence or a mapping. A `Graph` holds its nodes in a row, and
the parts of a node are named by their places there: an alias names the place of the node with that
anchor, so a node can be part of several others, and even of itself. Where a value, a key or an item
is left out, an empty scalar stands.

The readers of nested nodes count down a fuel. Twice the number of tokens is enough, because two
steps down take at least one token.

Main definition: `Graph.ofTokens`.
-/
import CellNft.Yaml.Tag
import CellNft.Yaml.Token

namespace CellNft.Yaml

inductive Node where
  | scalar (tag : Tag) (text : Text)
  | sequence (tag : Tag) (items : List Nat)
  | mapping (tag : Tag) (entries : List (Nat × Nat))

structure Graph where
  nodes : Array Node
  root : Nat

namespace Node

def tag : Node → Tag
  | .scalar tag _ | .sequence tag _ | .mapping tag _ => tag

/-- The node with another type. -/
def withTag (tag : Tag) : Node → Node
  | .scalar _ text => .scalar tag text
  | .sequence _ items => .sequence tag items
  | .mapping _ entries => .mapping tag entries

/-- What stands where a node is left out. -/
def empty : Node := .scalar .null ""

/-- The tokens that remain, with the nodes so far, the places of those that have names, and the
handles of tags. -/
structure Reading where
  tokens : List Token
  handles : List (String × String)
  nodes : Array Node := #[]
  anchors : List (String × Nat) := []

abbrev Reader := StateT Reading (Except Fault)

def malformed {α : Type} : Reader α := throw .malformedYaml

/-- The next token. Where a character is missing, reading ends. -/
def peek : Reader (Option Token) := do
  match (← get).tokens.head? with
  | some (.noCharacter code) => throw (.noCharacter code)
  | token => return token

/-- Goes on behind the next token. -/
def skip : Reader Unit := modify fun r => { r with tokens := r.tokens.drop 1 }

/-- Goes on behind the next token if it is the given one. -/
def accept (token : Token) : Reader Bool := do
  if (← peek) = some token then
    skip
    return true
  else return false

def require (token : Token) : Reader Unit := do
  if ← accept token then return
  else malformed

/-- Whether one of the tokens comes next. -/
def ahead (tokens : List Token) : Reader Bool := do
  return (← peek).any tokens.contains

/-- The name and the full tag in front of a node. -/
structure Properties where
  anchor : Option String := none
  tag : Option String := none

/-- The name that comes next, if there is one. -/
def anchor? : Reader (Option String) := do
  match ← peek with
  | some (.anchor name) =>
    skip
    return some name
  | _ => return none

/-- The handle and the suffix of the tag that comes next, if there is one. -/
def tag? : Reader (Option (Option String × String)) := do
  match ← peek with
  | some (.tag handle suffix) =>
    skip
    return some (handle, suffix)
  | _ => return none

/-- The full text of a tag. -/
def expand (handle : Option String) (suffix : String) : Reader String := do
  match handle with
  | none => return suffix
  | some h =>
    match (← get).handles.lookup h with
    | some expansion => return expansion ++ suffix
    | none => malformed

/-- The name and the tag, in either order. -/
def properties : Reader Properties := do
  let (anchor, tag) ← match ← anchor? with
    | some name => pure (some name, ← tag?)
    | none => do
      let tag ← tag?
      pure (← if tag.isSome then anchor? else pure none, tag)
  return { anchor, tag := ← tag.mapM fun t => expand t.1 t.2 }

/-- The type of a collection: the given one, unless none is given. -/
def collectionTag (usual : Tag) : Option String → Tag
  | none | some "!" => usual
  | some uri => Tag.ofUri uri

/-- The type of a scalar. Only a plain one without a tag, or any with the tag `!`, is typed by its
form. -/
def scalarTag (plain : Bool) (text : Text) : Option String → Tag
  | none => if plain then Tag.implied text.chars else .str
  | some "!" => Tag.implied text.chars
  | some uri => Tag.ofUri uri

/-- Adds a node behind all others; the result is its place. -/
def add (n : Node) : Reader Nat :=
  modifyGet fun r => (r.nodes.size, { r with nodes := r.nodes.push n })

/-- Replaces the node at a place. -/
def put (place : Nat) (n : Node) : Reader Unit :=
  modify fun r => { r with nodes := r.nodes.setIfInBounds place n }

/-- Gives the node at a place its name, which must be new. -/
def name (anchor : Option String) (place : Nat) : Reader Unit := do
  match anchor with
  | none => return
  | some a =>
    if ((← get).anchors.lookup a).isSome then malformed
    else modify fun r => { r with anchors := (a, place) :: r.anchors }

mutual

/-- One node, which has its place and its name before its parts are read. In a `block` position it
may be a block, and as part of a mapping also a sequence that is not indented. -/
def read (block unindented : Bool) : Nat → Reader Nat
  | 0 => malformed
  | fuel + 1 => do
    match ← peek with
    | some (.alias a) =>
      skip
      match (← get).anchors.lookup a with
      | some n => return n
      | none => malformed
    | _ =>
      let p ← properties
      let _ ← peek
      let place ← add empty
      name p.anchor place
      put place (← content block unindented p fuel)
      return place

/-- What comes behind the properties of a node. -/
def content (block unindented : Bool) (p : Properties) : Nat → Reader Node
  | 0 => malformed
  | fuel + 1 => do
    match ← peek with
    | some (.scalar plain text) =>
      skip
      return .scalar (scalarTag plain text p.tag) text
    | some .sequenceOpen =>
      skip
      return .sequence (collectionTag .seq p.tag) (← flowItems true fuel)
    | some .mappingOpen =>
      skip
      return .mapping (collectionTag .map p.tag) (← flowEntries true fuel)
    | some .entry =>
      if unindented then return .sequence (collectionTag .seq p.tag) (← unindentedItems fuel)
      else missing p
    | some .blockSequence =>
      if block then
        skip
        return .sequence (collectionTag .seq p.tag) (← blockItems fuel)
      else missing p
    | some .blockMapping =>
      if block then
        skip
        return .mapping (collectionTag .map p.tag) (← blockEntries fuel)
      else missing p
    | _ => missing p

/-- A node that is left out; it must have a name or a tag. -/
def missing (p : Properties) : Reader Node :=
  if p.anchor.isSome || p.tag.isSome then return .scalar (scalarTag true "" p.tag) ""
  else malformed

/-- A node, unless one of the tokens that can follow comes next. -/
def readOr (followers : List Token) (block unindented : Bool) : Nat → Reader Nat
  | 0 => malformed
  | fuel + 1 => do
    if ← ahead followers then add empty
    else read block unindented fuel

def blockItems : Nat → Reader (List Nat)
  | 0 => malformed
  | fuel + 1 => do
    if ← accept .entry then
      let n ← readOr [.entry, .blockEnd] true false fuel
      return n :: (← blockItems fuel)
    else
      require .blockEnd
      return []

def unindentedItems : Nat → Reader (List Nat)
  | 0 => malformed
  | fuel + 1 => do
    if ← accept .entry then
      let n ← readOr [.entry, .key, .value, .blockEnd] true false fuel
      return n :: (← unindentedItems fuel)
    else return []

def blockEntries : Nat → Reader (List (Nat × Nat))
  | 0 => malformed
  | fuel + 1 => do
    if ← accept .key then
      let k ← readOr [.key, .value, .blockEnd] true true fuel
      let v ← if ← accept .value then readOr [.key, .value, .blockEnd] true true fuel
        else add empty
      return (k, v) :: (← blockEntries fuel)
    else
      require .blockEnd
      return []

/-- The items up to the closing bracket. An item with a key is a mapping of one entry. -/
def flowItems (first : Bool) : Nat → Reader (List Nat)
  | 0 => malformed
  | fuel + 1 => do
    if ← accept .sequenceClose then return []
    else
      if !first then require .comma
      if ← accept .key then
        let k ← readOr [.value, .comma, .sequenceClose] false false fuel
        let v ← if ← accept .value then readOr [.comma, .sequenceClose] false false fuel
          else add empty
        let n ← add (.mapping .map [(k, v)])
        return n :: (← flowItems false fuel)
      else if ← accept .sequenceClose then return []
      else
        let n ← read false false fuel
        return n :: (← flowItems false fuel)

/-- The entries up to the closing brace. A key without a value is an entry, too. -/
def flowEntries (first : Bool) : Nat → Reader (List (Nat × Nat))
  | 0 => malformed
  | fuel + 1 => do
    if ← accept .mappingClose then return []
    else
      if !first then require .comma
      if ← accept .key then
        let k ← readOr [.value, .comma, .mappingClose] false false fuel
        let v ← if ← accept .value then readOr [.comma, .mappingClose] false false fuel
          else add empty
        return (k, v) :: (← flowEntries false fuel)
      else if ← accept .mappingClose then return []
      else
        let k ← read false false fuel
        return (k, ← add empty) :: (← flowEntries false fuel)

end

/-! ## Documents -/

/-- The handles that need no directive. -/
def usualHandles : List (String × String) := [("!", "!"), ("!!", "tag:yaml.org,2002:")]

/-- The handles that the directives of a document declare, each at most once, on top of the given
ones. There is one version at most, with major number one. -/
def directives (versioned : Bool) (handles : List (String × String)) :
    List Token → Except Fault (List (String × String) × List Token)
  | .directive (.version major) :: rest =>
    if versioned || major ≠ 1 then .error .malformedYaml else directives true handles rest
  | .directive (.tagHandle handle expansion) :: rest =>
    if (handles.lookup handle).isSome then .error .malformedYaml
    else directives versioned ((handle, expansion) :: handles) rest
  | .directive .unknown :: rest => directives versioned handles rest
  | rest => .ok (handles ++ usualHandles, rest)

/-- Whether a document without content ends here. -/
def endsDocument : List Token → Bool
  | [] | .directive _ :: _ | .documentStart :: _ | .documentEnd :: _ => true
  | _ => false

/-- Nothing but ends of the document may follow it. -/
def requireEnd (tokens : List Token) : Except Fault Unit :=
  match tokens.dropWhile (· = .documentEnd) with
  | [] => .ok ()
  | .noCharacter code :: _ => .error (.noCharacter code)
  | _ => .error .malformedYaml

end Node

namespace Graph

/-- The graph of a document that must take up all the tokens. -/
def readDocument (handles : List (String × String)) (tokens : List Token) : Except Fault Graph := do
  let (root, r) ← (Node.read true false (4 * tokens.length + 4)).run { tokens, handles }
  Node.requireEnd r.tokens
  return { nodes := r.nodes, root }

/-- The graph of the only document, or nothing if there is no document at all. -/
def ofTokens (tokens : List Token) : Except Fault (Option Graph) :=
  match tokens with
  | [] => .ok none
  | .directive _ :: _ | .documentStart :: _ => do
    let (handles, rest) ← Node.directives false [] tokens
    match rest with
    | .documentStart :: rest =>
      if Node.endsDocument rest then
        Node.requireEnd rest
        return some { nodes := #[Node.empty], root := 0 }
      else return some (← readDocument handles rest)
    | .noCharacter code :: _ => .error (.noCharacter code)
    | _ => .error .malformedYaml
  | _ => do return some (← readDocument Node.usualHandles tokens)

end Graph
end CellNft.Yaml
