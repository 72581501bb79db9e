/-
CellNft.Yaml.Layout — how indentation, line ends and brackets turn a text into tokens.

Outside brackets a collection opens where a line is indented deeper than the one around it, and
ends where a line is indented less. That something is a key shows only at the colon behind it: until
then its place is kept as pending, and the tokens that announce it are put in there later. A pending
key must be on the line of its colon and at most 1024 characters before it.

A fault of the text is one of the whole document, with one exception: an escape without a character
only counts if nothing is wrong with the tokens that can be told before it comes up. It becomes the
last token.

Main definition: `Yaml.tokens?`.
-/
import CellNft.Yaml.Block
import CellNft.Yaml.Plain
import CellNft.Yaml.Quoted
import CellNft.Yaml.Token

namespace CellNft.Yaml

/-- What may turn out to be a key. -/
structure Pending where
  /-- How many tokens come before it. -/
  token : Nat
  index : Nat
  line : Nat
  column : Nat
  /-- Whether nothing but a key makes sense there. -/
  required : Bool

/-- A place in the text, with all that the text before it decides. -/
structure Layout where
  rest : List Char
  index : Nat := 0
  line : Nat := 0
  column : Nat := 0
  tokens : Array Token := #[]
  /-- The columns of the open blocks, innermost first. -/
  indents : List Nat := []
  /-- Whether a key may start here. -/
  keyAllowed : Bool := true
  /-- The pending key inside the innermost open bracket. -/
  pending : Option Pending := none
  /-- Those around the open brackets, innermost first. -/
  outer : List (Option Pending) := []

namespace Layout

/-- Whether a bracket is open. -/
def inFlow (l : Layout) : Bool := !l.outer.isEmpty

/-- The least column of what belongs to the innermost open block. -/
def inner (l : Layout) : Nat :=
  match l.indents with
  | [] => 0
  | i :: _ => i + 1

/-- The place behind the next character. A byte order mark takes no column. -/
def advance (l : Layout) : Layout :=
  match l.rest with
  | [] => l
  | c :: rest =>
    if isBreak c then { l with rest, index := l.index + 1, line := l.line + 1, column := 0 }
    else
      let width := if c = '\ufeff' then 0 else 1
      { l with rest, index := l.index + 1, column := l.column + width }

def skip : Nat → Layout → Layout
  | 0, l => l
  | n + 1, l => skip n l.advance

/-- The place where `rest` is what remains of the text. -/
def skipTo (rest : List Char) (l : Layout) : Layout := skip (l.rest.length - rest.length) l

def push (token : Token) (l : Layout) : Layout := { l with tokens := l.tokens.push token }

def insert (place : Nat) (token : Token) (l : Layout) : Layout :=
  { l with tokens := l.tokens.insertIdxIfInBounds place token }

/-- Goes on behind spaces, comments and line breaks. Outside brackets a new line may start with a
key. -/
def skipGap : Nat → Layout → Layout
  | 0, l => l
  | fuel + 1, l =>
    let l := l.skipTo (l.rest.dropWhile (· = ' '))
    let l :=
      if l.rest.head? = some '#' then l.skipTo (l.rest.dropWhile fun c => !isBreak c) else l
    if l.rest.head?.any isBreak then
      let l := l.advance
      skipGap fuel { l with keyAllowed := l.keyAllowed || !l.inFlow }
    else l

/-! ## Pending keys -/

def isStale (l : Layout) (p : Pending) : Bool := p.line ≠ l.line || 1024 < l.index - p.index

/-- What is left of a pending key: nothing if its colon can no longer come. -/
def refresh (l : Layout) : Option Pending → Option (Option Pending)
  | none => some none
  | some p => if !l.isStale p then some (some p) else if p.required then none else some none

def dropStale (l : Layout) : Option Layout := do
  return { l with pending := ← l.refresh l.pending, outer := ← l.outer.mapM l.refresh }

/-- Gives up the pending key. -/
def dropPending (l : Layout) : Option Layout :=
  if l.pending.any (·.required) then none else some { l with pending := none }

/-- Keeps this place as that of a key, if one may be here. -/
def markPending (l : Layout) : Option Layout :=
  if l.keyAllowed then do
    let required := !l.inFlow && l.indents.head? = some l.column
    let l ← l.dropPending
    return { l with pending := some ⟨l.tokens.size, l.index, l.line, l.column, required⟩ }
  else some l

/-! ## Blocks -/

def closeBlocks (belongs : Nat → Bool) : List Nat → Array Token → List Nat × Array Token
  | [], tokens => ([], tokens)
  | i :: rest, tokens =>
    if belongs i then (i :: rest, tokens) else closeBlocks belongs rest (tokens.push .blockEnd)

/-- Closes the blocks that the current column is not inside of. -/
def unwind (l : Layout) : Layout :=
  if l.inFlow then l
  else
    let (indents, tokens) := closeBlocks (· ≤ l.column) l.indents l.tokens
    { l with indents, tokens }

/-- Closes all blocks. -/
def unwindAll (l : Layout) : Layout :=
  if l.inFlow then l
  else
    let (indents, tokens) := closeBlocks (fun _ => false) l.indents l.tokens
    { l with indents, tokens }

/-- Whether a block opens at a column. -/
def opensAt (column : Nat) (l : Layout) : Bool := !l.inFlow && l.indents.all (· < column)

/-- Opens a block here, unless one is open at this column. -/
def openBlock (token : Token) (l : Layout) : Layout :=
  if l.opensAt l.column then { l.push token with indents := l.column :: l.indents } else l

/-! ## Tokens -/

/-- Puts out a token for the next `width` characters. -/
def mark (width : Nat) (token : Token) (l : Layout) : Layout := (l.skip width).push token

/-- A directive line, or the mark between documents: it ends everything that is open. -/
def boundary (token : Token) (rest : List Char) (l : Layout) : Option Layout := do
  let l ← l.unwindAll.dropPending
  return { (l.skipTo rest).push token with keyAllowed := false }

def openFlow (token : Token) (l : Layout) : Option Layout := do
  let l := (← l.markPending).mark 1 token
  return { l with outer := l.pending :: l.outer, pending := none, keyAllowed := true }

def closeFlow (token : Token) (l : Layout) : Option Layout := do
  let l := (← l.dropPending).mark 1 token
  match l.outer with
  | [] => none
  | p :: outer => return { l with outer, pending := p, keyAllowed := false }

def comma (l : Layout) : Option Layout := do
  return { (← l.dropPending).mark 1 .comma with keyAllowed := true }

/-- The hyphen before an item. -/
def entry (l : Layout) : Option Layout :=
  if l.inFlow || l.keyAllowed then do
    let l ← (l.openBlock .blockSequence).dropPending
    return { l.mark 1 .entry with keyAllowed := true }
  else none

/-- The question mark before a key. -/
def key (l : Layout) : Option Layout :=
  if l.inFlow || l.keyAllowed then do
    let l ← (l.openBlock .blockMapping).dropPending
    return { l.mark 1 .key with keyAllowed := !l.inFlow }
  else none

/-- The colon before a value. -/
def value (l : Layout) : Option Layout :=
  match l.pending with
  | some p =>
    let l := { l with pending := none, keyAllowed := false }
    let l := l.insert p.token .key
    let l :=
      if l.opensAt p.column then
        { l.insert p.token .blockMapping with indents := p.column :: l.indents }
      else l
    some (l.mark 1 .value)
  | none =>
    if l.inFlow || l.keyAllowed then
      let l := l.openBlock .blockMapping
      some { l.mark 1 .value with keyAllowed := !l.inFlow }
    else none

/-- A token that can start a key and is followed by `rest`. -/
def nodePart (token : Token) (rest : List Char) (l : Layout) : Option Layout := do
  let l := ((← l.markPending).skipTo rest).push token
  return { l with keyAllowed := false }

def plain (l : Layout) : Option Layout := do
  let l ← l.markPending
  let extent := Plain.read l.inFlow l.inner l.rest
  let l := (l.skipTo extent.rest).push (.scalar true (.ofChars extent.content))
  return { l with keyAllowed := extent.newLine }

def block (fold : Bool) (l : Layout) : Option Layout := do
  let l ← l.dropPending
  let (content, rest) ← Block.read fold l.inner (l.rest.drop 1)
  return { (l.skipTo rest).push (.scalar false (.ofChars content)) with keyAllowed := true }

def quoted (double : Bool) (text : List Char) (l : Layout) : Except Fault Layout := do
  let (content, rest) ← Quoted.read double text
  Quoted.wellFormed (l.nodePart (.scalar false content) rest)

/-- Puts out the next token, which is not in quotes; the text starts with it. -/
def nextUnquoted (l : Layout) : Option Layout :=
  match l.rest with
  | [] => none
  | c :: rest =>
    let spaced := l.inFlow || atGap rest
    if c = '%' && l.column = 0 then do
      let (token, rest) ← Token.readDirective rest
      l.boundary token rest
    else if l.column = 0 && isMarker l.rest then
      l.boundary (if c = '-' then .documentStart else .documentEnd) (l.rest.drop 3)
    else if c = '[' then l.openFlow .sequenceOpen
    else if c = '\x7b' then l.openFlow .mappingOpen
    else if c = ']' then l.closeFlow .sequenceClose
    else if c = '\x7d' then l.closeFlow .mappingClose
    else if c = ',' then l.comma
    else if c = '-' && atGap rest then l.entry
    else if c = '?' && spaced then l.key
    else if c = ':' && spaced then l.value
    else if c = '*' then do
      let (name, rest) ← Token.readAnchor rest
      l.nodePart (.alias name) rest
    else if c = '&' then do
      let (name, rest) ← Token.readAnchor rest
      l.nodePart (.anchor name) rest
    else if c = '!' then do
      let (token, rest) ← Token.readTag rest
      l.nodePart token rest
    else if (c = '|' || c = '>') && !l.inFlow then l.block (c = '>')
    else if Plain.startsHere l.inFlow l.rest then l.plain
    else none

/-- Puts out the next token. -/
def next (l : Layout) : Except Fault Layout :=
  match l.rest with
  | '"' :: text => l.quoted true text
  | '\'' :: text => l.quoted false text
  | _ => Quoted.wellFormed l.nextUnquoted

/-- How many tokens can be told without looking further: those before the first pending key. -/
def settled (l : Layout) : Nat :=
  ((l.pending :: l.outer).filterMap fun p => p.map (·.token)).foldl min l.tokens.size

/-- All tokens from here on. -/
def run : Nat → Layout → Option (List Token)
  | 0, _ => none
  | fuel + 1, l => do
    let l ← l.dropStale
    let settled := l.settled
    let l ← (l.skipGap (l.rest.length + 1)).dropStale
    if l.rest.isEmpty then return (← l.unwindAll.dropPending).tokens.toList
    else
      match l.unwind.next with
      | .ok l => run fuel l
      | .error (.noCharacter code) => return l.tokens.toList.take settled ++ [.noCharacter code]
      | .error _ => none

end Layout

/-- The tokens of a text. Every token but the ends of blocks takes up at least one character. -/
def tokens? (s : List Char) : Option (List Token) :=
  let s := if s.head? = some '\ufeff' then s.drop 1 else s
  Layout.run (s.length + 1) { rest := s }

end CellNft.Yaml
