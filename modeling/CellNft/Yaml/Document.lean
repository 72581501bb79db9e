/-
CellNft.Yaml.Document — the value of a document.

A text holds one document at most. A text without a document is null.

Main definition: `Yaml.parse`.
-/
import CellNft.Yaml.Content
import CellNft.Yaml.Layout

namespace CellNft.Yaml

/-- All three kinds of line ends as line feeds. -/
def unifyBreaks : List Char → List Char
  | [] => []
  | '\r' :: '\n' :: rest => '\n' :: unifyBreaks rest
  | '\r' :: rest => '\n' :: unifyBreaks rest
  | c :: rest => c :: unifyBreaks rest

/-- The graph of the only document of a text. -/
def graph (s : List Char) : Except Fault (Option Graph) := do
  if s.all isAllowed then Graph.ofTokens (← Quoted.wellFormed (tokens? s))
  else .error .malformedYaml

/-- The value of a text. -/
def parse (text : String) : Except Fault Value := do
  match ← graph (unifyBreaks text.toList) with
  | some g => g.toValue
  | none => return .null

end CellNft.Yaml
