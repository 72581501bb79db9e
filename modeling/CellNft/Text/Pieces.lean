/-
CellNft.Text.Pieces — a text cut at every occurrence of a character.
-/
import CellNft.Text.Basic

namespace CellNft.Text

/-- The pieces between the occurrences of `sep`; there is always at least one. -/
def pieces {α : Type} [DecidableEq α] (sep : α) : List α → List (List α)
  | [] => [[]]
  | c :: rest =>
    if c = sep then [] :: pieces sep rest
    else
      match pieces sep rest with
      | [] => [[c]]
      | p :: more => (c :: p) :: more

/-- The texts between the occurrences of a character. -/
def cut (sep : Char) (t : Text) : List Text := (pieces (.char sep) t.points).map Text.mk

end CellNft.Text
