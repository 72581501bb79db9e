/-
CellNft.Base64 — bytes written with sixty-four characters.

Four characters of six bits each make three bytes. `Base64.decode?` passes over every character
outside the alphabet. Padding ends the text as soon as it completes a group that has two or three
characters; at any other place it is passed over, too. A text that ends inside a group is refused.
-/
import CellNft.Bytes

namespace CellNft.Base64

/-- The six bits of a character of the alphabet. -/
def sextet? (c : Char) : Option Nat :=
  if 'A' ≤ c ∧ c ≤ 'Z' then some (c.toNat - 0x41)
  else if 'a' ≤ c ∧ c ≤ 'z' then some (c.toNat - 0x61 + 26)
  else if '0' ≤ c ∧ c ≤ '9' then some (c.toNat - 0x30 + 52)
  else if c = '+' then some 62
  else if c = '/' then some 63
  else none

/-- The full bytes in up to four sextets. -/
def groupBytes : List Nat → Bytes
  | [a, b] => [UInt8.ofNat (a * 4 + b / 16)]
  | [a, b, c] => [UInt8.ofNat (a * 4 + b / 16), UInt8.ofNat (b % 16 * 16 + c / 4)]
  | [a, b, c, d] =>
    [UInt8.ofNat (a * 4 + b / 16), UInt8.ofNat (b % 16 * 16 + c / 4), UInt8.ofNat (c % 4 * 64 + d)]
  | _ => []

/-- The bytes from inside a group on: the sextets of the group so far, and the padding that has
followed the last of them. -/
def decodeFrom (group : List Nat) (pads : Nat) : List Char → Option Bytes
  | [] => if group.isEmpty then some [] else none
  | c :: rest =>
    if c = '=' then
      if group.length < 2 then decodeFrom group pads rest
      else if 4 ≤ group.length + (pads + 1) then some (groupBytes group)
      else decodeFrom group (pads + 1) rest
    else
      match sextet? c with
      | none => decodeFrom group pads rest
      | some s =>
        if group.length = 3 then (groupBytes (group ++ [s]) ++ ·) <$> decodeFrom [] 0 rest
        else decodeFrom (group ++ [s]) 0 rest

/-- The bytes a text stands for. -/
def decode? (s : List Char) : Option Bytes := decodeFrom [] 0 s

end CellNft.Base64
