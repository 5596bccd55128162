import Diameter.Lib.Bytes

/-!
# Lib.Utf8

`utf8.Valid`: the well-formed byte sequences of Unicode, by the range of each first octet.
-/

namespace Lib

def inRange (lo hi b : UInt8) : Bool := decide (lo ≤ b) && decide (b ≤ hi)

/-- How many octets follow a first octet, and the range of the first of them. -/
def utf8Follow (b : UInt8) : Option (Nat × UInt8 × UInt8) :=
  if b < 0x80 then some (0, 0, 0)
  else if inRange 0xc2 0xdf b then some (1, 0x80, 0xbf)
  else if b = 0xe0 then some (2, 0xa0, 0xbf)
  else if b = 0xed then some (2, 0x80, 0x9f)
  else if inRange 0xe1 0xef b then some (2, 0x80, 0xbf)
  else if b = 0xf0 then some (3, 0x90, 0xbf)
  else if b = 0xf4 then some (3, 0x80, 0x8f)
  else if inRange 0xf1 0xf3 b then some (3, 0x80, 0xbf)
  else none

/-- Reads on with `n` octets of the current sequence to come, the next one between `lo` and
`hi`. -/
def utf8ValidFrom : Nat → UInt8 → UInt8 → Bytes → Bool
  | 0, _, _, [] => true
  | _ + 1, _, _, [] => false
  | 0, _, _, b :: rest =>
    match utf8Follow b with
    | none => false
    | some (n, lo, hi) => utf8ValidFrom n lo hi rest
  | n + 1, lo, hi, b :: rest => inRange lo hi b && utf8ValidFrom n 0x80 0xbf rest

/-- `utf8.Valid`. -/
def utf8Valid (b : Bytes) : Bool := utf8ValidFrom 0 0 0 b

example : utf8Valid [0x67, 0xc3, 0xb6, 0xe2, 0x82, 0xac] = true := by decide
example : utf8Valid [0xed, 0xa0, 0x80] = false := by decide

end Lib
