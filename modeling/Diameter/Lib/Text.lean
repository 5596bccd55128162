import Mathlib.Data.List.Basic

/-!
# Lib.Text

The two functions of Go's `strings` package that read comma-separated lists, on characters.
-/

namespace Lib

/-- `unicode.IsSpace`. -/
def isSpace (c : Char) : Bool :=
  c.toNat ∈ [0x09, 0x0a, 0x0b, 0x0c, 0x0d, 0x20, 0x85, 0xa0, 0x1680, 0x2028, 0x2029, 0x202f, 0x205f,
    0x3000] || (0x2000 ≤ c.toNat && c.toNat ≤ 0x200a)

/-- `strings.TrimSpace`. -/
def trimSpace (cs : List Char) : List Char :=
  ((cs.dropWhile isSpace).reverse.dropWhile isSpace).reverse

/-- The trimmed items of `strings.Split(s, ",")`. -/
def commaItems (s : String) : List (List Char) := (s.toList.splitOn ',').map trimSpace

end Lib
