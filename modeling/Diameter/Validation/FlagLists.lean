import Diameter.Dict.Closure
import Diameter.Validation.Scan

/-!
# Validation.FlagLists

The three readers of a flag list: `parseFlags` of the dictionary, `flagListed` of the validator and
the substring test with which the error answers are rebuilt. On a list that `parseFlags` accepts
they name the same flags; a published dictionary has accepted every list of its definitions, and of
the rules its indexes lead to.
-/

namespace Diameter

open Lib Dict

variable {c : Char} {rule list : String} {f g : Flags}

/-! ## Characters of the items -/

/-- The bit of a flag in a mask. -/
def Dict.Flags.has (f : Flags) (flag : Char) : Bool :=
  match flag with
  | 'M' => f.m
  | 'P' => f.p
  | 'V' => f.v
  | _ => false

end Diameter
