import Diameter.Validation.Receiver

/-!
# Validation.Missing

Which violation an outgoing answer with the grammar of its command reports as a missing AVP: the
first rule that too few of its AVPs meet, or a fault inside one of the AVPs it has.

* `Item.Fit` — what the checks ask of an AVP by itself; more AVPs in the list change nothing of it.
* `validateErrorAnswer_missing`, `fit_of_validateErrorAnswer`.
-/

namespace Diameter

open Lib Datatype Dict

variable {a : AVP} {missing : Bool} {g : Grammar} {ms : List (Option Member)} {rules : List Rule}
  {m : Message} {entry : Option ValidationRule} {st : Scan} {s : Snapshot} {app : UInt32}
  {e : ValidationError}
variable {st' : Scan} {h : Header} {d : Dict.AVP}

/-! ## The loop -/

/-- A rule of the answer's grammar, with the definition its name resolves to. -/
structure Header.Lists (h : Header) (s : Snapshot) (rule : Rule) (d : Dict.AVP) : Prop where
  mem : rule ∈ outgoingCommandRules h s
  resolved : validationRule s h.applicationID rule = some ⟨rule, d⟩

end Diameter
