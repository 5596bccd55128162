import Diameter.Validation.Scan

/-!
# Validation.Message

`Message.Validate`, `Message.ValidateOutgoing` and `Message.ValidateErrorAnswer`: the checks of the
header, of the flags a sender may set, and of the grammar the header selects.

A cyclic Grouped AVP, which the source also looks for, is not a tree and has no counterpart here.
-/

namespace Diameter

open Lib Datatype Dict

variable (s : Snapshot) (app : UInt32) (rules : List Rule)

/-- `genericErrorRules`, for answers with the E bit. -/
def genericErrorRules : List Rule :=
  [{ avp := "Session-Id", max := 1, maxSet := true, fixed := true },
    { avp := "Origin-Host", required := true, max := 1, maxSet := true },
    { avp := "Origin-Realm", required := true, max := 1, maxSet := true },
    { avp := "Result-Code", required := true, max := 1, maxSet := true },
    { avp := "Origin-State-Id", max := 1, maxSet := true },
    { avp := "Error-Message", max := 1, maxSet := true },
    { avp := "Error-Reporting-Host", max := 1, maxSet := true },
    { avp := "Failed-AVP", max := 1, maxSet := true },
    { avp := "Experimental-Result", max := 1, maxSet := true },
    { avp := "Proxy-Info" },
    { avp := "AVP" }]

/-! ## Flags of outgoing AVPs -/

/-- The flags a dictionary makes rules for. -/
def ruledFlags : List (Char × UInt8) := [('M', mbit), ('P', pbit)]

def violatesDefinition (flags : UInt8) (d : Dict.AVP) : Bool :=
  ruledFlags.any fun (name, bit) =>
    (flags &&& bit != 0 && flagListed d.mustNot name) ||
      (flags &&& bit == 0 && flagListed d.must name)

/-- Whether a member rule is about this AVP. -/
def Rule.appliesTo (s : Snapshot) (app : UInt32) (a : AVP) (rule : Rule) : Bool :=
  rule.avp == "AVP" ||
    match s.findAVPByName app rule.avp with
    | .ok member => member.code == a.code && member.vendorID == a.vendorID
    | .error _ => false

def violatesMember (a : AVP) : Bool :=
  rules.any fun rule => rule.mustNot != "" && Rule.appliesTo s app a rule &&
    ruledFlags.any fun (name, bit) => a.flags &&& bit != 0 && flagListed rule.mustNot name

def invalidOutgoingFlags (a : AVP) : Bool :=
  a.flags &&& 0x1f != 0 || (a.flags &&& vbit != 0) != (a.vendorID != 0) ||
    (match (s.findAVP app a.code a.vendorID).toOption with
      | some d => violatesDefinition a.flags d
      | none => false) || violatesMember s app rules a

/-- The rules for the members of an AVP, from its definition if it is known. -/
def memberRules (s : Snapshot) (app code vendorID : UInt32) : List Rule :=
  match (s.findAVP app code vendorID).toOption with
  | some d => d.data.rule
  | none => []

/-- One AVP of `walkOutgoingFlags`; `inner` is the walk over its members. -/
def checkOutgoing (a : AVP) (inner : Check Unit) : Check Unit :=
  if invalidOutgoingFlags s app rules a then
    .error ⟨invalidAVPBits, some a, "outgoing AVP " ++ toString a.code ++ "/" ++
      toString a.vendorID ++ " flags violate sending rules"⟩
  else if a.isFailedAVP then validateFailedEvidence a
  else
    match a.data, inner with
    | .nilGroup, _ => .error ⟨invalidAVPValue, some a, "nil outgoing Grouped AVP"⟩
    | .group _, .error ⟨code, none, reason⟩ => .error ⟨code, some a, reason⟩
    | .group _, .error ⟨code, some failed, reason⟩ =>
      .error ⟨code, some { a with data := .group [some failed] }, reason⟩
    | _, _ => .ok ()

mutual

def AVP.walkOutgoingFlags (s : Snapshot) (app : UInt32) (rules : List Rule) : AVP → Check Unit
  | ⟨code, flags, length, vendorID, .group ms⟩ =>
    checkOutgoing s app rules ⟨code, flags, length, vendorID, .group ms⟩
      (walkOutgoingMembers s app (memberRules s app code vendorID) ms)
  | a => checkOutgoing s app rules a (.ok ())

def walkOutgoingMembers (s : Snapshot) (app : UInt32) (rules : List Rule) :
    List (Option AVP) → Check Unit
  | [] => .ok ()
  | none :: _ => .error ⟨avpNotAllowed, none, "nil outgoing AVP"⟩
  | some a :: ms => do
    a.walkOutgoingFlags s app rules
    walkOutgoingMembers s app rules ms

end

/-- An AVP of a message; echoes keep the flags they came with. -/
def Item.walkOutgoingFlags (i : Item) : Check Unit :=
  match i.avp with
  | none => .error ⟨avpNotAllowed, none, "nil outgoing AVP"⟩
  | some a => if i.isEchoedProxy then .ok () else a.walkOutgoingFlags s app rules

/-- `walkOutgoingFlags`. -/
def walkOutgoingFlags (s : Snapshot) (app : UInt32) (rules : List Rule) : List Item → Check Unit
  | [] => .ok ()
  | i :: items => do
    i.walkOutgoingFlags s app rules
    walkOutgoingFlags s app rules items

/-! ## The header and the grammar it selects -/

def Header.isError (h : Header) : Bool := h.commandFlags &&& errorFlag != 0

def Header.invalidFlags (h : Header) (outgoing : Bool) : Bool :=
  outgoing && h.commandFlags &&& 0x0f != 0 || h.isRequest && h.isError ||
    !h.isRequest && h.commandFlags &&& retransmittedFlag != 0

/-- `outgoingCommandRules`. -/
def outgoingCommandRules (h : Header) (s : Snapshot) : List Rule :=
  if h.isError then genericErrorRules
  else
    match s.findCommand h.applicationID h.commandCode with
    | .error _ => []
    | .ok command => if h.isRequest then command.request.rule else command.answer.rule

def AVP.isDestination (a : AVP) : Bool :=
  a.vendorID == 0 && (a.code == destinationHostCode || a.code == destinationRealmCode)

/-- Destination AVPs are prohibited in all answers. -/
def checkDestination (h : Header) (avps : List (Option AVP)) : Check Unit :=
  match h.isRequest, (avps.filterMap id).find? AVP.isDestination with
  | false, some a => .error ⟨avpNotAllowed, some a, "destination AVP in answer"⟩
  | _, _ => .ok ()

def AVP.unsigned32? (a : AVP) : Option UInt32 :=
  match a.data with
  | .value (.unsigned32 n) => some n
  | _ => none

/-- The value of the first Result-Code, if it is one. -/
def firstResultCode (avps : List (Option AVP)) : Option UInt32 :=
  ((avps.filterMap id).find? fun a => a.code == resultCodeCode && a.vendorID == 0).bind
    AVP.unsigned32?

/-- `errorAnswer`. -/
def errorAnswer (avps : List (Option AVP)) : Bool :=
  match firstResultCode avps with
  | some code => decide (3000 ≤ code ∧ code < 6000)
  | none => false

/-- Whether the E bit agrees with the result code. -/
def validErrorCode (outgoing : Bool) (avps : List (Option AVP)) : Bool :=
  let code := (firstResultCode avps).getD 0
  decide (3000 ≤ code ∧ code < 4000) || !outgoing && decide (5000 ≤ code ∧ code < 6000)

/-- An error answer may lack the Session-Id. -/
def relaxSessionID (rule : Rule) : Rule :=
  if rule.avp = "Session-Id" then { rule with required := false, min := 0 } else rule

/-- The check against the grammar of a command. -/
def validateCommand (h : Header) (items : List Item) (s : Snapshot) (allowMissingSession : Bool) :
    Check Unit :=
  match s.findCommand h.applicationID h.commandCode with
  | .error e => .error ⟨commandUnsupported, none, e.text⟩
  | .ok command =>
    let grammar := if h.isRequest then command.request else command.answer
    if grammar.rule.isEmpty then
      .error ⟨invalidHDRBits, none, "R bit selects an undefined command grammar"⟩
    else if grammar.proxiable.any fun p => p != (h.commandFlags &&& proxiableFlag != 0) then
      .error ⟨invalidHDRBits, none, "P bit disagrees with command grammar"⟩
    else
      let rules :=
        if allowMissingSession && !h.isRequest && errorAnswer (items.map Item.avp) then
          grammar.rule.map relaxSessionID
        else grammar.rule
      validateAVPs items rules h.applicationID s

/-- Only an outgoing answer can hold echoes. -/
def Message.echoItems (m : Message) (outgoing : Bool) : List Item :=
  if outgoing && !m.header.isRequest then m.items else m.items.map fun i => ⟨i.avp, none⟩

/-- `validate`; `missingSessionID` is the option of `ValidateErrorAnswer`. -/
def Message.validateWith (m : Message) (s : Snapshot) (outgoing missingSessionID : Bool) :
    Check Unit := do
  let h := m.header
  let items := m.echoItems outgoing
  if h.invalidFlags outgoing then
    .error ⟨invalidHDRBits, none, "invalid command header flags"⟩
  else
    checkDestination h m.avps
    if outgoing then
      walkOutgoingFlags s h.applicationID (outgoingCommandRules h s) items
    if h.isError then
      if validErrorCode outgoing m.avps then
        validateAVPs items genericErrorRules h.applicationID s
      else .error ⟨invalidHDRBits, none, "E bit requires a 3xxx result code, or 5xxx on receipt"⟩
    else validateCommand h items s (!outgoing || missingSessionID)

def Message.validate (m : Message) (s : Snapshot) : Check Unit := m.validateWith s false false

def Message.validateErrorAnswer (m : Message) (s : Snapshot) (missingSessionID : Bool) :
    Check Unit :=
  m.validateWith s true missingSessionID

end Diameter
