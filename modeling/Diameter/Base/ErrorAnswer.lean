import Diameter.Base.Builders
import Diameter.Base.Validation

/-!
# Base.ErrorAnswer

The answer that rejects a request: local origin, result code, the evidence in one Failed-AVP, and,
where the answer keeps the grammar of its command, whatever that grammar still asks for.

Of the AVPs a builder adds only an address can be refused, so the texts the source wraps around
the other failures never occur. A value taken from the request is rebuilt level by level
(`rebuildAnswerAVP`), here with the levels left below the nesting limit.
-/

namespace Diameter.Base

open Lib Datatype Dict

variable (drawn : Drawn) (s : Snapshot) (request : Message)

def sessionIDCode : UInt32 := 263

/-! ## Values of the request -/

/-- `answerEvidenceFits` with this many more Grouped levels allowed. -/
def answerEvidenceFits : Nat → AVP → Bool
  | levels, a =>
    match a.data, levels with
    | .nil, _ | .nilGroup, _ | .group _, 0 => false
    | .group ms, levels + 1 => ms.all fun c => c.any (answerEvidenceFits levels)
    | _, _ => true

/-- The flags an AVP is sent with. -/
def answerFlags (definition : Option Dict.AVP) (received : AVP) : UInt8 :=
  let flags := match definition with
    | none => received.flags &&& mbit
    | some d =>
      (if d.must.toList.contains 'M' then mbit else 0) |||
        (if d.must.toList.contains 'P' then pbit else 0)
  if received.vendorID ≠ 0 then flags ||| vbit else flags

/-- The members to rebuild: none for other data, an error for a group that cannot be read. -/
def answerMembers (app : UInt32) : Data AVP → Except Unit (Option (List (Option AVP)))
  | .nilGroup => .error ()
  | .group ms => .ok (some ms)
  | .value (.grouped b) =>
    match decodeGroupedFromBytes b app s 1 false with
    | ⟨avps, [], .done⟩ => .ok (some (avps.map some))
    | _ => .error ()
  | _ => .ok none

def isRaw : Data AVP → Bool
  | .value (.unknown _) => true
  | _ => false

/-- `rebuildAnswerAVP` with this many more Grouped levels allowed. -/
def rebuildAnswerAVP (s : Snapshot) (app : UInt32) : Nat → AVP → Option AVP
  | levels, received =>
    let definition := (s.findAVP app received.code received.vendorID).toOption
    let rebuilt := newAVP received.code (answerFlags definition received) received.vendorID
    match received.data with
    | .nil => none
    | data =>
      if definition.isSome && isRaw data then none
      else if received.code = failedAVPCode ∧ received.vendorID = 0 then
        if answerEvidenceFits levels received then some (rebuilt data) else none
      else
        match answerMembers s app data, levels with
        | .error (), _ | .ok (some _), 0 => none
        | .ok none, _ => some (rebuilt data)
        | .ok (some ms), levels + 1 =>
          let copied? := ms.mapM fun (c : Option AVP) => c.bind (rebuildAnswerAVP s app levels)
          copied?.map fun copied => rebuilt (.group (copied.map some))

def rebuiltFrom (app : UInt32) : AVP → Option AVP :=
  rebuildAnswerAVP s app s.groupedDepthLimit

/-- Session-Id, from the first of the request that can be read, goes first. With it: whether the
answer may lack one. -/
def copySessionID (s : Snapshot) : List AVP → Bool → Message → Bool × Message
  | [], missing, answer => (missing, answer)
  | a :: rest, missing, answer =>
    if a.code ≠ sessionIDCode ∨ a.vendorID ≠ 0 then copySessionID s rest missing answer
    else
      match a.data with
      | .value (.utf8String _) =>
        if answer.len + a.len > maxMessageLength then (false, answer)
        else
          match rebuiltFrom s answer.header.applicationID a with
          | none => copySessionID s rest false answer
          | some copied => (false, answer.insertAVP copied)
      | _ => (missing, answer)

/-! ## What the grammar asks for -/

def AVP.isApplicationID (a : AVP) : Bool :=
  a.vendorID == 0 && (a.code == authApplicationIDCode || a.code == acctApplicationIDCode)

/-- A missing Vendor-Specific-Application-Id names the vendor of the application, unless its
members came with the request, and needs one of the two identifiers. -/
def completeApplication (appID : UInt32) (synthesized : Bool) (a : AVP) : AVP :=
  match a.code == vendorSpecificApplicationIDCode && a.vendorID == 0, a.data with
  | true, .group ms =>
    let app := s.appcode.lookup appID
    let setVendor (app : App) (c : AVP) : AVP :=
      if c.code = vendorIDCode ∧ c.vendorID = 0 then
        { c with data := .value (.unsigned32 app.applicationVendor) }
      else c
    let ms := match synthesized, app with
      | true, some app => ms.map (Option.map (setVendor app))
      | _, _ => ms
    let code :=
      if app.any fun app => app.type == "acct" then acctApplicationIDCode else authApplicationIDCode
    let choice := ms.any fun c => c.any AVP.isApplicationID
    { a with data := .group (if choice then ms else ms ++ [some (unsigned32AVP code appID)]) }
  | _, _ => a

/-- What is added for a required AVP that is missing: the one of the request, if it can be rebuilt,
or else the example. -/
def suppliedAVP (appID : UInt32) (missing : AVP) : AVP :=
  let matching := (request.avps.filterMap id).filter fun a =>
    a.code == missing.code && a.vendorID == missing.vendorID
  match matching.findSome? (rebuiltFrom s appID) with
  | some rebuilt => completeApplication s appID false rebuilt
  | none => completeApplication s appID true missing

def cannotForm (e : ValidationError) : String :=
  "cannot form valid Diameter error answer: " ++ e.text

/-- The loop that adds what is missing, for this many rounds. -/
def addMissing (s : Snapshot) (request : Message) (missingSessionID : Bool) :
    Nat → Message → Except String Message
  | 0, _ => .error "too many missing AVPs in Diameter error answer"
  | rounds + 1, answer =>
    match answer.validateErrorAnswer s missingSessionID with
    | .ok () => .ok answer
    | .error e =>
      match decide (e.resultCode = missingAVP), e.failedAVP with
      | true, some missing =>
        addMissing s request missingSessionID rounds
          (answer.addAVP (suppliedAVP s request answer.header.applicationID missing))
      | _, _ => .error (cannotForm e)

/-- An answer with the grammar of its command is filled up. -/
def fillErrorAnswer (protocolError missingSessionID : Bool)
    (answer : Message) : Except String Message :=
  if protocolError then .ok answer else addMissing s request missingSessionID 32 answer

/-- Every answer has to pass the outgoing checks in the end. -/
def finishErrorAnswer (protocolError missingSessionID : Bool)
    (answer : Message) : Except String Message := do
  let filled ← fillErrorAnswer s request protocolError missingSessionID answer
  match filled.validateErrorAnswer s missingSessionID with
  | .ok () => .ok filled
  | .error e => .error (cannotForm e)

/-! ## The answer -/

/-- The answer before its AVPs: of the flags only P is kept, a connection-level command has
Application-Id zero and, but for protocol errors, no flags. -/
def startErrorAnswer (protocolError : Bool) : Message :=
  let answer := request.answer drawn 0
  let isBase := request.header.isCommand
  let flags := request.header.commandFlags &&& proxiableFlag
  { answer with
    header := { answer.header with
      applicationID := if isBase then 0 else answer.header.applicationID
      commandFlags :=
        if protocolError then flags ||| errorFlag else if isBase then 0 else flags } }

/-- The fields every error answer has. Result-Code goes before the origin unless the answer has the
generic grammar. -/
def errorFields (cfg : Settings) (resultCode : UInt32) (protocolError : Bool) : List Field :=
  let result : Field := { code := resultCodeCode, value := .unsigned32 resultCode }
  (if protocolError then [originHost cfg, originRealm cfg, result]
    else [result, originHost cfg, originRealm cfg]) ++
    optionalField cfg.originStateID (originStateID cfg.originStateID)

def failedAVPs (failed : List AVP) : List AVP :=
  if failed.isEmpty then [] else [newAVP failedAVPCode mbit 0 (.group (failed.map some))]

/-- The capability fields of a CEA that reports a permanent failure. -/
def errorCapabilities (cfg : Settings) (protocolError : Bool) : Except String (List Field) :=
  if !protocolError && request.header.commandCode == BaseCommand.capabilitiesExchange.code then do
    let addresses ← addressesFor "error CEA" cfg
    return addresses.map (fun a => { code := hostIPAddressCode, value := .address a }) ++
      [{ code := vendorIDCode, value := .unsigned32 cfg.vendorID },
       { code := productNameCode, flags := 0, value := .utf8String cfg.productName }]
  else .ok []

/-- `BuildErrorAnswer`. -/
def buildErrorAnswer (p : Packet) (cfg : Settings) (resultCode : UInt32)
    (failed : List AVP) (protocolError : Bool) : Except String Message := do
  let request := p.message
  let s := p.dictionary
  let answer ← addFields (startErrorAnswer drawn request protocolError)
    (errorFields cfg resultCode protocolError)
  let answer := answer.addAVPs (failedAVPs failed)
  let capabilities ← errorCapabilities request cfg protocolError
  let answer ← addFields answer capabilities
  let copied := copySessionID s (request.avps.filterMap id) true answer
  finishErrorAnswer s request protocolError copied.1 copied.2

/-! ## Its header -/

theorem startErrorAnswer_answers (protocolError : Bool) :
    Answers (startErrorAnswer drawn request protocolError).header request.header := by
  have hstart := request.answer_answers drawn 0
  refine ⟨?_, hstart.commandCode, hstart.hopByHopID, hstart.endToEndID⟩
  obtain ⟨hplain, herror⟩ := Message.answerFlags_not_request request.header.commandFlags
  unfold Header.isRequest startErrorAnswer
  dsimp only
  split
  · rw [herror]
    rfl
  split
  · rfl
  · rw [hplain]
    rfl

theorem copySessionID_header (s : Snapshot) (avps : List AVP) (missing : Bool) (m : Message) :
    m.SameHeader (copySessionID s avps missing m).2 := by
  induction avps generalizing missing with
  | nil => exact .refl m
  | cons a rest ih =>
    unfold copySessionID
    split
    · exact ih missing
    split
    · split
      · exact .refl m
      · split
        · exact ih false
        · exact ⟨rfl, rfl, rfl, rfl, rfl⟩
    · exact .refl m

theorem addMissing_header {s : Snapshot} {request : Message} {missing : Bool} {rounds : Nat}
    {m m' : Message} (h : addMissing s request missing rounds m = .ok m') : m.SameHeader m' := by
  induction rounds generalizing m with
  | zero => cases h
  | succ rounds ih =>
    unfold addMissing at h
    split at h
    · cases h
      exact .refl _
    split at h
    · exact (Message.addItem_header _ _).trans (ih h)
    · cases h

theorem finishErrorAnswer_header {s : Snapshot} {request : Message} {protocolError missing : Bool}
    {m m' : Message} (h : finishErrorAnswer s request protocolError missing m = .ok m') :
    m.SameHeader m' := by
  obtain ⟨filled, hfilled, h⟩ := bind_eq_ok.1 h
  split at h
  · cases h
    unfold fillErrorAnswer at hfilled
    split at hfilled
    · cases hfilled
      exact .refl _
    · exact addMissing_header hfilled
  · cases h

theorem buildErrorAnswer_answers {drawn : Drawn} {p : Packet} {cfg : Settings} {code : UInt32}
    {failed : List AVP} {protocolError : Bool} {m : Message}
    (h : buildErrorAnswer drawn p cfg code failed protocolError = .ok m) :
    Answers m.header p.header := by
  obtain ⟨a1, h1, h⟩ := bind_eq_ok.1 h
  obtain ⟨fields, -, h⟩ := bind_eq_ok.1 h
  obtain ⟨a2, h2, h⟩ := bind_eq_ok.1 h
  have hbuilt : (startErrorAnswer drawn p.message protocolError).SameHeader a2 :=
    (addFields_ok h1).header.trans ((adds_addAVPs _ _).header.trans (addFields_ok h2).header)
  have hcopied := copySessionID_header p.dictionary (p.message.avps.filterMap id) true a2
  exact (hbuilt.trans (hcopied.trans (finishErrorAnswer_header h))).answers
    (startErrorAnswer_answers drawn p.message protocolError)

end Diameter.Base
