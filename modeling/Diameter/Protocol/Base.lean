import Diameter.Validation.Message

/-!
# Protocol.Base

Package `base` as the connection core uses it: the header rules of the three connection-level
commands, the checks of a DPR and a DPA, and, as the class `BasePackage`, the validators, parsers
and builders whose work is on message bodies.

The core's results hold for every implementation of that class. What they need of the builders is
in the class itself: an answer carries the command code and the identifiers of its request, and
only requests are rejected.
-/

namespace Diameter

open Datatype Dict

/-! ## Commands, codes and errors -/

/-- The connection-level commands. -/
inductive BaseCommand where
  | capabilitiesExchange | deviceWatchdog | disconnectPeer
deriving DecidableEq, Repr

def BaseCommand.code : BaseCommand → UInt32
  | .capabilitiesExchange => 257
  | .deviceWatchdog => 280
  | .disconnectPeer => 282

/-- In the order the core walks over its exchanges. -/
def BaseCommand.all : List BaseCommand := [.capabilitiesExchange, .deviceWatchdog, .disconnectPeer]

def successCode : UInt32 := 2001
def applicationUnsupported : UInt32 := 3007
def noCommonApplicationCode : UInt32 := 5010
def unableToComply : UInt32 := 5012
def noCommonSecurityCode : UInt32 := 5017

def originHostCode : UInt32 := 264
def originRealmCode : UInt32 := 296
def disconnectCauseCode : UInt32 := 273

/-- The Application-Id of relays. -/
def relayApplication : UInt32 := 0xffffffff

/-- `ProtocolErrorKind`. -/
inductive ErrorKind where
  | replyFailure | malformedMessage | invalidHeader | unsupportedAVP | invalidRequest
  | unsupportedCommand | unsupportedApplication | invalidDWR | invalidDWA | rejectedDWA
  | invalidDPR | invalidDPA | unexpectedMessage | handshakeState | cerRejected
  | handshakeTimeout | ceaRejected | peerRejected | disconnectTimeout | watchdogTimeout
deriving DecidableEq, Repr

/-- The errors the core tells apart, and all others as their text. -/
inductive ProtocolError where
  | message (e : MessageError)
  | failedResultCode (resultCode : UInt32)
  | noCommonSecurity
  | noCommonApplication
  | unexpectedPeer
  | shortWrite
  | other (text : String)

/-- A message with the dictionary it was decoded or built with. -/
structure Packet where
  message : Message
  dictionary : Snapshot

def Packet.header (p : Packet) : Header := p.message.header

def Header.isBase (h : Header) (cmd : BaseCommand) : Bool :=
  h.applicationID == 0 && h.commandCode == cmd.code

/-- A request of a base command. -/
structure Header.Asks (h : Header) (cmd : BaseCommand) : Prop where
  isRequest : h.isRequest = true
  isBase : h.isBase cmd = true

/-- `IsCommand`. -/
def Header.isCommand (h : Header) : Bool := BaseCommand.all.any fun cmd => h.commandCode == cmd.code

/-- `FatalHeaderError`: a frame lost before its body was read. -/
def fatalHeaderError : Option MessageError → Bool
  | some e => e.fatal && (e.resultCode == unsupportedVersion ||
      e.resultCode == invalidMessageLength)
  | none => false

/-- `ValidateHeader`. -/
def validateHeader (h : Header) : Option MessageError :=
  let flags := h.commandFlags
  if !h.isCommand then none
  else if h.applicationID != 0 then
    some ⟨invalidHDRBits, none, false, "base command " ++ toString h.commandCode.toNat ++
      " requires Application-Id zero (RFC 6733 §§2.5, 7.1.3)"⟩
  else if flags &&& proxiableFlag != 0 && flags &&& errorFlag == 0 ||
      flags &&& requestFlag != 0 && flags &&& errorFlag != 0 ||
      flags &&& requestFlag == 0 && flags &&& retransmittedFlag != 0 then
    some ⟨invalidHDRBits, none, false, "invalid base command flags (RFC 6733 §§3, 3.2)"⟩
  else none

/-- `AnswerErrorKind`. -/
def answerErrorKind (h : Header) : ErrorKind :=
  if h.commandCode = BaseCommand.deviceWatchdog.code then .invalidDWA
  else if h.commandCode = BaseCommand.disconnectPeer.code then .invalidDPA
  else .ceaRejected

/-- `SupportsApplication`. -/
def supportsApplication (applications : List UInt32) (appID : UInt32) : Bool :=
  appID == 0 || applications.contains appID || applications.contains relayApplication

/-! ## Disconnect messages -/

/-- The AVPs of the IETF namespace with this code, in order. -/
def ietfAVPs (m : Message) (code : UInt32) : List AVP :=
  (m.avps.filterMap id).filter fun a => a.vendorID == 0 && a.code == code

def AVP.isIdentity (a : AVP) : Bool :=
  match a.data with
  | .value (.diameterIdentity s) => !s.isEmpty
  | _ => false

/-- The values of a DPR or DPA: a scan that stops at the first AVP with bad data, and the last
value read. `field` is the third required AVP, `read` its data. -/
def scanDisconnect (name fieldName : String) (field : UInt32) (read : AVP → Option UInt32) :
    List AVP → UInt32 → Except String UInt32
  | [], value => .ok value
  | a :: rest, value =>
    if a.vendorID ≠ 0 then scanDisconnect name fieldName field read rest value
    else if a.code = originHostCode then
      if a.isIdentity then scanDisconnect name fieldName field read rest value
      else .error ("invalid " ++ name ++ " Origin-Host")
    else if a.code = originRealmCode then
      if a.isIdentity then scanDisconnect name fieldName field read rest value
      else .error ("invalid " ++ name ++ " Origin-Realm")
    else if a.code = field then
      match read a with
      | some v => scanDisconnect name fieldName field read rest v
      | none => .error ("invalid " ++ name ++ " " ++ fieldName)
    else scanDisconnect name fieldName field read rest value

/-- The checks `ValidateDPR` and `ValidateDPA` share. -/
def validateDisconnect (name fieldName required : String) (request : Bool) (field : UInt32)
    (read : AVP → Option UInt32) (m : Message) : Except String UInt32 :=
  if !m.header.isBase .disconnectPeer || m.header.isRequest != request then
    .error ("invalid " ++ name ++ " header")
  else
    match scanDisconnect name fieldName field read (m.avps.filterMap id) 0 with
    | .error e => .error e
    | .ok value =>
      if [originHostCode, originRealmCode, field].all fun code => (ietfAVPs m code).length == 1 then
        .ok value
      else .error (name ++ " requires one " ++ required)

def AVP.disconnectCause (a : AVP) : Option UInt32 :=
  match a.data with
  | .value (.enumerated n) => if 0 ≤ n ∧ n ≤ 2 then some n.toUInt32 else none
  | _ => none

/-- `ValidateDPR`: the Disconnect-Cause. -/
def validateDPR : Message → Except String UInt32 :=
  validateDisconnect "DPR" "Disconnect-Cause" "Origin-Host, Origin-Realm and Disconnect-Cause" true
    disconnectCauseCode AVP.disconnectCause

/-- `ValidateDPA`: the Result-Code. -/
def validateDPA : Message → Except String UInt32 :=
  validateDisconnect "DPA" "Result-Code" "Result-Code, Origin-Host and Origin-Realm" false
    resultCodeCode AVP.unsigned32?

/-! ## Local settings and parsed messages -/

structure LocalApplication where
  id : UInt32
  appType : String := ""
  vendor : UInt32 := 0
  supportedVendors : List UInt32 := []

/-- `Settings`. A list of AVPs that was not configured is `none`. -/
structure Settings where
  originHost : Bytes := []
  originRealm : Bytes := []
  vendorID : UInt32 := 0
  productName : Bytes := []
  originStateID : UInt32 := 0
  firmwareRevision : UInt32 := 0
  hostIPAddresses : List Address := []
  supportedVendorID : Option (List (Option AVP)) := none
  acctApplicationID : Option (List (Option AVP)) := none
  authApplicationID : Option (List (Option AVP)) := none
  vendorSpecificApplicationID : Option (List (Option AVP)) := none
  inbandSecurityID : UInt32 := 0
  applications : List LocalApplication := []

structure CER where
  hostIPAddresses : List Address := []
  originHost : Bytes := []
  originRealm : Bytes := []
  originStateID : Option AVP := none
  inbandSecurityID : Option AVP := none
  acctApplicationID : List AVP := []
  authApplicationID : List AVP := []
  vendorSpecificApplicationID : List AVP := []
  applications : List UInt32 := []

structure CEA where
  hostIPAddresses : List Address := []
  resultCode : UInt32 := 0
  originHost : Bytes := []
  originRealm : Bytes := []
  originStateID : UInt32 := 0
  vendorID : UInt32 := 0
  productName : Bytes := []
  supportedVendorID : List AVP := []
  acctApplicationID : List AVP := []
  authApplicationID : List AVP := []
  vendorSpecificApplicationID : List AVP := []
  failedAVP : List AVP := []
  errorMessage : Bytes := []
  applications : List UInt32 := []

structure DWR where
  originHost : Bytes := []
  originRealm : Bytes := []
  originStateID : Option AVP := none

structure DWA where
  resultCode : UInt32 := 0
  originStateID : UInt32 := 0

/-- `ParseOptions` without the role, which the two parsers fix. -/
structure ParseOptions where
  tls : Bool := false
  dictionary : Snapshot
  localApplications : List UInt32 := []

/-- `RequestError`: a decision to reject a request. -/
structure RequestError where
  kind : ErrorKind
  code : UInt32
  failed : List AVP := []

/-- `code >= 3000 && code < 4000`. -/
def protocolErrorCode (code : UInt32) : Bool := decide (3000 ≤ code ∧ code < 4000)

/-- An answer to a request: R clear, the request's command code and identifiers. -/
structure Answers (answer request : Header) : Prop where
  isAnswer : answer.isRequest = false
  commandCode : answer.commandCode = request.commandCode
  hopByHopID : answer.hopByHopID = request.hopByHopID
  endToEndID : answer.endToEndID = request.endToEndID

/-- The functions of package `base` that read or build message bodies. A parser that fails still
returns what it had read where the core looks at it. -/
class BasePackage where
  validateCapabilities : Settings → Option ProtocolError
  advertisedApplicationIDs : Settings → List UInt32
  validateMessage : Packet → Option MessageError
  validateRequest : Packet → List UInt32 → (validate rejectUnknown : Bool) →
    Option MessageError → Option RequestError
  parseCER : Packet → ParseOptions → Except ProtocolError CER
  parseCEA : Packet → ParseOptions → CEA × Option ProtocolError
  parseDWR : Packet → DWR × Option ProtocolError
  parseDWA : Packet → Except ProtocolError DWA
  buildCER : Snapshot → Settings → Except ProtocolError Packet
  buildDWR : Snapshot → Settings → UInt32 → Except ProtocolError Packet
  buildDPR : Snapshot → Settings → UInt32 → Except ProtocolError Packet
  buildCEA : Packet → Settings → UInt32 → Except ProtocolError Packet
  buildDWA : Packet → Settings → Except ProtocolError Packet
  buildDPAResult : Packet → Settings → UInt32 → Except ProtocolError Packet
  buildErrorAnswer : Packet → Settings → UInt32 → List AVP → Bool → Except ProtocolError Packet
  buildCER_asks : ∀ {s cfg m}, buildCER s cfg = .ok m → m.header.Asks .capabilitiesExchange
  buildDWR_asks : ∀ {s cfg osid m}, buildDWR s cfg osid = .ok m → m.header.Asks .deviceWatchdog
  buildDPR_asks : ∀ {s cfg cause m},
    buildDPR s cfg cause = .ok m → m.header.Asks .disconnectPeer
  validateRequest_answer : ∀ {p apps validate rejectUnknown me}, p.header.isRequest = false →
    validateRequest p apps validate rejectUnknown me = none
  buildCEA_answers : ∀ {p s code a}, buildCEA p s code = .ok a → Answers a.header p.header
  buildDWA_answers : ∀ {p s a}, buildDWA p s = .ok a → Answers a.header p.header
  buildDPAResult_answers : ∀ {p s code a},
    buildDPAResult p s code = .ok a → Answers a.header p.header
  buildErrorAnswer_answers : ∀ {p s code failed e a},
    buildErrorAnswer p s code failed e = .ok a → Answers a.header p.header

end Diameter
