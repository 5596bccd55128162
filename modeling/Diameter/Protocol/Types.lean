import Diameter.Protocol.Base
import Diameter.Watchdog.Machine

/-!
# Protocol.Types

The inputs a connection core is given and the effects it asks its executor for.

Times and durations are nanoseconds. A token is a positive number; zero means that there is none.
-/

namespace Diameter.Protocol

open Datatype Dict

structure Connection where
  instanceID : Nat := 0
  generation : Nat := 0
deriving DecidableEq, Repr, Inhabited

inductive Role where
  | responder | initiator
deriving DecidableEq, Repr

inductive Phase where
  | preCER | waitCEA | opened | closing | closed | retired
deriving DecidableEq, Repr

/-- `phase >= Closed`. -/
def Phase.ended : Phase → Bool
  | .closed | .retired => true
  | _ => false

structure Config where
  validateRequests : Bool := false
  rejectUnknownMandatoryAVPs : Bool := false
  connection : Connection
  role : Role
  dictionary : Snapshot := {}
  localSettings : Settings := {}
  /-- The host a peer must present; empty for any. -/
  expectedHost : Bytes := []
  tls : Bool := false
  queueWrites : Bool := false
  hooks : Bool := false
  handshakeTimeout : Int := 0
  cerInterval : Int := 0
  closingTimeout : Int := 0
  maxRetransmits : Nat := 0
  watchdog : Bool := false
  watchdogInterval : Int := 0
  recovery : Bool := false
  candidateDeadlineOwnedByPeer : Bool := false
  ignoreBoundHeaderlessInput : Bool := false
  readerOwnsMessageErrorClosure : Bool := false
  closeCEROnInvalidHeaderBitsOnly : Bool := false
  localDisconnectInClosing : Bool := false
  skipDWRGrammarAfterHook : Bool := false
  keepCERDeadlineAfterTransportLoss : Bool := false

/-- A lease in the identifier space the core shares with its application. -/
structure Reservation where
  token : Nat := 0
  hop : UInt32 := 0
  endToEnd : UInt32 := 0
deriving DecidableEq, Repr, Inhabited

inductive InputKind where
  | start | receive | continue | activate | rejectCandidate | releaseAdmission | reserveResult
  | writeResult | frozen | timerExpired | disconnect | unhandled | abort | transportLost | retire
  | stopSupervision | beginCER
deriving DecidableEq, Repr

inductive WriteStage where
  | queue | written | skipped
deriving DecidableEq, Repr, Inhabited

inductive TimerKind where
  | handshake | retry | watchdog | closing | receiverDisconnect
deriving DecidableEq, Repr, Inhabited

def TimerKind.all : List TimerKind := [.handshake, .retry, .watchdog, .closing, .receiverDisconnect]

/-- A `*diam.Message` from outside: nil, without a header, or complete. -/
inductive Incoming where
  | absent
  | headerless
  | packet (p : Packet)

def Incoming.isNil : Incoming → Bool
  | .absent => true
  | _ => false

/-- `metadata`: the header, if there is one. -/
def Incoming.metadata : Incoming → Option Header
  | .packet p => some p.header
  | _ => none

structure Input where
  kind : InputKind
  connection : Connection
  deferCER : Bool := false
  recovery : Bool := false
  refreshLocalAddresses : Bool := false
  localAddresses : List Address := []
  time : Int := 0
  sequence : Nat := 0
  afterReceive : Nat := 0
  token : Nat := 0
  message : Incoming := .absent
  error : Option MessageError := none
  /-- A message-error callback of the frontend, which may lack a description. -/
  errorInput : Bool := false
  err : Option ProtocolError := none
  reservation : Reservation := {}
  stage : WriteStage := .queue
  bytes : Int := 0
  expectedBytes : Int := 0
  replyCode : UInt32 := 0
  resultCode : UInt32 := 0
  cause : UInt32 := 0
  timer : TimerKind := .handshake
  interval : Int := 0
  timeout : Int := 0
  inFlight : Bool := false
  transportClosed : Bool := false
  hasHandler : Bool := false
  unhandled : Bool := false
  ownership : Nat := 0

/-- The zero `Input`, as the source clears a saved one. -/
def Input.cleared : Input := { kind := .start, connection := {} }

inductive EffectKind where
  | reserveIDs | releaseIDs | send | publish | validatedCER | runHook | handshakeReady | admitMessage
  | hold | discard | notify | armTimer | stopTimer | freezeAdmission | close | cancelSend
  | completeRequest | peerDisconnectDecision
deriving DecidableEq, Repr, Inhabited

inductive NoticeKind where
  | protocol | handshake | disconnect | peerDisconnect | watchdog
deriving DecidableEq, Repr, Inhabited

inductive Outcome where
  | completed | timedOut | connectionClosed | cancelled | notOpen | alreadyPending
deriving DecidableEq, Repr, Inhabited

inductive ReplyStatus where
  | none | queued | written | failed
deriving DecidableEq, Repr, Inhabited

/-- `HandshakeResult`. -/
structure HandshakeResult where
  err : Option ProtocolError := none
  cea : Option CEA := none

structure Notification where
  causeError : Option ProtocolError := none
  replyError : Option ProtocolError := none
  diagnostic : String := ""
  kind : NoticeKind := .protocol
  protocol : Option ErrorKind := none
  resultCode : UInt32 := 0
  replyCode : UInt32 := 0
  cause : UInt32 := 0
  reply : ReplyStatus := .none
  closing : Bool := false
  outcome : Outcome := .completed
  watchdog : Option Watchdog.State := none
  message : Option Header := none
  handshake : HandshakeResult := {}

structure TimerSnapshot where
  token : Nat := 0
  deadline : Int := 0
deriving DecidableEq, Repr, Inhabited

structure Capabilities where
  localSettings : Settings := {}
  cer : Option CER := none
  cea : Option CEA := none
  localApplications : List UInt32 := []
  remoteApplications : List UInt32 := []
  commonApplications : List UInt32 := []
  parsedApplications : List UInt32 := []
  host : Bytes := []
  realm : Bytes := []
  tls : Bool := false

structure ControlSnapshot where
  command : BaseCommand
  reservation : Reservation
  logical : Bool
  answered : Bool
  writers : Int

structure Snapshot where
  phase : Phase
  connection : Connection
  role : Role
  candidate : Nat
  admission : Nat
  ready : Bool
  frozen : Bool
  capabilities : Capabilities
  wd : Watchdog.Machine
  timers : TimerKind → TimerSnapshot
  controls : List ControlSnapshot
  peerCause : UInt32
  peerDPR : Bool
  handshake : HandshakeResult

/-- An obligation of the executor; which fields mean something depends on `kind`. -/
structure Effect where
  kind : EffectKind
  releaseDispatch : Bool := false
  connection : Connection := {}
  token : Nat := 0
  command : Option BaseCommand := none
  reservation : Reservation := {}
  message : Option Packet := none
  answerHook : Bool := false
  required : Bool := false
  closeAfter : Bool := false
  stage : WriteStage := .queue
  notification : Notification := {}
  timer : TimerKind := .handshake
  deadline : Int := 0
  snapshot : Option Snapshot := none
  input : Option Input := none
  ownership : Nat := 0
  cause : UInt32 := 0

end Diameter.Protocol
