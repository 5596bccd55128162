import Diameter.Lib.GoMap
import Diameter.Protocol.Types
import Mathlib.Logic.Function.Basic

/-!
# Protocol.Core

The state of a connection core and the operations its handlers are made of: tokens, timers,
identifier leases, writes, and termination.

The source passes a slice of effects along and appends to it; here a `Batch` is a core together
with the effects emitted so far, and every operation maps a batch to a batch. A control exchange
is referred to by a pointer in the source, from the table of current exchanges and from the
operations that write it; here it has an index into `heap`, which only grows.
-/

namespace Diameter.Protocol

open Lib

/-- A request of the core's own, and who still needs its identifiers. -/
structure Control where
  command : BaseCommand
  reservation : Reservation
  header : Option Header := none
  frame : Option Packet := none
  logical : Bool := true
  answered : Bool := false
  released : Bool := false
  written : Bool := false
  writers : Int := 0
  attempts : Nat := 0

/-- A selected write that has no final result yet. -/
structure Operation where
  control : Option Nat := none
  message : Option Header := none
  length : Int := 0
  required : Bool := false
  closeAfter : Bool := false
  handshake : Bool := false
  reported : Bool := false
  queued : Bool := false
  notice : Option Notification := none

/-- A request that waits for its hook. `pauseHook` only saves messages with a header: `packet` is
the message of `input`. -/
structure Continuation where
  input : Input
  packet : Packet
  repeatedCER : Bool

structure Core where
  cfg : Config
  phase : Phase := .preCER
  serial : Nat := 0
  started : Bool := false
  ready : Bool := false
  terminal : Bool := false
  frozen : Bool := false
  cerDeferred : Bool := false
  handshakePending : Bool := false
  callbackReady : Bool := false
  continuations : GoMap Nat Continuation := ∅
  closeOutcome : Outcome := .connectionClosed
  handshake : HandshakeResult := {}
  wd : Watchdog.Machine := {}
  wdNext : Option Watchdog.Machine := none
  receivedSequence : Nat := 0
  deferredExpiry : Option Input := none
  closeLocal : Bool := false
  disconnectWaiting : Bool := false
  peerDisconnectSelected : Bool := false
  peerCause : UInt32 := 0
  peerDPR : Bool := false
  disconnectToken : Nat := 0
  fenceToken : Nat := 0
  closeRequest : Input := .cleared
  closeCause : UInt32 := 0
  earlyDPA : Option Input := none
  lateCERToken : Nat := 0
  lateCER : Input := .cleared
  passiveResponder : Bool := false
  passiveCER : Bool := false
  passiveWatchdog : Bool := false
  passivePresent : Bool := false
  candidateToken : Nat := 0
  admission : Nat := 0
  caps : Capabilities := {}
  cer : Option Packet := none
  completedCEA : Option Header := none
  hookToken : Nat := 0
  timers : TimerKind → TimerSnapshot := fun _ => {}
  reservations : GoMap Nat BaseCommand := ∅
  controls : BaseCommand → Option Nat := fun _ => none
  heap : List Control := []
  operations : GoMap Nat Operation := ∅

namespace Core

/-- The exchange behind a pointer. -/
def control? (c : Core) (r : Nat) : Option Control := c.heap[r]?

/-- The current exchange of a command. -/
def current (c : Core) (cmd : BaseCommand) : Option Control := (c.controls cmd).bind c.control?

def controlSnapshot (c : Core) (cmd : BaseCommand) : Option ControlSnapshot :=
  (c.current cmd).map fun k => ⟨cmd, k.reservation, k.logical, k.answered, k.writers⟩

/-- `Snapshot`. -/
def snapshot (c : Core) : Snapshot where
  phase := c.phase
  connection := c.cfg.connection
  role := c.cfg.role
  candidate := c.candidateToken
  admission := c.admission
  ready := c.ready
  frozen := c.frozen
  capabilities := c.caps
  wd := c.wd
  timers := c.timers
  controls := BaseCommand.all.filterMap c.controlSnapshot
  peerCause := c.peerCause
  peerDPR := c.peerDPR
  handshake := c.handshake

/-- `notify`: the effect that reports `n`. -/
def notify (c : Core) (n : Notification) : Effect :=
  { kind := .notify
    notification := if n.kind = .handshake then { n with handshake := c.handshake } else n }

/-- The state behind `r.field = ...`. -/
def setControl (c : Core) (r : Nat) (f : Control → Control) : Core :=
  { c with heap := c.heap.modify r f }

def setOperation (c : Core) (token : Nat) (op : Operation) : Core :=
  { c with operations := c.operations.insert token op }

end Core

/-! ## Batches -/

structure Batch where
  core : Core
  effects : List Effect := []

namespace Batch

variable (b : Batch)

def update (f : Core → Core) : Batch := { b with core := f b.core }

/-- Appends an effect of this connection. -/
def emit (e : Effect) : Batch :=
  { b with effects := b.effects ++ [{ e with connection := b.core.cfg.connection }] }

/-- `es[len(es)-1].Notification.… = …`. -/
def amend (f : Notification → Notification) : Batch :=
  { b with
    effects := b.effects.modify (b.effects.length - 1) fun e =>
      { e with notification := f e.notification } }

/-- `out[start].ReleaseDispatch = true`, when anything was emitted since. -/
def markRelease (start : Nat) : Batch :=
  { b with effects := b.effects.modify start fun e => { e with releaseDispatch := true } }

/-! ### Timers -/

def arm (k : TimerKind) (time d : Int) : Batch :=
  if d ≤ 0 then b
  else
    let t := b.core.serial + 1
    (b.update fun c => { c with
        serial := t, timers := Function.update c.timers k ⟨t, time + d⟩ }).emit
      { kind := .armTimer, timer := k, token := t, deadline := time + d }

def stop (k : TimerKind) : Batch :=
  if (b.core.timers k).token = 0 then b
  else
    (b.update fun c => { c with timers := Function.update c.timers k {} }).emit
      { kind := .stopTimer, timer := k, token := (b.core.timers k).token }

/-! ### Identifier leases and writes -/

def reserve (cmd : BaseCommand) : Batch :=
  let t := b.core.serial + 1
  (b.update fun c => { c with serial := t, reservations := c.reservations.insert t cmd }).emit
    { kind := .reserveIDs, command := some cmd, token := t }

/-- What a write is for; `source` is the request a required answer belongs to. -/
structure SendOptions where
  control : Option Nat := none
  required : Bool := false
  closeAfter : Bool := false
  handshake : Bool := false
  notice : Option Notification := none
  source : Option Packet := none
  answerHook : Bool := false

/-- The message whose metadata a failed write reports. -/
def SendOptions.metadata (o : SendOptions) : Option Header :=
  match o.source, o.notice with
  | some p, _ => some p.header
  | none, some n => n.message
  | none, none => none

def send (m : Packet) (o : SendOptions) : Batch :=
  let t := b.core.serial + 1
  let op : Operation :=
    { control := o.control, message := o.metadata, length := m.message.len,
      required := o.required, closeAfter := o.closeAfter, handshake := o.handshake,
      notice := o.notice }
  let b := b.update fun c => { c with
    serial := t
    operations := c.operations.insert t op
    heap := match o.control with
      | some r => c.heap.modify r fun k =>
          { k with writers := k.writers + 1, attempts := k.attempts + 1 }
      | none => c.heap }
  b.emit
    { kind := .send, token := t, message := some m, notification := o.notice.getD {},
      required := o.required, closeAfter := o.closeAfter, answerHook := o.answerHook,
      stage := if b.core.cfg.queueWrites then .queue else .written }

/-- Gives the identifiers of an exchange back once nothing needs them. -/
def release (r : Nat) : Batch :=
  match b.core.control? r with
  | none => b
  | some k =>
    if k.logical || k.writers != 0 || k.released then b
    else
      (b.update fun c => { c.setControl r (fun k => { k with released := true }) with
        controls := if c.controls k.command = some r
          then Function.update c.controls k.command none else c.controls }).emit
        { kind := .releaseIDs, reservation := k.reservation }

/-- `r.logical = false` and the release that may follow. -/
def abandon (r : Nat) : Batch :=
  (b.update fun c => c.setControl r fun k => { k with logical := false }).release r

def settle (r : Nat) : Batch :=
  (b.update fun c => c.setControl r fun k =>
    { k with logical := false, answered := true }).release r

/-! ### Termination -/

def stopTimers : Batch := TimerKind.all.foldl stop b

def abandonControls : Batch :=
  BaseCommand.all.foldl (fun b cmd =>
    match b.core.controls cmd with
    | some r => b.abandon r
    | none => b) b

/-- The outstanding writes are cancelled in the order of their tokens. -/
def cancelSends : Batch :=
  (b.core.operations.keys.mergeSort (fun s t => decide (s ≤ t))).foldl
    (fun b t => b.emit { kind := .cancelSend, token := t }) b

def completeHandshake : Batch :=
  if b.core.handshakePending then
    (b.update fun c => { c with handshakePending := false }).emit
      (b.core.notify { kind := .handshake, outcome := b.core.closeOutcome })
  else b

def completeDisconnect : Batch :=
  if b.core.disconnectWaiting then
    (b.update fun c => { c with disconnectWaiting := false }).emit
      { b.core.notify { kind := .disconnect, outcome := b.core.closeOutcome } with
        token := b.core.disconnectToken }
  else b

/-- The fields `terminate` resets before it disposes of timers, leases and writes. -/
def shutDown (c : Core) (phase : Phase) : Core :=
  { c with
    phase := phase, earlyDPA := none, candidateToken := 0, hookToken := 0, admission := 0,
    ready := false, callbackReady := false, continuations := ∅, cer := none, wdNext := none,
    deferredExpiry := none
    wd := if c.cfg.watchdog && c.wd.state != .initial
      then { (c.wd.step .connectionDown).1 with pending := false } else c.wd }

def terminate (phase : Phase) : Batch :=
  let b := (b.update fun c => shutDown c phase).stopTimers.abandonControls.cancelSends
  let b := if phase = .closed then b.emit { kind := .close } else b
  b.completeHandshake.completeDisconnect

/-! ### Dispositions -/

def notify (n : Notification) : Batch := b.emit (b.core.notify n)

def discard (i : Input) (kind : Option ErrorKind) (code : UInt32) : Batch :=
  let b := b.emit { kind := .discard }
  match kind with
  | none => b
  | some kind => b.notify
      { protocol := some kind, resultCode := code, message := i.message.metadata,
        causeError := i.error.map ProtocolError.message }

def discardCause (i : Input) (kind : ErrorKind) (err : ProtocolError) : Batch :=
  (b.discard i (some kind) 0).amend fun n => { n with causeError := some err }

/-- The saved CER of a hook that outlives the handshake deadline. -/
def keepLateCER (c : Core) (kind : ErrorKind) : Core :=
  if kind = .handshakeTimeout && c.hookToken != 0 then
    match c.continuations.lookup c.hookToken with
    | some k =>
      if k.packet.header.commandCode = BaseCommand.capabilitiesExchange.code then
        { c with lateCERToken := c.hookToken, lateCER := k.input }
      else c
    | none => c
  else c

def isTimeout : ErrorKind → Bool
  | .handshakeTimeout | .disconnectTimeout | .watchdogTimeout => true
  | _ => false

/-- What `fail` notes before it ends the connection. -/
def failing (c : Core) (kind : ErrorKind) : Core :=
  { keepLateCER c kind with
    closeOutcome := if isTimeout kind then .timedOut else c.closeOutcome }

/-- Whether the deadline of a `Disconnect` of this side has passed. -/
def localTimeout (c : Core) (i : Input) (kind : ErrorKind) : Bool :=
  kind = .disconnectTimeout && (c.closeLocal || i.timer = .receiverDisconnect)

def failureNotice (c : Core) (i : Input) (kind : ErrorKind) (code : UInt32) : Notification :=
  { protocol := some kind, closing := true, message := i.message.metadata
    resultCode := if kind = .replyFailure then 0 else code
    replyCode := if kind = .replyFailure then code else 0
    reply := if kind = .replyFailure then .failed else .none
    causeError := match i.error with
      | some e => some (.message e)
      | none => i.err
    diagnostic := if localTimeout c i kind then "local-disconnect" else "" }

def fail (i : Input) (kind : ErrorKind) (code : UInt32) : Batch :=
  let dpr := if localTimeout b.core i kind
    then (b.core.current .disconnectPeer).bind Control.frame else none
  let n := failureNotice b.core i kind code
  let b := (b.update fun c => failing c kind).terminate .closed
  b.emit { b.core.notify n with message := dpr }

/-- A required reply that could not be built; `p` is the request. -/
def failedRejection (p : Packet) (kind : ErrorKind) (code : UInt32) (err : ProtocolError) : Batch :=
  let initialCER := b.core.phase = .preCER &&
    p.header.commandCode == BaseCommand.capabilitiesExchange.code
  (b.terminate .closed).notify
    { protocol := some kind, resultCode := code, reply := .failed, replyCode := code,
      closing := true, message := some p.header, replyError := some err,
      diagnostic := if initialCER then "reject-cer" else "" }

end Batch
end Diameter.Protocol
