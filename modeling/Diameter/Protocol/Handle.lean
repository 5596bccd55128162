import Diameter.Protocol.Handlers

/-!
# Protocol.Handle

The results a core is given for its reservations, writes and timers (`control.go`), the dispatch of
an input (`HandleInto`), and the constructors `New` and `NewAdmitted`.

A run is a sequence of calls, each with a batch of its own. `Event` adds to the inputs the one
other call that changes a core, `RefreshAdmission`.
-/

namespace Diameter.Protocol

open Lib BasePackage

variable [BasePackage]

/-! ## Reservations -/

def Core.buildControl (c : Core) : BaseCommand → Except ProtocolError Packet
  | .capabilitiesExchange => buildCER c.cfg.dictionary c.cfg.localSettings
  | .deviceWatchdog => buildDWR c.cfg.dictionary c.cfg.localSettings
      c.cfg.localSettings.originStateID
  | .disconnectPeer => buildDPR c.cfg.dictionary c.cfg.localSettings c.closeCause

/-- A new exchange, which becomes the current one of its command. -/
def Core.addControl (c : Core) (k : Control) : Core :=
  { c with heap := c.heap ++ [k]
           controls := Function.update c.controls k.command (some c.heap.length) }

def Core.noteHandshake (c : Core) (cmd : BaseCommand) (err : ProtocolError) : Core :=
  if cmd = .capabilitiesExchange then { c with handshake := ⟨some err, none⟩ } else c

def Packet.withIDs (p : Packet) (r : Reservation) : Packet :=
  { p with message := { p.message with
      header := { p.header with hopByHopID := r.hop, endToEndID := r.endToEnd } } }

namespace Batch

variable (b : Batch) (i : Input)

/-- A reservation that was granted to a core which can still use it. -/
def openExchange (cmd : BaseCommand) (lease : Reservation) : Batch :=
  match b.core.buildControl cmd with
  | .error err =>
    (b.update fun c => (c.addControl { command := cmd, reservation := lease }).noteHandshake
      cmd err).terminate .closed
  | .ok m =>
    let m := Packet.withIDs m lease
    (b.update fun c => c.addControl
      { command := cmd, reservation := lease, header := some m.header,
        frame := some m.copy }).send m { control := some b.core.heap.length }

def reserved : Batch :=
  match b.core.reservations.lookup i.token with
  | none => b
  | some cmd =>
    let b := b.update fun c => { c with reservations := c.reservations.erase i.token }
    match i.err with
    | some err =>
      if b.core.phase.ended then b
      else (b.update fun c => c.noteHandshake cmd err).terminate .closed
    | none =>
      if b.core.phase.ended || cmd = .deviceWatchdog && b.core.phase ≠ .opened then
        b.emit { kind := .releaseIDs, reservation := i.reservation }
      else b.openExchange cmd i.reservation

/-! ## Write results -/

/-- The error of a write result: a short or skipped write is one. -/
def writeError (op : Operation) : Option ProtocolError :=
  match i.err, i.stage with
  | some err, _ => some err
  | none, .queue => none
  | none, .skipped => some .shortWrite
  | none, .written =>
    if i.bytes = (if i.expectedBytes = 0 then op.length else i.expectedBytes) then none
    else some .shortWrite

/-- Whether a result is the last one of its write. -/
def isFinal : Bool := i.stage ≠ .queue || i.err.isSome

/-- The operation is done, and its exchange has one writer less. -/
def finishWrite (token : Nat) (control : Option Nat) (written : Bool) : Batch :=
  let b := b.update fun c => { c with operations := c.operations.erase token }
  match control with
  | none => b
  | some r => (b.update fun c => c.setControl r fun k =>
      { k with writers := k.writers - 1, written := k.written || written }).release r

def failWrite (op : Operation) (err : ProtocolError) : Batch :=
  let cer := (op.control.bind b.core.control?).any fun k => k.command = .capabilitiesExchange
  let b := if b.core.cfg.keepCERDeadlineAfterTransportLoss && b.core.phase = .waitCEA && cer
    then b.update fun c => { c with handshake := ⟨some err, none⟩ } else b
  let b := b.terminate .closed
  if !op.required then b
  else
    match op.reported, op.notice with
    | false, some n =>
      if n.protocol.isSome then
        b.notify { n with reply := .failed, replyCode := i.replyCode, closing := true }
      else b.notify { protocol := some .replyFailure, reply := .failed, replyCode := i.replyCode,
                      closing := true, message := op.message }
    | _, _ => b.notify { protocol := some .replyFailure, reply := .failed, replyCode := i.replyCode,
                         closing := true, message := op.message }

/-- What a published write of an exchange starts. -/
def exchangePublished (r : Nat) : Batch :=
  match b.core.control? r with
  | none => b
  | some k =>
    if !k.logical then b
    else
      match k.command with
      | .deviceWatchdog => b.watchdogPublished i
      | .capabilitiesExchange =>
        if b.core.cfg.cerInterval > 0 then b.arm .retry i.time b.core.cfg.cerInterval else b
      | .disconnectPeer => b

/-- The report a write carries. -/
def writeNotice (op : Operation) : Batch :=
  match op.notice with
  | none => b
  | some n => b.notify { n with replyCode := i.replyCode
                                reply := if i.stage = .queue then .queued else .written }

/-- The reporting boundary of a write: once per operation. -/
def reportWrite (op : Operation) : Batch :=
  let b := b.writeNotice i op
  let b := if op.handshake && b.core.phase = .opened then b.handshakeReady else b
  match op.control with
  | none => b
  | some r => b.exchangePublished i r

/-- A successful result, unless a DPA came before it: what it completes and reports. -/
def writeBoundary (op : Operation) : Batch :=
  let b := if op.closeAfter && i.stage = .written then b.terminate .closed else b
  if !(i.stage = .written || b.core.cfg.queueWrites) || op.reported then b
  else
    let b := if i.stage = .queue
      then b.update fun c => c.setOperation i.token { op with queued := true, reported := true }
      else b
    b.reportWrite i op

/-- A successful result on a core that has not ended. -/
def writeSucceeded (op : Operation) : Batch :=
  let dpr := (op.control.bind b.core.control?).any fun k => k.command = .disconnectPeer
  match b.core.earlyDPA with
  | some saved =>
    if i.stage = .written && dpr then b.completeDPA saved saved.resultCode
    else b.writeBoundary i op
  | none => b.writeBoundary i op

/-- `skippedControl`. -/
def skippedControl (r : Nat) : Batch :=
  match b.core.control? r with
  | none => b
  | some k =>
    let unwritten := k.writers = 1 && !k.written
    let b := (b.update fun c => { c.setControl r (fun k =>
        { k with writers := k.writers - 1, logical := k.logical && !unwritten }) with
      operations := c.operations.erase i.token }).release r
    if b.core.cfg.keepCERDeadlineAfterTransportLoss && b.core.phase = .waitCEA &&
        k.command = .capabilitiesExchange then
      (b.update fun c => { c with
        handshake := ⟨some (i.err.getD .shortWrite), none⟩ }).terminate .closed
    else if k.command = .deviceWatchdog && !k.written && k.logical then
      let b := b.update fun c => { c with wdNext := none, wd := { c.wd with pending := false } }
      if b.core.cfg.watchdog && b.core.phase = .opened && (b.core.timers .watchdog).token = 0 then
        b.watchdogArm i.time i.interval
      else b
    else b

def writeResult : Batch :=
  match b.core.operations.lookup i.token with
  | none => b
  | some op =>
    match i.stage, op.control with
    | .skipped, some r => b.skippedControl i r
    | _, _ =>
      let err := writeError i op
      if i.stage = .queue && op.queued then b
      else
        let b := if isFinal i
          then b.finishWrite i.token op.control (i.stage = .written && err.isNone)
          else b.update fun c => c.setOperation i.token { op with queued := true }
        if b.core.phase.ended then b
        else
          match err with
          | some err => b.failWrite i op err
          | none => b.writeSucceeded i op

/-! ## Timers -/

def expire : Batch :=
  let t := b.core.timers i.timer
  if t.token = 0 || t.token ≠ i.token || i.time < t.deadline then b
  else
    match i.timer with
    | .watchdog => b.watchdogExpired i
    | .handshake => b.fail i .handshakeTimeout 0
    | .retry =>
      match b.core.controls .capabilitiesExchange with
      | some r =>
        match (b.core.control? r).bind fun k =>
            if k.logical && k.attempts ≤ b.core.cfg.maxRetransmits then k.frame else none with
        | some frame => (b.stop .retry).send frame.copy { control := some r }
        | none => b.fail i .handshakeTimeout 0
      | none => b.fail i .handshakeTimeout 0
    | .closing =>
      if b.core.disconnectWaiting && !b.core.closeLocal &&
          (b.core.timers .receiverDisconnect).token ≠ 0 then
        (b.terminate .closed).notify { protocol := some .disconnectTimeout, closing := true }
      else b.fail i .disconnectTimeout 0
    | .receiverDisconnect => b.fail i .disconnectTimeout 0

/-! ## Inputs -/

def start : Batch :=
  if b.core.started || b.core.phase ≠ .preCER then b
  else
    let b := b.update fun c => { c with started := true }
    match b.core.cfg.role with
    | .initiator =>
      if i.deferCER then b.update fun c => { c with phase := .waitCEA, cerDeferred := true }
      else
        ((b.arm .handshake i.time b.core.cfg.handshakeTimeout).update fun c =>
          { c with phase := .waitCEA, handshakePending := true }).reserve .capabilitiesExchange
    | .responder => b.arm .handshake i.time b.core.cfg.handshakeTimeout

def beginCER : Batch :=
  if !b.core.cerDeferred || b.core.phase ≠ .waitCEA then b
  else
    ((b.update fun c => { c with cerDeferred := false }).arm .handshake i.time
      b.core.cfg.handshakeTimeout).reserve .capabilitiesExchange

def stopSupervision : Batch :=
  (b.update fun c => { c with
    cfg := { c.cfg with watchdog := false }, wd := { c.wd with pending := false },
    wdNext := none }).stop .watchdog

/-- The `Receive` case: an input that was not held moves the barrier on, and an expiry that waited
for it is taken up. -/
def received : Batch :=
  let start := b.effects.length
  let b := b.receive i
  if b.effects.length = start + 1 && (b.effects[start]?).any (fun e => e.kind = .hold) then b
  else
    let b := b.update fun c => { c with receivedSequence := max c.receivedSequence i.sequence }
    match b.core.deferredExpiry with
    | some pending =>
      if pending.afterReceive ≤ b.core.receivedSequence then
        (b.update fun c => { c with deferredExpiry := none }).expire pending
      else b
    | none => b

/-- Whether a hook kept what its continuation is about. -/
def sameExchange (h original : Header) : Bool :=
  h.commandCode == original.commandCode && h.applicationID == original.applicationID &&
    h.isRequest == original.isRequest && h.hopByHopID == original.hopByHopID &&
    h.endToEndID == original.endToEndID

/-- The hook of `pending` returned `p`; `i` is the saved input with that message. -/
def continued (p : Packet) (pending : Continuation) : Batch :=
  let original := pending.packet.header
  if !sameExchange p.header original then b.fail i .invalidHeader invalidHDRBits
  else if pending.repeatedCER then b.discard i (some .unexpectedMessage) 0
  else if original.commandCode = BaseCommand.deviceWatchdog.code &&
      b.core.cfg.skipDWRGrammarAfterHook then b.dwr i p
  else
    match validateMessage p with
    | some err =>
      if original.commandCode = BaseCommand.capabilitiesExchange.code then
        b.reject i p .cerRejected err
      else b.discard i (some .invalidDWR) err.resultCode
    | none =>
      if original.commandCode = BaseCommand.deviceWatchdog.code then b.dwr i p
      else b.candidate i p

/-- The `Continue` case. -/
def resume : Batch :=
  match b.core.continuations.lookup i.token with
  | none => b
  | some pending =>
    let b := b.update fun c => { c with
      continuations := c.continuations.erase i.token
      hookToken := if c.hookToken = i.token then 0 else c.hookToken }
    if i.transportClosed then b.terminate .closed
    else
      match i.message with
      | .absent => b.continued pending.input pending.packet pending
      | .headerless => b.fail i .malformedMessage 0
      | .packet p => b.continued { pending.input with message := .packet p } p pending

def releaseAdmission : Batch :=
  if b.core.phase ≠ .opened || i.token = 0 || i.token ≠ b.core.admission || b.core.ready ||
      !b.core.callbackReady then b
  else
    ((b.update fun c => { c with ready := true, handshakePending := false }).notify
      { kind := .handshake }).watchdogUp i

/-- The saved CER of a handshake that timed out while its hook ran. -/
def lateContinue : Batch :=
  let saved := b.core.lateCER
  let b := b.update fun c => { c with lateCERToken := 0, lateCER := .cleared }
  if i.transportClosed then b
  else (b.emit { kind := .close }).notify
    { protocol := some .handshakeState, closing := true, message := saved.message.metadata,
      diagnostic := "late-cer" }

def refreshAddresses (c : Core) (i : Input) : Core :=
  if i.refreshLocalAddresses && (c.phase = .preCER || c.passiveResponder && i.errorInput) then
    { c with
      cfg := { c.cfg with localSettings :=
        { c.cfg.localSettings with hostIPAddresses := i.localAddresses } }
      caps := { c.caps with localSettings :=
        { c.caps.localSettings with hostIPAddresses := i.localAddresses } } }
  else c

/-- The inputs of a core that has not ended. -/
def handleLive : Batch :=
  match i.kind with
  | .start => b.start i
  | .beginCER => b.beginCER i
  | .stopSupervision => b.stopSupervision
  | .retire => b.terminate .retired
  | .abort => (b.update fun c => { c with closeOutcome := .cancelled }).terminate .closed
  | .transportLost =>
    if b.core.cfg.keepCERDeadlineAfterTransportLoss && b.core.phase = .waitCEA then b
    else b.terminate .closed
  | .receive => b.received i
  | .continue => b.resume i
  | .activate => b.activate i
  | .rejectCandidate => b.rejectCandidate i
  | .releaseAdmission => b.releaseAdmission i
  | .disconnect => b.disconnect i
  | .frozen => b.freeze i
  | .unhandled => b.unhandled i
  | .timerExpired => b.expire i
  -- Handled before the phase is looked at.
  | .reserveResult | .writeResult => b

/-- `HandleInto`: the effects of `i` are appended to those of the batch. -/
def handleInto : Batch :=
  if i.connection ≠ b.core.cfg.connection then b
  else if i.kind = .reserveResult then b.reserved i
  else if i.kind = .writeResult then b.writeResult i
  else if b.core.phase = .closed && i.kind = .continue && i.token = b.core.lateCERToken &&
      b.core.lateCERToken ≠ 0 then b.lateContinue i
  else if b.core.phase.ended then b
  else (b.update fun c => refreshAddresses c i).handleLive i

end Batch

/-! ## Construction -/

/-- The lowest watchdog interval, six seconds. -/
def minimumTw : Int := 6000000000

/-- The core `New` returns. -/
def Core.init (cfg : Config) : Core :=
  { cfg := cfg
    wd := { state := if cfg.recovery then .down else .initial }
    caps := { localSettings := cfg.localSettings, tls := cfg.tls,
              localApplications := advertisedApplicationIDs cfg.localSettings }
    handshakePending := cfg.role = .initiator }

/-- `New`. -/
def new (cfg : Config) : Except ProtocolError Core :=
  if cfg.connection.instanceID = 0 then .error (.other "protocol: invalid connection or role")
  else if cfg.handshakeTimeout < 0 ∨ cfg.cerInterval < 0 ∨ cfg.closingTimeout < 0 then
    .error (.other "protocol: negative timeout")
  else if cfg.watchdog && cfg.watchdogInterval < minimumTw then
    .error (.other "protocol: watchdog interval below minimum")
  else
    match validateCapabilities cfg.localSettings with
    | some err => .error err
    | none => .ok (Core.init cfg)

/-- `PeerClaims`. -/
structure PeerClaims where
  host : Bytes := []
  realm : Bytes := []
  localApplications : List UInt32 := []
  remoteApplications : List UInt32 := []
  cer : Bool := false

/-- `RefreshAdmission`. -/
def Core.refreshAdmission (c : Core) : Option PeerClaims → Core
  | none =>
    if !c.passiveResponder || c.phase.ended then c
    else
      let preCER := c.phase = .opened || c.phase = .preCER
      { c with
        passivePresent := false
        phase := if c.phase = .opened then .preCER else c.phase
        ready := if c.phase = .opened then false else c.ready
        caps := { c.caps with
          host := [], realm := [], remoteApplications := [], commonApplications := []
          localApplications :=
            if preCER then advertisedApplicationIDs c.cfg.localSettings else [] }
        cfg := if preCER then { c.cfg with watchdog := c.passiveWatchdog } else c.cfg }
  | some peer =>
    if !c.passiveResponder || c.phase.ended then c
    else
      { c with
        passivePresent := true
        phase := if c.phase = .closing then .closing else .opened
        ready := if c.phase = .closing then c.ready else true
        cfg := if c.phase = .closing then c.cfg else { c.cfg with watchdog := false }
        passiveCER := peer.cer
        caps := { c.caps with localApplications := peer.localApplications }.negotiate peer.host
          peer.realm peer.remoteApplications }

/-- `NewAdmitted`. -/
def newAdmitted (cfg : Config) (peer : PeerClaims) : Except ProtocolError Core :=
  match new { cfg with role := .responder } with
  | .error err => .error err
  | .ok c => .ok ({ c with passiveResponder := true, passiveWatchdog := cfg.watchdog,
                           started := true }.refreshAdmission (some peer))

/-! ## Runs -/

/-- The calls that change a core. -/
inductive Event where
  | input (i : Input)
  | refresh (peer : Option PeerClaims)

/-- One call: the core it leaves and the effects it returns. -/
def Core.apply (c : Core) : Event → Core × List Effect
  | .input i =>
    let b := Batch.handleInto { core := c } i
    (b.core, b.effects)
  | .refresh peer => (c.refreshAdmission peer, [])

/-- A core with its history: every call and the effects it returned. -/
structure Run where
  core : Core
  log : List (Event × List Effect) := []

def Run.next (r : Run) (e : Event) : Run :=
  { core := (r.core.apply e).1, log := r.log ++ [(e, (r.core.apply e).2)] }

/-- All effects of a run, in order. -/
def Run.effects (r : Run) : List Effect := r.log.flatMap Prod.snd

def run (c : Core) (events : List Event) : Run := events.foldl Run.next { core := c }

/-- The cores a run can start from. -/
inductive Created : Core → Prop where
  | new {cfg : Config} {c : Core} : new cfg = .ok c → Created c
  | admitted {cfg : Config} {peer : PeerClaims} {c : Core} :
      newAdmitted cfg peer = .ok c → Created c

end Diameter.Protocol
