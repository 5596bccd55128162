import Diameter.Protocol.Copy
import Diameter.Protocol.Core

/-!
# Protocol.Handlers

What the core does with the messages of a connection: the watchdog, the disconnect exchange, the
capabilities exchange and the dispatch of everything that is received. The functions follow the
files `watchdog.go`, `closing.go`, `handshake.go` and `receive.go` and keep their names; where the
source returns early from a long function, the rest of it is a function of its own.

A handler of a message with a header gets the message as `p`; it is the message of the input `i`.
-/

namespace Diameter.Protocol

open Lib BasePackage

/-- `equalIdentity`: equality up to ASCII case. -/
def equalIdentity (a b : Bytes) : Bool :=
  let lower : UInt8 → UInt8 := fun x => if 65 ≤ x ∧ x ≤ 90 then x + 32 else x
  a.map lower == b.map lower

/-- `negotiate`. -/
def Capabilities.negotiate (caps : Capabilities) (host realm : Bytes) (apps : List UInt32) :
    Capabilities :=
  { caps with
    host := host
    realm := realm
    remoteApplications := apps
    commonApplications :=
      if caps.localApplications.contains relayApplication then apps
      else caps.localApplications.filter fun id =>
        apps.contains id || apps.contains relayApplication }

/-- `matches`: an answer to the exchange that is still waiting for one. -/
def matchesControl (k : Option Control) (h : Header) : Bool :=
  match k with
  | some k => k.logical && h.applicationID == 0 && !h.isRequest && h.commandCode == k.command.code &&
      k.header.any fun own => h.hopByHopID == own.hopByHopID && h.endToEndID == own.endToEndID
  | none => false

variable [BasePackage]

namespace Core

/-- `bound`: whether a message names the admitted peer. -/
def bound (c : Core) (p : Packet) (realm : Bool) : Bool :=
  let (identity, err) := parseDWR p
  err.isNone && equalIdentity identity.originHost c.caps.host &&
    (!realm || equalIdentity identity.originRealm c.caps.realm)

/-- `base.ValidateRequest` with the connection's settings. -/
def validateRequest (c : Core) (p : Packet) (me : Option MessageError) : Option RequestError :=
  BasePackage.validateRequest p c.caps.localApplications c.cfg.validateRequests
    c.cfg.rejectUnknownMandatoryAVPs me

/-- `closingAllowed`. -/
def closingAllowed (i : Input) : Bool :=
  match i.message with
  | .packet p =>
    let h := p.header
    if h.isBase .disconnectPeer then true
    else if h.isBase .capabilitiesExchange || h.isBase .deviceWatchdog then false
    else !h.isRequest && i.ownership != 0
  | _ => false

end Core

namespace Batch

variable (b : Batch) (i : Input) (p : Packet)

/-! ## Watchdog -/

def watchdogArm (time interval : Int) : Batch :=
  let interval := if interval ≤ 0 then b.core.cfg.watchdogInterval else interval
  if interval ≤ 0 then b.stop .watchdog
  else
    let previous := b.core.timers .watchdog
    let t := b.core.serial + 1
    let b := b.update fun c => { c with
      serial := t, timers := Function.update c.timers .watchdog ⟨t, time + interval⟩ }
    let b := if previous.token = 0 then b
      else b.emit { kind := .stopTimer, timer := .watchdog, token := previous.token }
    b.emit { kind := .armTimer, timer := .watchdog, token := t, deadline := time + interval }

def watchdogUp : Batch :=
  if !b.core.cfg.watchdog then b
  else
    let (next, actions) := b.core.wd.step .connectionUp
    if actions.send then
      (b.update fun c => { c with
        wd := { next with pending := false }, wdNext := some next }).reserve .deviceWatchdog
    else
      let b := b.update fun c => { c with wd := next }
      if actions.reset then b.watchdogArm i.time i.interval else b

def watchdogPublished : Batch :=
  if b.core.phase ≠ .opened then b
  else
    match b.core.wdNext with
    | none => b
    | some next =>
      ((b.update fun c => { c with wd := next, wdNext := none }).watchdogArm
        i.time i.interval).notify { kind := .watchdog, watchdog := some next.state }

/-- Receipt of anything that was framed resets the timer. -/
def activity : Batch :=
  if b.core.phase ≠ .opened || !b.core.cfg.watchdog || fatalHeaderError i.error then b
  else b.watchdogArm i.time i.interval

def validActivity : Batch :=
  if b.core.phase ≠ .opened || !b.core.cfg.watchdog then b
  else
    let (next, actions) := b.core.wd.step .receive
    let b := b.update fun c => { c with wd := next }
    if actions.failback then b.notify { kind := .watchdog, watchdog := some next.state } else b

def watchdogExpired : Batch :=
  if b.core.phase ≠ .opened || !b.core.cfg.watchdog then b
  else if i.afterReceive > b.core.receivedSequence then
    b.update fun c => { c with deferredExpiry := some i }
  else if b.core.wdNext.isSome then b.watchdogArm i.time i.interval
  else
    let (next, actions) := b.core.wd.step .expired
    if actions.close then b.fail i .watchdogTimeout 0
    else
      let b := b.stop .watchdog
      if actions.send then
        (b.update fun c => { c with wdNext := some next }).reserve .deviceWatchdog
      else
        let b := b.update fun c => { c with wd := next }
        let b := if actions.failover
          then b.notify { kind := .watchdog, watchdog := some next.state } else b
        if actions.reset then b.watchdogArm i.time i.interval else b

/-- `consumed`. -/
def consumed : Batch :=
  b.emit { kind := .completeRequest, notification := { message := some p.header } }

def consumeControl (r : Nat) (p : Packet) : Batch :=
  if (b.core.control? r).any Control.answered then b
  else (b.update fun c => c.setControl r fun k => { k with answered := true }).consumed p

/-- The reason a DWA does not count: `identity` is what the message says of its origin. -/
def dwaMismatch (c : Core) (p : Packet) (identity : DWR) : ProtocolError :=
  if p.header.isError then .other "invalid DWA flags"
  else if !equalIdentity identity.originHost c.caps.host then .other "DWA Origin-Host mismatch"
  else .other "DWA Origin-Realm mismatch"

/-- The end of `dwa`: the answer is credited to the probe it belongs to. -/
def creditDWA (r : Nat) (p : Packet) : Batch :=
  let (next, actions) := (b.core.wdNext.getD b.core.wd).step .receiveDWA
  let b := b.update fun c => { c with wd := next, wdNext := none }
  let b := ((b.consumeControl r p).settle r).notify
    { kind := .watchdog, watchdog := some next.state, diagnostic := "answer" }
  if actions.failback then b.notify { kind := .watchdog, watchdog := some next.state } else b

/-- `dwa` for an answer that matches the exchange `r`. -/
def matchedDWA (r : Nat) : Batch :=
  match parseDWA p with
  | .error err => b.discardCause i .invalidDWA err
  | .ok parsed =>
    if parsed.resultCode ≠ successCode && !b.core.bound p true then
      b.discardCause i .invalidDWA <|
        if !equalIdentity (parseDWR p).1.originHost b.core.caps.host
        then .other "DWA Origin-Host mismatch" else .other "DWA Origin-Realm mismatch"
    else if parsed.resultCode ≠ successCode then
      ((b.consumeControl r p).discard i (some .rejectedDWA) parsed.resultCode).amend fun n =>
        { n with causeError := some (.other ("DWA Result-Code " ++ toString parsed.resultCode)) }
    else if !b.core.bound p true || p.header.isError then
      b.discardCause i .invalidDWA ((parseDWR p).2.getD (dwaMismatch b.core p (parseDWR p).1))
    else b.creditDWA r p

def dwa : Batch :=
  match validateMessage p with
  | some err => b.discard { i with error := some err } (some .invalidDWA) err.resultCode
  | none =>
    match b.core.controls .deviceWatchdog with
    | some r =>
      if matchesControl (b.core.control? r) p.header then b.matchedDWA i p r
      else (b.discard i (some .unexpectedMessage) 0).amend fun n =>
        { n with diagnostic := "dwa-correlation" }
    | none => (b.discard i (some .unexpectedMessage) 0).amend fun n =>
        { n with diagnostic := "dwa-correlation" }

/-! ## Disconnect -/

def beginClosing (isLocal : Bool) : Batch :=
  let t := b.core.serial + 1
  let b := b.update fun c => { c with
    phase := .closing, ready := false, closeLocal := isLocal, closeRequest := i,
    closeCause := i.cause, serial := t, fenceToken := t
    disconnectWaiting := if isLocal then true else c.disconnectWaiting
    disconnectToken := if isLocal then i.token else c.disconnectToken }
  let b := b.stop .watchdog
  let b := b.arm .closing i.time (if i.timeout ≤ 0 then b.core.cfg.closingTimeout else i.timeout)
  b.emit { kind := .freezeAdmission, token := t }

def answerDPR (first : Bool) : Batch :=
  let result := if i.inFlight then unableToComply else successCode
  match buildDPAResult p b.core.cfg.localSettings result with
  | .error _ => b.fail i .replyFailure result
  | .ok answer =>
    if first then
      (b.update fun c => { c with peerDisconnectSelected := true }).send answer
        { required := true, source := some p
          notice := some { kind := .peerDisconnect, cause := b.core.peerCause, replyCode := result,
                           message := some p.header } }
    else b.send answer { required := true, source := some p }

def freeze : Batch :=
  if b.core.phase ≠ .closing || b.core.frozen || i.token ≠ b.core.fenceToken then b
  else
    let saved := b.core.closeRequest
    let b := b.update fun c => { c with frozen := true, fenceToken := 0 }
    if b.core.closeLocal then b.reserve .disconnectPeer
    else
      let b := b.update fun c => { c with closeRequest := .cleared }
      match saved.message with
      | .packet p => b.answerDPR { saved with inFlight := i.inFlight } p true
      -- The source would dereference nil here; only a DPR begins a closing that is not local.
      | _ => b

def disconnect : Batch :=
  if b.core.disconnectWaiting then
    b.notify { kind := .disconnect, outcome := .alreadyPending }
  else if b.core.cfg.localDisconnectInClosing && b.core.phase = .closing && b.core.frozen &&
      !b.core.closeLocal && i.cause ≤ 2 then
    let b := b.update fun c => { c with
      disconnectWaiting := true, disconnectToken := i.token, closeCause := i.cause }
    (b.arm .receiverDisconnect i.time i.timeout).reserve .disconnectPeer
  else if b.core.phase ≠ .opened || i.cause > 2 then
    b.notify { kind := .disconnect, outcome := .notOpen }
  else b.beginClosing i true

/-- A valid DPR, with its cause: the first one decides whether to reconnect. -/
def acceptDPR : Batch :=
  let b := if b.core.peerDPR then b
    else (b.update fun c => { c with peerDPR := true, peerCause := i.cause }).emit
      { kind := .peerDisconnectDecision, cause := i.cause }
  if b.core.phase ≠ .closing then b.validActivity.beginClosing i false
  else if !b.core.frozen then b.discard i none 0
  else b.answerDPR i p (!b.core.peerDisconnectSelected)

def dpr : Batch :=
  match validateDPR p.message with
  | .error text => b.discardCause i .invalidDPR (.other text)
  | .ok cause =>
    if !b.core.bound p false then
      b.discardCause i .invalidDPR
        (.other "DPR Origin-Host does not match the admitted peer (RFC 6733 §6.3)")
    else (b.acceptDPR { i with cause := cause } p).markRelease b.effects.length

def completeDPA (result : UInt32) : Batch :=
  let token := b.core.disconnectToken
  let b := (b.update fun c => { c with earlyDPA := none, disconnectWaiting := false }).terminate
    .closed
  let b := b.emit { b.core.notify { kind := .disconnect, resultCode := result } with token := token }
  if result = successCode then b
  else b.notify { protocol := some .peerRejected, resultCode := result, closing := true,
                  message := i.message.metadata }

/-- `dpa` for an answer that matches the exchange `r`. -/
def matchedDPA (r : Nat) : Batch :=
  match validateDPA p.message with
  | .error text => b.discardCause i .invalidDPA (.other text)
  | .ok result =>
    if !b.core.bound p false then
      (b.discard i (some .unexpectedMessage) 0).amend fun n => { n with diagnostic := "dpa-host" }
    else
      let b := b.settle r
      -- A synchronous frontend still has to return from its write.
      if !b.core.cfg.queueWrites && (b.core.control? r).any fun k =>
          !k.written && k.writers != 0 then
        b.update fun c => { c with
          earlyDPA := some { i with message := .packet p.copy, resultCode := result } }
      else b.completeDPA i result

def dpa : Batch :=
  match b.core.controls .disconnectPeer with
  | none => b.discard i (some .unexpectedMessage) 0
  | some r =>
    if matchesControl (b.core.control? r) p.header then b.matchedDPA i p r
    else if (b.core.control? r).any Control.logical then
      (b.discard i (some .unexpectedMessage) 0).amend fun n =>
        { n with diagnostic := "dpa-correlation" }
    else b.discard i (some .unexpectedMessage) 0

/-! ## Replies to requests -/

def latch (terminal : Bool) : Batch :=
  if terminal then b.update fun c => { c with terminal := true } else b

def reject (kind : ErrorKind) (me : MessageError) : Batch :=
  if b.core.phase = .closing then
    (b.discard i (some kind) me.resultCode).amend fun n =>
      { n with causeError := some (.message me) }
  else
    match buildErrorAnswer p b.core.cfg.localSettings me.resultCode me.failedAVP.toList
        (protocolErrorCode me.resultCode) with
    | .error err => (b.failedRejection p kind me.resultCode err).amend fun n =>
        { n with causeError := some (.message me) }
    | .ok answer =>
      let isCE := p.header.commandCode == BaseCommand.capabilitiesExchange.code
      let badHeader := (validateHeader p.header).isSome
      let terminal := b.core.phase = .preCER || me.fatal || isCE && badHeader
      let n : Notification :=
        { protocol := some kind, resultCode := me.resultCode, closing := terminal,
          message := some p.header, causeError := some (.message me)
          diagnostic := if isCE && (b.core.phase = .preCER || badHeader)
            then "reject-cer" else "" }
      (b.latch terminal).send answer
        { required := true, closeAfter := terminal, notice := some n }

def requestError (r : RequestError) (diagnostic : String) : Batch :=
  if b.core.phase = .closing then b.discard i (some r.kind) r.code
  else
    match buildErrorAnswer p b.core.cfg.localSettings r.code r.failed
        (protocolErrorCode r.code) with
    | .error err =>
      let b := b.failedRejection p r.kind r.code err
      if diagnostic = "" then b else b.amend fun n => { n with diagnostic := diagnostic }
    | .ok answer =>
      let terminal := b.core.phase = .preCER
      let n : Notification :=
        { protocol := some r.kind, resultCode := r.code, closing := terminal,
          message := some p.header
          diagnostic :=
            if terminal && p.header.commandCode == BaseCommand.capabilitiesExchange.code
            then "reject-cer" else diagnostic }
      (b.latch terminal).send answer
        { required := true, closeAfter := terminal, notice := some n }

/-- `unhandled` for a message with a header. -/
def unhandledPacket : Batch :=
  if b.core.phase ≠ .opened || !b.core.ready then b.discard i none 0
  else if !p.header.isRequest then b.discard i (some .unexpectedMessage) 0
  else if supportsApplication b.core.caps.localApplications p.header.applicationID then
    b.requestError i p ⟨.unsupportedCommand, commandUnsupported, []⟩ "unhandled"
  else b.requestError i p ⟨.unsupportedApplication, applicationUnsupported, []⟩ "unhandled"

def unhandled : Batch :=
  match i.message with
  | .packet p => b.unhandledPacket i p
  | _ => b.discard i none 0

/-- What `externalMessageError` reports. -/
def externalNotice (kind : ErrorKind) (originalFatal : Bool) : Notification :=
  { protocol := some kind, message := i.message.metadata, closing := originalFatal
    diagnostic := "external-message-error"
    resultCode := (i.error.map MessageError.resultCode).getD 0
    causeError := i.error.map ProtocolError.message }

/-- The answer of `externalMessageError` to a request, once the error to report is chosen. -/
def externalAnswer (n : Notification) (code : UInt32) (failed : List AVP) : Batch :=
  match buildErrorAnswer p b.core.cfg.localSettings code failed (protocolErrorCode code) with
  | .error err => (b.failedRejection p (n.protocol.getD .malformedMessage) code err).amend
      fun n => { n with causeError := some err, diagnostic := "external-message-error" }
  | .ok answer =>
    let isCE := p.header.commandCode == BaseCommand.capabilitiesExchange.code
    let terminal := isCE && if b.core.cfg.closeCEROnInvalidHeaderBitsOnly
      then code == invalidHDRBits else (validateHeader p.header).isSome
    let n := if terminal then { n with closing := true, diagnostic := "external-reject-cer" } else n
    (b.latch terminal).send answer
      { required := true, closeAfter := terminal, notice := some n }

/-- `externalMessageError` for a message with a header. -/
def externalMessageError (me : MessageError) (kind : ErrorKind) (originalFatal : Bool) : Batch :=
  let n := externalNotice i kind originalFatal
  if b.core.phase = .closing || !p.header.isRequest then
    (b.emit { kind := .discard }).notify n
  else
    match b.core.validateRequest p (some me) with
    | some rejection =>
      if !p.header.isCommand && !me.fatal then
        b.externalAnswer p { n with protocol := some rejection.kind, resultCode := rejection.code }
          rejection.code rejection.failed
      else b.externalAnswer p n me.resultCode me.failedAVP.toList
    | none => b.externalAnswer p n me.resultCode me.failedAVP.toList

def messageError (me : MessageError) (originalFatal : Bool) : Batch :=
  let kind := if (validateHeader p.header).isSome && !fatalHeaderError (some me)
    then ErrorKind.invalidHeader else .malformedMessage
  if b.core.passiveResponder && i.errorInput || b.core.cfg.readerOwnsMessageErrorClosure &&
      (b.core.phase = .opened || b.core.phase = .closing) then
    b.externalMessageError i p me kind originalFatal
  else if b.core.phase = .closing then
    (b.discard i (some kind) me.resultCode).amend fun n => { n with closing := originalFatal }
  else if !p.header.isRequest then
    if me.fatal then b.fail i kind me.resultCode else b.discard i (some kind) me.resultCode
  else
    match b.core.validateRequest p (some me) with
    | some rejection =>
      if !p.header.isCommand && !me.fatal then b.requestError i p rejection ""
      else b.reject i p kind me
    | none => b.reject i p kind me

/-! ## Capabilities exchange -/

def rejectCER (err : ProtocolError) : Batch :=
  match err with
  | .message me => b.reject i p .cerRejected me
  | err =>
    let code := match err with
      | .noCommonApplication => noCommonApplicationCode
      | .noCommonSecurity => noCommonSecurityCode
      | _ => unableToComply
    match buildCEA p b.core.cfg.localSettings code with
    | .error buildErr => b.failedRejection p .cerRejected code buildErr
    | .ok answer => (b.latch true).send answer
        { required := true, closeAfter := true
          notice := some { protocol := some .cerRejected, resultCode := code, replyCode := code,
                           closing := true, message := some p.header, causeError := some err } }

/-- The offer in the fields of a parsed CER or CEA. -/
def offeredApplications (auth acct vsai : List AVP) : List UInt32 :=
  advertisedApplicationIDs
    { authApplicationID := some (auth.map some), acctApplicationID := some (acct.map some),
      vendorSpecificApplicationID := some (vsai.map some) }

/-- The state of a core that holds a validated CER for the peer layer to decide about. -/
def holdCandidate (c : Core) (p : Packet) (parsed : CER) : Core :=
  { c with
    caps := { c.caps with cer := some parsed, parsedApplications := parsed.applications }.negotiate
      parsed.originHost parsed.originRealm (offeredApplications parsed.authApplicationID
        parsed.acctApplicationID parsed.vendorSpecificApplicationID)
    serial := c.serial + 1
    candidateToken := c.serial + 1
    cer := some p.copy }

def candidate : Batch :=
  let b := b.update fun c => { c with passiveResponder := false }
  match parseCER p { tls := b.core.cfg.tls, dictionary := b.core.cfg.dictionary,
                     localApplications := b.core.caps.localApplications } with
  | .error err => b.rejectCER i p err
  | .ok parsed =>
    if b.core.cfg.expectedHost ≠ [] &&
        !equalIdentity b.core.cfg.expectedHost parsed.originHost then
      b.rejectCER i p (.other "unexpected remote host")
    else
      let b := b.update fun c => holdCandidate c p parsed
      let e : Effect := { kind := .validatedCER, token := b.core.candidateToken,
                          snapshot := some b.core.snapshot }
      (if b.core.cfg.candidateDeadlineOwnedByPeer then b.stop .handshake else b).emit e

/-- `handshakeReady`. -/
def handshakeReady : Batch :=
  let b := b.update fun c => { c with callbackReady := true }
  b.emit { kind := .handshakeReady, token := b.core.admission, snapshot := some b.core.snapshot }

/-- The state of a core that has admitted its peer. -/
def admitPeer (c : Core) : Core :=
  { c with phase := .opened, handshakePending := true, serial := c.serial + 1,
           admission := c.serial + 1 }

def publish : Batch :=
  b.emit { kind := .publish, token := b.core.admission, snapshot := some b.core.snapshot }

/-- The state of a core whose candidate the peer layer has accepted. -/
def activatePeer (c : Core) : Core :=
  admitPeer { c with
    candidateToken := 0
    wd := if i.recovery then { c.wd with state := .down } else c.wd }

def activate : Batch :=
  if b.core.phase ≠ .preCER || b.core.candidateToken = 0 || i.token ≠ b.core.candidateToken then b
  else
    let b := ((b.update (activatePeer i)).stop .handshake).publish
    match b.core.cer with
    -- A candidate has its CER saved; the source would dereference nil.
    | none => b
    | some cer =>
      match buildCEA cer b.core.cfg.localSettings successCode with
      | .error err => b.fail { i with message := .packet cer, err := some err } .replyFailure
          successCode
      | .ok answer => b.send answer { required := true, handshake := true, source := some cer }

/-- `RejectCandidate`. -/
def rejectCandidate : Batch :=
  if b.core.candidateToken = 0 || i.token ≠ b.core.candidateToken then b
  else if i.resultCode = 0 then b.terminate .closed
  else
    let b := b.update fun c => { c with candidateToken := 0, terminal := true }
    match b.core.cer with
    | none => b
    | some cer =>
      match buildCEA cer b.core.cfg.localSettings i.resultCode with
      | .error err => b.failedRejection cer .cerRejected i.resultCode err
      | .ok answer => b.send answer
          { required := true, closeAfter := true
            notice := some { protocol := some .cerRejected, resultCode := i.resultCode,
                             closing := true, message := some cer.header } }

/-- `errors.As` on the errors that carry a result code. -/
def ceaErrorCode : ProtocolError → UInt32
  | .failedResultCode code => code
  | .message me => me.resultCode
  | _ => 0

/-- An accepted CEA, which settles the exchange `r`. -/
def acceptCEA (r : Nat) (parsed : CEA) : Batch :=
  let b := ((((b.consumed p).settle r).stop .handshake).stop .retry).update fun c => admitPeer { c with
    caps := { c.caps with cea := some parsed, parsedApplications := parsed.applications }.negotiate
      parsed.originHost parsed.originRealm (offeredApplications parsed.authApplicationID
        parsed.acctApplicationID parsed.vendorSpecificApplicationID)
    completedCEA := some p.header }
  b.publish.handshakeReady

/-- `cea` for an answer that matches the exchange `r` and was decoded without error. -/
def matchedCEA (r : Nat) : Batch :=
  match validateMessage p with
  | some err =>
    let kind := if (validateHeader p.header).isSome then .invalidHeader
      else answerErrorKind p.header
    (b.update fun c => { c with handshake := ⟨some (.message err), none⟩ }).fail i kind
      err.resultCode
  | none =>
    let (parsed, err) := parseCEA p
      { dictionary := b.core.cfg.dictionary, localApplications := b.core.caps.localApplications }
    let b := b.update fun c => { c with handshake := ⟨err, some parsed⟩ }
    match err with
    | some err => b.fail i .ceaRejected (ceaErrorCode err)
    | none =>
      if b.core.cfg.expectedHost ≠ [] &&
          !equalIdentity b.core.cfg.expectedHost parsed.originHost then
        (b.update fun c => { c with handshake := ⟨some .unexpectedPeer, some parsed⟩ }).fail i
          .ceaRejected 0
      else b.acceptCEA p r parsed

def cea : Batch :=
  let r := b.core.controls .capabilitiesExchange
  if !fatalHeaderError i.error && !matchesControl (r.bind b.core.control?) p.header then
    let fatalInput := i.error.any MessageError.fatal
    if fatalInput && !b.core.cfg.readerOwnsMessageErrorClosure then
      b.fail i .unexpectedMessage 0
    else (b.discard i (some .unexpectedMessage) 0).amend fun n => { n with closing := fatalInput }
  else
    match i.error, r with
    | some me, _ =>
      (b.update fun c => { c with handshake := ⟨some (.message me), none⟩ }).fail i .ceaRejected
        me.resultCode
    | none, some r => b.matchedCEA i p r
    -- Without an error the answer matched an exchange.
    | none, none => b

/-! ## Receiving -/

def hold : Batch :=
  b.emit { kind := .hold, input := some { i with message := i.message.copy } }

def pauseHook : Batch :=
  let t := b.core.serial + 1
  let saved : Continuation :=
    { input := { i with message := .packet p.copy }, packet := p.copy
      repeatedCER := b.core.phase = .opened &&
        p.header.commandCode == BaseCommand.capabilitiesExchange.code }
  let b := b.update fun c => { c with
    serial := t
    continuations := c.continuations.insert t saved
    passiveResponder := if c.phase = .preCER then false else c.passiveResponder
    hookToken := if c.phase = .preCER then t else c.hookToken }
  b.emit { kind := .runHook, token := t, message := some p.copy }

/-- The reason a DWR is not answered. -/
def dwrError (c : Core) (p : Packet) : Option ProtocolError :=
  match (parseDWR p).2 with
  | some err => some err
  | none => if c.bound p false then none
    else some (.other "DWR Origin-Host does not match the admitted peer (RFC 6733 §6.3)")

def dwr : Batch :=
  match dwrError b.core p with
  | some err => b.discardCause i .invalidDWR err
  | none =>
    match buildDWA p b.core.cfg.localSettings with
    | .error _ => b.fail i .replyFailure successCode
    | .ok answer => b.validActivity.send answer
        { required := true, source := some p, answerHook := true }

def admitMessage (ownership : Nat) : Batch :=
  b.emit { kind := .admitMessage, message := some p, ownership := ownership }

/-- A base message that the connection does not handle itself. -/
def admitHandled : Batch :=
  if !i.hasHandler then b.discard i (some .unexpectedMessage) 0 else b.admitMessage p 0

def dispatchApplication : Batch :=
  if b.core.cfg.watchdog && b.core.wd.state = .reopen then b.discard i none 0
  else if i.unhandled && p.header.isRequest then
    (if supportsApplication b.core.caps.localApplications p.header.applicationID
      then b.validActivity else b).unhandledPacket i p
  else
    let b := b.validActivity
    if b.core.cfg.watchdog && b.core.wd.state = .reopen then b.discard i none 0
    else b.admitMessage p i.ownership

/-- The part of `receive` that selects the handler of a valid message. -/
def dispatch : Batch :=
  if p.header.isBase .deviceWatchdog then
    if p.header.isRequest then
      if b.core.cfg.hooks then b.pauseHook i p else b.dwr i p
    else b.admitHandled i p
  else if p.header.isBase .disconnectPeer then
    if p.header.isRequest then b.dpr i p else b.dpa i p
  else if p.header.isBase .capabilitiesExchange then b.admitHandled i p
  else b.dispatchApplication i p

/-- A message without errors. `start` is where the effects of this input begin. -/
def receiveValid (start : Nat) : Batch :=
  if b.core.phase = .opened && b.core.cfg.watchdog &&
      p.header.commandCode == BaseCommand.deviceWatchdog.code && !p.header.isRequest then
    (b.dwa i p).markRelease start
  else
    match validateMessage p with
    | some err =>
      if !p.header.isRequest then
        let b := b.discard { i with error := some err } (some (answerErrorKind p.header))
          err.resultCode
        if b.core.passiveResponder
        then b.amend fun n => { n with diagnostic := "external-invalid-base" } else b
      else b.reject i p .invalidRequest err
    | none =>
      match b.core.validateRequest p none with
      | some rejection => b.requestError i p rejection ""
      | none =>
        if b.core.phase = .preCER then
          if b.core.cfg.hooks then b.pauseHook i p else b.candidate i p
        else if p.header.commandCode != BaseCommand.capabilitiesExchange.code &&
            !(p.header.isBase .disconnectPeer && p.header.isRequest) then
          (b.dispatch i p).markRelease start
        else b.dispatch i p

/-- A CER on a connection that has its peer. -/
def repeatedCER : Batch :=
  let quiet := i.error.isNone && !i.errorInput
  if b.core.passiveResponder && b.core.passiveCER && quiet then b.discard i none 0
  else
    let b := if i.error.isNone && (validateMessage p).isNone &&
        (b.core.validateRequest p none).isNone && b.core.bound p true
      then b.validActivity else b
    if b.core.cfg.hooks && quiet then b.pauseHook i p
    else b.discard i (some .unexpectedMessage) 0

/-- An answer to a CER that was answered before. -/
def surplusCEA : Batch :=
  let duplicate := b.core.completedCEA.any fun h =>
    h.hopByHopID == p.header.hopByHopID && h.endToEndID == p.header.endToEndID
  (b.discard i (some .unexpectedMessage) 0).amend fun n =>
    { n with diagnostic := if duplicate then "duplicate-cea" else "cea-correlation" }

/-- The header's own error takes the place of the decoder's, unless that lost the frame. -/
def headerPrecedence (h : Header) : Input :=
  match validateHeader h with
  | some e => if fatalHeaderError i.error then i
    else { i with error := some { e with fatal := i.error.any MessageError.fatal } }
  | none => i

/-- A message of a phase that admits it. -/
def receiveAdmitted : Batch :=
  let start := b.effects.length
  let h := p.header
  let b := b.activity i
  if !i.errorInput && b.core.phase = .opened && b.core.cfg.role = .initiator &&
      h.isBase .capabilitiesExchange && !h.isRequest && i.error.isNone then
    b.surplusCEA i p
  else
    let originalFatal := i.error.any MessageError.fatal
    let i := headerPrecedence i h
    if b.core.phase = .opened && h.isBase .capabilitiesExchange && h.isRequest &&
        (validateHeader h).isNone && !fatalHeaderError i.error &&
        !i.error.any MessageError.fatal then
      b.repeatedCER i p
    else
      match i.error with
      | some me => b.messageError i p me originalFatal
      | none =>
        if i.errorInput then b.discard i (some .malformedMessage) 0
        else b.receiveValid i p start

def receivePacket : Batch :=
  let c := b.core
  let h := p.header
  let code := (i.error.map MessageError.resultCode).getD 0
  if c.phase = .waitCEA || c.phase = .preCER && c.cfg.role = .initiator then
    if h.isBase .capabilitiesExchange && !h.isRequest then b.cea i p
    else b.fail i .handshakeState code
  else if (c.phase = .preCER || c.phase = .closing && c.passiveResponder && !c.passivePresent) &&
      (!(h.commandCode == BaseCommand.capabilitiesExchange.code && h.isRequest) ||
        c.candidateToken ≠ 0) then
    b.fail i .handshakeState <|
      match i.error with
      | some e => e.resultCode
      | none => ((validateHeader h).map MessageError.resultCode).getD 0
  else b.receiveAdmitted i p

/-- A nil message or one without a header. -/
def receiveHeaderless : Batch :=
  let c := b.core
  if c.cfg.ignoreBoundHeaderlessInput then
    if c.phase ≠ .preCER || c.cfg.role = .initiator || c.candidateToken ≠ 0 then b
    else b.fail i .handshakeState ((i.error.map MessageError.resultCode).getD 0)
  else if c.passiveResponder && c.passivePresent && i.errorInput && !i.message.isNil then
    (b.emit { kind := .discard }).notify
      (externalNotice i .malformedMessage (i.error.any MessageError.fatal))
  else b.fail i .malformedMessage 0

def receive : Batch :=
  let c := b.core
  if c.passiveResponder && i.errorInput && i.transportClosed then b.discard i none 0
  else if c.passiveResponder && i.errorInput && i.message.isNil && c.phase = .closing then
    b.fail i .malformedMessage 0
  else if c.terminal || c.phase = .closing && !Core.closingAllowed i then b.discard i none 0
  else if c.hookToken ≠ 0 || c.phase = .opened && !c.ready then b.hold i
  else
    match i.message with
    | .packet p => b.receivePacket i p
    | _ => b.receiveHeaderless i

end Batch
end Diameter.Protocol
