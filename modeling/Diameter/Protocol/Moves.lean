import Diameter.Protocol.Handle

/-!
# Protocol.Moves

The connection core as an abstract machine: `State` keeps of a core what its guarantees are about
(phase, admission, saved requests, disconnect, watchdog, identifier leases), and `Move` lists
everything one input can do to it, with the conditions under which the code does it.

While an input is handled the machine carries a `permit`: the header of the request the core may
still answer. An answer uses it up, and so does everything that postpones the answer (a held
input, a hook, a candidate for the peer layer, a frozen DPR, an admission), which issues a token;
the completion with that token gets the permit back. `sealed` is set once the input has ended the
connection.

`Protocol.Refine` shows that the code makes only these moves.
-/

namespace Diameter.Protocol

open Lib BasePackage

variable {bad : EffectKind} {i : Input}

/-- The identifiers a core holds: outstanding reservations, its exchanges with the current one of
each command, and the writes without a final result. -/
structure Leases where
  reservations : GoMap Nat BaseCommand
  controls : BaseCommand → Option Nat
  heap : List Control
  operations : GoMap Nat Operation

/-- The settings the supervision of a connection depends on; they never change. -/
structure Policy where
  handshakeTimeout : Int
  cerInterval : Int
  closingTimeout : Int
  watchdogInterval : Int
  keepsCERDeadline : Bool
  peerOwnsDeadline : Bool

def Config.policy (cfg : Config) : Policy :=
  ⟨cfg.handshakeTimeout, cfg.cerInterval, cfg.closingTimeout, cfg.watchdogInterval,
    cfg.keepCERDeadlineAfterTransportLoss, cfg.candidateDeadlineOwnedByPeer⟩

abbrev Timers := TimerKind → TimerSnapshot

/-- A timer that is not armed stays as it is. -/
def Timers.stop (ts : Timers) (k : TimerKind) : Timers :=
  if (ts k).token = 0 then ts else Function.update ts k {}

namespace Timers

theorem stop_token (ts : Timers) (k : TimerKind) : (ts.stop k k).token = 0 := by
  unfold stop
  split
  · assumption
  · rw [Function.update_self]

theorem stop_of_ne (ts : Timers) {k k' : TimerKind} (h : k' ≠ k) : ts.stop k k' = ts k' := by
  unfold stop
  split
  · rfl
  · rw [Function.update_of_ne h]

theorem stop_stop (ts : Timers) (k : TimerKind) : (ts.stop k).stop k = ts.stop k :=
  if_pos (ts.stop_token k)

theorem update_stop (ts : Timers) (k : TimerKind) (t : TimerSnapshot) :
    Function.update (ts.stop k) k t = Function.update ts k t := by
  unfold stop
  split
  · rfl
  · rw [Function.update_idem]

/-! The tokens of timers stay below a bound. -/

theorem stop_le {ts : Timers} {n : Nat} (h : ∀ k, (ts k).token ≤ n) (k : TimerKind) :
    ∀ k', (ts.stop k k').token ≤ n := by
  intro k'
  by_cases hk : k' = k
  · rw [hk, stop_token]
    exact Nat.zero_le _
  · rw [stop_of_ne _ hk]
    exact h k'

theorem foldl_stop_le (ks : List TimerKind) {ts : Timers} {n : Nat} (h : ∀ k, (ts k).token ≤ n) :
    ∀ k, (ks.foldl stop ts k).token ≤ n := by
  induction ks generalizing ts with
  | nil => exact h
  | cons k ks ih => exact ih (stop_le h k)

theorem update_le {ts : Timers} {n : Nat} (h : ∀ k, (ts k).token ≤ n) (k : TimerKind) (d : Int) :
    ∀ k', (Function.update ts k ⟨n + 1, d⟩ k').token ≤ n + 1 := by
  intro k'
  rw [Function.update_apply]
  split
  · exact Nat.le_refl _
  · exact (h k').trans (Nat.le_succ _)

end Timers

structure State where
  connection : Connection
  role : Role
  supervised : Bool
  phase : Phase
  serial : Nat
  started : Bool
  cerDeferred : Bool
  ready : Bool
  terminal : Bool
  frozen : Bool
  passive : Bool
  handshakePending : Bool
  callbackReady : Bool
  admission : Nat
  candidate : Nat
  hook : Nat
  fence : Nat
  cer : Option Packet
  continuations : GoMap Nat Continuation
  closeLocal : Bool
  closeRequest : Incoming
  closeOutcome : Outcome
  waiting : Bool
  disconnectToken : Nat
  earlyDPA : Bool
  lateCER : Nat
  deferred : Option Input
  wd : Watchdog.Machine
  wdNext : Option Watchdog.Machine
  host : Bytes
  realm : Bytes
  timers : Timers
  sequence : Nat
  policy : Policy
  passiveWatchdog : Bool
  leases : Leases

def Core.leases (c : Core) : Leases := ⟨c.reservations, c.controls, c.heap, c.operations⟩

def Core.state (c : Core) : State where
  connection := c.cfg.connection
  role := c.cfg.role
  supervised := c.cfg.watchdog
  phase := c.phase
  serial := c.serial
  started := c.started
  cerDeferred := c.cerDeferred
  ready := c.ready
  terminal := c.terminal
  frozen := c.frozen
  passive := c.passiveResponder
  handshakePending := c.handshakePending
  callbackReady := c.callbackReady
  admission := c.admission
  candidate := c.candidateToken
  hook := c.hookToken
  fence := c.fenceToken
  cer := c.cer
  continuations := c.continuations
  closeLocal := c.closeLocal
  closeRequest := c.closeRequest.message
  closeOutcome := c.closeOutcome
  waiting := c.disconnectWaiting
  disconnectToken := c.disconnectToken
  earlyDPA := c.earlyDPA.isSome
  lateCER := c.lateCERToken
  deferred := c.deferredExpiry
  wd := c.wd
  wdNext := c.wdNext
  host := c.caps.host
  realm := c.caps.realm
  timers := c.timers
  sequence := c.receivedSequence
  policy := c.cfg.policy
  passiveWatchdog := c.passiveWatchdog
  leases := c.leases

namespace Leases

variable (l : Leases)

/-- A new exchange in the place of the reservation `t`. -/
def exchange (t : Nat) (k : Control) : Leases :=
  { l with
    reservations := l.reservations.erase t
    heap := l.heap ++ [k]
    controls := Function.update l.controls k.command (some l.heap.length) }

/-- The exchange `r` if nothing needs it any more, and what is given back with it. -/
def release (r : Nat) : Leases × List Reservation :=
  match l.heap[r]? with
  | none => (l, [])
  | some k =>
    if k.logical || k.writers != 0 || k.released then (l, [])
    else
      ({ l with
          heap := l.heap.modify r fun k => { k with released := true }
          controls := if l.controls k.command = some r
            then Function.update l.controls k.command none else l.controls },
        [k.reservation])

/-- A change to the exchange `r`, after which it may be released. -/
def drop (r : Nat) (f : Control → Control) : Leases × List Reservation :=
  { l with heap := l.heap.modify r f }.release r

/-- The exchange `r` has its answer. -/
def settle (r : Nat) : Leases × List Reservation :=
  l.drop r fun k => { k with logical := false, answered := true }

/-- The current exchange of a command is given up. -/
def abandon (cmd : BaseCommand) : Leases × List Reservation :=
  match l.controls cmd with
  | some r => l.drop r fun k => { k with logical := false }
  | none => (l, [])

def abandonAll : Leases × List Reservation :=
  BaseCommand.all.foldl (fun p cmd => ((p.1.abandon cmd).1, p.2 ++ (p.1.abandon cmd).2)) (l, [])

/-- A write of the exchange `r`, under the token `t`. -/
def send (t r : Nat) (op : Operation) : Leases :=
  { l with
    operations := l.operations.insert t op
    heap := l.heap.modify r fun k =>
      { k with writers := k.writers + 1, attempts := k.attempts + 1 } }

/-- The exchange a write belongs to is told that the write is over. -/
def finish (t : Nat) (control : Option Nat) (f : Control → Control) : Leases × List Reservation :=
  match control with
  | none => ({ l with operations := l.operations.erase t }, [])
  | some r => { l with operations := l.operations.erase t }.drop r f

def writeDone (t : Nat) (op : Operation) (written : Bool) : Leases × List Reservation :=
  l.finish t op.control fun k =>
    { k with writers := k.writers - 1, written := k.written || written }

/-- A write of the exchange `r` that never reached the transport. -/
def writeSkipped (t r : Nat) : Leases × List Reservation :=
  l.finish t (some r) fun k =>
    { k with writers := k.writers - 1, logical := k.logical && !(k.writers = 1 && !k.written) }

/-! Disposing of exchanges touches neither reservations nor writes. -/

@[simp] theorem release_reservations (r : Nat) : (l.release r).1.reservations = l.reservations := by
  unfold release
  split
  · rfl
  · split <;> rfl

@[simp] theorem release_operations (r : Nat) : (l.release r).1.operations = l.operations := by
  unfold release
  split
  · rfl
  · split <;> rfl

@[simp] theorem drop_reservations (r : Nat) (f : Control → Control) :
    (l.drop r f).1.reservations = l.reservations := by
  rw [drop, release_reservations]

@[simp] theorem drop_operations (r : Nat) (f : Control → Control) :
    (l.drop r f).1.operations = l.operations := by
  rw [drop, release_operations]

@[simp] theorem settle_reservations (r : Nat) : (l.settle r).1.reservations = l.reservations := by
  rw [settle, drop_reservations]

@[simp] theorem settle_operations (r : Nat) : (l.settle r).1.operations = l.operations := by
  rw [settle, drop_operations]

@[simp] theorem abandon_reservations (cmd : BaseCommand) :
    (l.abandon cmd).1.reservations = l.reservations := by
  unfold abandon
  split
  · rw [drop_reservations]
  · rfl

@[simp] theorem abandon_operations (cmd : BaseCommand) :
    (l.abandon cmd).1.operations = l.operations := by
  unfold abandon
  split
  · rw [drop_operations]
  · rfl

@[simp] theorem abandonAll_reservations : l.abandonAll.1.reservations = l.reservations := by
  simp [abandonAll, BaseCommand.all]

@[simp] theorem abandonAll_operations : l.abandonAll.1.operations = l.operations := by
  simp [abandonAll, BaseCommand.all]

@[simp] theorem finish_reservations (t : Nat) (control : Option Nat)
    (f : Control → Control) : (l.finish t control f).1.reservations = l.reservations := by
  unfold finish
  cases control with
  | none => rfl
  | some r => rw [drop_reservations]

@[simp] theorem finish_operations (t : Nat) (control : Option Nat)
    (f : Control → Control) : (l.finish t control f).1.operations = l.operations.erase t := by
  unfold finish
  cases control with
  | none => rfl
  | some r => rw [drop_operations]

end Leases

namespace State

def live (s : State) : Prop := s.phase.ended = false

/-- Puts a command on the list of outstanding reservations, under the next token. -/
def reserve (s : State) (cmd : BaseCommand) : State :=
  { s with
    serial := s.serial + 1
    leases := { s.leases with reservations := s.leases.reservations.insert (s.serial + 1) cmd } }

/-- What is left when the connection has ended. -/
def ended (s : State) (phase : Phase) : State :=
  { s with
    phase := phase, earlyDPA := false, candidate := 0, hook := 0, admission := 0, ready := false,
    callbackReady := false, continuations := ∅, cer := none, wdNext := none, deferred := none,
    handshakePending := false, waiting := false, leases := s.leases.abandonAll.1
    timers := TimerKind.all.foldl Timers.stop s.timers
    wd := if s.supervised && s.wd.state != .initial
      then { (s.wd.step .connectionDown).1 with pending := false } else s.wd }

/-! ### Timers -/

/-- The watchdog of this connection is in use. -/
def Watched (s : State) : Prop := s.phase = .opened ∧ s.supervised = true

/-- When the input `i` arms a timer by itself. -/
def Arms (s : State) (i : Input) : TimerKind → Prop
  | .handshake => (i.kind = .start ∨ i.kind = .beginCER) ∧
      (s.started = false ∨ s.cerDeferred = true)
  | .retry => i.kind = .writeResult
  | .watchdog => s.Watched
  | .closing => False
  | .receiverDisconnect => i.kind = .disconnect

/-- When a timer is stopped by itself. -/
def Stops (s : State) : TimerKind → Prop
  | .watchdog => s.Watched → s.policy.watchdogInterval ≤ 0
  | _ => False

/-- The watchdog timer is armed anew, under the next token; without an interval it is stopped. -/
def Rearms (s : State) (n : Nat) (ts : Timers) : Prop :=
  (n = s.serial + 1 ∧ ∃ d, ts = Function.update s.timers .watchdog ⟨s.serial + 1, d⟩) ∨
    s.policy.watchdogInterval ≤ 0 ∧ n = s.serial ∧ ts = s.timers.stop .watchdog

/-- The tokens of timers are old ones. -/
def Stamped (s : State) : Prop := ∀ k, (s.timers k).token ≤ s.serial

/-- The timers of a connection that begins to close, armed for `d` with tokens up to `n`. -/
structure Closes (s : State) (time d : Int) (n : Nat) (ts : Timers) : Prop where
  serial : s.serial < n
  tokens : s.Stamped → ∀ k, (ts k).token ≤ n
  watchdog : (ts .watchdog).token = 0
  closing : 0 < d → (ts .closing).token ≠ 0 ∧ (ts .closing).deadline = time + d
  fresh : ts .closing = s.timers .closing ∨
    s.serial < (ts .closing).token ∧ (ts .closing).token ≤ n
  other : ∀ k, k ≠ .watchdog → k ≠ .closing → ts k = s.timers k

theorem Stamped.rearms {s : State} (h : s.Stamped) {n : Nat} {ts : Timers} (hr : s.Rearms n ts) :
    ∀ k, (ts k).token ≤ n := by
  rcases hr with ⟨rfl, d, rfl⟩ | ⟨-, rfl, rfl⟩
  · exact Timers.update_le h _ d
  · exact Timers.stop_le h _

end State

/-! ## Effects -/

/-- The effects that give back these identifiers, in order. -/
def Releases (leases : List Reservation) (es : List Effect) : Prop :=
  (∀ e ∈ es, e.kind = .releaseIDs) ∧ es.map Effect.reservation = leases

/-- A refusal of a `Disconnect` input. -/
def Outcome.refusal : Outcome → Bool
  | .notOpen | .alreadyPending => true
  | _ => false

/-- Effects that complete nothing and ask for nothing but bookkeeping. -/
def Effect.Quiet (e : Effect) : Prop :=
  match e.kind with
  | .discard | .completeRequest | .armTimer | .stopTimer | .peerDisconnectDecision => True
  | .notify => e.notification.kind ≠ .handshake ∧
      (e.notification.kind = .disconnect → e.notification.outcome.refusal = true)
  | _ => False

/-- The report that the handshake is over. -/
def Effect.IsHandshakeNotice (e : Effect) : Prop :=
  e.kind = .notify ∧ e.notification.kind = .handshake

/-- The report that the accepted `Disconnect` with this token is over. -/
def Effect.IsDisconnectNotice (e : Effect) (token : Nat) (outcome : Outcome) : Prop :=
  e.kind = .notify ∧ e.notification.kind = .disconnect ∧ e.notification.outcome = outcome ∧
    e.token = token

/-- The effects of ending a connection in state `s`, in their order: timers stopped, identifiers
given back, writes cancelled, the transport closed, and the two reports that may be due. -/
structure TerminalEffects (s : State) (phase : Phase) (es : List Effect) : Prop where
  split : ∃ stops rels cancels closes handshakes disconnects,
    es = stops ++ rels ++ cancels ++ closes ++ handshakes ++ disconnects ∧
    (∀ e ∈ stops, e.kind = .stopTimer) ∧
    Releases s.leases.abandonAll.2 rels ∧
    (∀ e ∈ cancels, e.kind = .cancelSend) ∧
    closes.map Effect.kind = (if phase = .closed then [.close] else []) ∧
    (∀ e ∈ handshakes, e.IsHandshakeNotice) ∧
    handshakes.length = (if s.handshakePending then 1 else 0) ∧
    (∀ e ∈ disconnects, e.IsDisconnectNotice s.disconnectToken s.closeOutcome) ∧
    disconnects.length = (if s.waiting then 1 else 0)

/-! ### Kinds of effects -/

theorem ne_kind_singleton {e : Effect} {k bad : EffectKind} (hk : e.kind = k) (hn : k ≠ bad) :
    ∀ x ∈ [e], x.kind ≠ bad := by
  intro x hx
  rw [List.mem_singleton.1 hx, hk]
  exact hn

theorem Releases.ne_kind {l : List Reservation} {es : List Effect} (hr : Releases l es)
    (hn : .releaseIDs ≠ bad) : ∀ x ∈ es, x.kind ≠ bad := by
  intro x hx
  rw [hr.1 x hx]
  exact hn

theorem Effect.Quiet.ne_kind {e : Effect} (hq : e.Quiet)
    (hn : bad ∉ [EffectKind.discard, .completeRequest, .armTimer, .stopTimer,
      .peerDisconnectDecision, .notify]) : e.kind ≠ bad := by
  rintro rfl
  unfold Effect.Quiet at hq
  split at hq
  all_goals simp_all

theorem kind_of_closes {phase : Phase} {closes : List Effect}
    (h : closes.map Effect.kind = if phase = .closed then [.close] else []) :
    ∀ e ∈ closes, e.kind = .close := by
  intro e he
  have hmem : e.kind ∈ closes.map Effect.kind := List.mem_map_of_mem he
  rw [h] at hmem
  split at hmem
  · exact List.mem_singleton.1 hmem
  · exact (List.not_mem_nil hmem).elim

theorem TerminalEffects.ne_kind {s : State} {phase : Phase} {es : List Effect}
    (ht : TerminalEffects s phase es)
    (hn : bad ∉ [EffectKind.stopTimer, .releaseIDs, .cancelSend, .close, .notify]) :
    ∀ x ∈ es, x.kind ≠ bad := by
  obtain ⟨stops, rels, cancels, closes, hs, ds, rfl, h1, h2, h3, h4, h5, -, h7, -⟩ := ht.split
  rintro x hx rfl
  refine hn ?_
  simp only [List.mem_append] at hx
  rcases hx with ((((hx | hx) | hx) | hx) | hx) | hx
  · simp [h1 x hx]
  · simp [h2.1 x hx]
  · simp [h3 x hx]
  · simp [kind_of_closes h4 x hx]
  · simp [(h5 x hx).1]
  · simp [(h7 x hx).1]

/-! ## Moves -/

structure Work where
  state : State
  effects : List Effect
  permit : Option Header
  sealed : Bool

namespace Work

def set (w : Work) (f : State → State) : Work := { w with state := f w.state }

def emit (w : Work) (e : Effect) : Work := { w with effects := w.effects ++ [e] }

def emits (w : Work) (es : List Effect) : Work := { w with effects := w.effects ++ es }

/-- The connection has not ended, before this input or in it. -/
def Running (w : Work) : Prop := w.sealed = false ∧ w.state.live

end Work

def Incoming.request : Incoming → Option Header
  | .packet p => if p.header.isRequest then some p.header else none
  | _ => none

/-- The expiry of the handshake, or of its last retransmission. -/
def Input.HandshakeExpired (i : Input) : Prop :=
  i.kind = .timerExpired ∧ (i.timer = .handshake ∨ i.timer = .retry)

variable [BasePackage]

/-- An answer that is credited to the probe `k`. -/
structure Credits (host realm : Bytes) (k : Control) (p : Packet) : Prop where
  correlated : matchesControl (some k) p.header = true
  grammar : validateMessage p = none
  success : ∃ parsed, parseDWA p = .ok parsed ∧ parsed.resultCode = successCode
  noError : p.header.isError = false
  parsed : (parseDWR p).2 = none
  host : equalIdentity (parseDWR p).1.originHost host = true
  realm : equalIdentity (parseDWR p).1.originRealm realm = true

/-- The report an operation carries completes nothing. -/
def Operation.Plain (op : Operation) : Prop :=
  ∀ n ∈ op.notice, n.kind ≠ .handshake ∧ n.kind ≠ .disconnect

/-- A write of the core's own exchange `r`. -/
structure Operation.OwnOf (op : Operation) (r : Nat) : Prop where
  control : op.control = some r
  required : op.required = false
  closeAfter : op.closeAfter = false
  queued : op.queued = false
  reported : op.reported = false
  plain : op.Plain

/-- The effect that asks for this write. -/
structure Effect.OwnSend (e : Effect) (token : Nat) (m : Packet) : Prop where
  kind : e.kind = .send
  required : e.required = false
  closeAfter : e.closeAfter = false
  token : e.token = token
  message : e.message = some m

/-- An exchange that has just begun. -/
structure Control.Fresh (k : Control) : Prop where
  logical : k.logical = true
  released : k.released = false
  written : k.written = false
  writers : k.writers = 0
  attempts : k.attempts = 0

inductive Move (i : Input) : Work → Work → Prop where
  /-- Timers, diagnostics and other bookkeeping; after the end only reports. -/
  | quiet {w : Work} {e : Effect} : e.Quiet → (w.Running ∨ w.sealed = true ∧ e.kind = .notify) →
      Move i w (w.emit e)
  | tick {w : Work} : w.Running → Move i w (w.set fun s => { s with serial := s.serial + 1 })
  | arm {w : Work} {k : TimerKind} {d : Int} : w.Running → w.state.Arms i k →
      Move i w (w.set fun s => { s with
        serial := s.serial + 1, timers := Function.update s.timers k ⟨s.serial + 1, d⟩ })
  | stop {w : Work} {k : TimerKind} : w.Running → w.state.Stops k →
      Move i w (w.set fun s => { s with timers := s.timers.stop k })
  -- An expiry waits for the messages that were received before it.
  | deferred {w : Work} {j : Input} : w.Running → j.timer = .watchdog →
      (w.state.timers .watchdog).token = j.token → j.token ≠ 0 →
      (w.state.timers .watchdog).deadline ≤ j.time → w.state.sequence < j.afterReceive →
      Move i w (w.set fun s => { s with deferred := some j })
  | advance {w : Work} {n : Nat} : w.state.sequence ≤ n →
      (∀ j ∈ w.state.deferred, n < j.afterReceive) →
      Move i w (w.set fun s => { s with sequence := n })
  -- An expiry that has waited long enough is gone once its timer is.
  | expired {w : Work} {n : Nat} :
      (∀ j ∈ w.state.deferred, (w.state.timers .watchdog).token = j.token →
        (w.state.timers .watchdog).token = 0 ∨ j.time < (w.state.timers .watchdog).deadline ∨
          ¬ w.state.Watched) →
      Move i w (w.set fun s => { s with sequence := n, deferred := none })
  | outcome {w : Work} {o : Outcome} : w.Running → o.refusal = false →
      Move i w (w.set fun s => { s with closeOutcome := o })
  | keepCER {w : Work} : w.Running → i.HandshakeExpired →
      Move i w (w.set fun s => { s with lateCER := s.hook })
  | unsupervise {w : Work} : w.Running → Move i w (w.set fun s => { s with
      supervised := false, wd := { s.wd with pending := false }, wdNext := none
      timers := s.timers.stop .watchdog })
  -- No CER is left undecided by then.
  | latch {w : Work} : w.Running → w.state.hook = 0 → w.state.candidate = 0 →
      Move i w (w.set fun s => { s with terminal := true })
  -- Start
  | startResponder {w : Work} : w.Running → w.state.role = .responder → w.state.phase = .preCER →
      Move i w (w.set fun s => { s with started := true })
  | startInitiator {w : Work} {pending : Bool} : w.Running → w.state.role = .initiator →
      w.state.phase = .preCER → w.state.started = false →
      (w.state.handshakePending = true → pending = true) →
      Move i w (w.set fun s => { s with
        started := true, phase := .waitCEA, cerDeferred := true, handshakePending := pending })
  | reserveCER {w : Work} {e : Effect} : w.Running → i.kind ≠ .reserveResult →
      w.state.phase = .waitCEA → w.state.cerDeferred = true → e.kind = .reserveIDs → e.token = w.state.serial + 1 →
      Move i w ((w.set fun s => { s with cerDeferred := false }.reserve .capabilitiesExchange).emit e)
  -- Requests and their answers
  | hold {w : Work} {e : Effect} : w.Running → w.state.terminal = false →
      (w.state.hook ≠ 0 ∨ w.state.phase = .opened ∧ w.state.ready = false) → i.kind = .receive →
      e.kind = .hold → e.input = some { i with message := i.message.copy } →
      w.permit = i.message.request → Move i w { w.emit e with permit := none }
  | admitMessage {w : Work} {e : Effect} {p : Packet} : w.Running → i.kind = .receive →
      i.message = .packet p → e.kind = .admitMessage → e.message = some p →
      (w.state.phase = .opened ∧ w.state.ready = true ∨
        w.state.phase = .closing ∧ p.header.isRequest = false ∧ i.ownership ≠ 0 ∧
          p.header.isBase .capabilitiesExchange = false ∧ p.header.isBase .deviceWatchdog = false) →
      (p.header.isBase .capabilitiesExchange = true ∨ p.header.isBase .deviceWatchdog = true ∨
        ¬ (w.state.supervised = true ∧ w.state.wd.state = .reopen)) →
      w.permit = i.message.request → Move i w { w.emit e with permit := none }
  | runHook {w : Work} {e : Effect} {k : Continuation} {h : Header} : w.Running →
      w.permit = some h → k.packet.header = h →
      (h.commandCode = BaseCommand.capabilitiesExchange.code ∨
        h.commandCode = BaseCommand.deviceWatchdog.code) →
      (w.state.phase = .preCER → h.commandCode = BaseCommand.capabilitiesExchange.code ∧
        w.state.role = .responder ∧ w.state.candidate = 0 ∧ w.state.hook = 0 ∧
        w.state.terminal = false) →
      (k.repeatedCER = true ↔ w.state.phase = .opened ∧
        h.commandCode = BaseCommand.capabilitiesExchange.code) →
      (h.commandCode = BaseCommand.capabilitiesExchange.code →
        w.state.phase = .preCER ∨ w.state.phase = .opened) →
      e.kind = .runHook → e.token = w.state.serial + 1 →
      Move i w { (w.set fun s => { s with
          serial := s.serial + 1
          continuations := s.continuations.insert (s.serial + 1) k
          passive := if s.phase = .preCER then false else s.passive
          hook := if s.phase = .preCER then s.serial + 1 else s.hook }).emit e with permit := none }
  | resume {w : Work} {k : Continuation} : w.Running → i.kind = .continue →
      w.state.continuations.lookup i.token = some k → w.permit = none →
      Move i w { w.set (fun s => { s with
          continuations := s.continuations.erase i.token
          hook := if s.hook = i.token then 0 else s.hook }) with permit := some k.packet.header }
  | impassive {w : Work} : w.Running → Move i w (w.set fun s => { s with passive := false })
  | candidate {w : Work} {e : Effect} {p : Packet} {h : Header} {host realm : Bytes} : w.Running →
      w.permit = some h → w.state.phase = .preCER → w.state.role = .responder →
      w.state.candidate = 0 → w.state.passive = false →
      w.state.hook = 0 ∧ w.state.terminal = false →
      (∀ {a : Header}, Answers a p.header → Answers a h) →
      e.kind = .validatedCER → e.token = w.state.serial + 1 →
      Move i w { (w.set fun s => { s with
          serial := s.serial + 1, candidate := s.serial + 1, cer := some p,
          host := host, realm := realm
          timers := if s.policy.peerOwnsDeadline then s.timers.stop .handshake
            else s.timers }).emit e with permit := none }
  | answer {w : Work} {e : Effect} {a : Packet} {op : Operation} {h : Header} : w.Running →
      w.permit = some h → Answers a.header h → op.control = none → op.queued = false → op.Plain →
      (e.closeAfter = true →
        w.state.terminal = false ∧ w.state.hook = 0 ∧ w.state.candidate = 0) →
      op.closeAfter = e.closeAfter →
      e.kind = .send → e.required = true → e.message = some a → e.token = w.state.serial + 1 →
      Move i w { (w.set fun s => { s with
          serial := s.serial + 1
          terminal := s.terminal || e.closeAfter
          leases := { s.leases with
            operations := s.leases.operations.insert (s.serial + 1) op } }).emit e with
        permit := none }
  -- Admission
  | activate {w : Work} {e : Effect} : w.Running → i.kind = .activate → w.permit = none →
      w.state.phase = .preCER → w.state.candidate ≠ 0 → i.token = w.state.candidate →
      e.kind = .publish →
      Move i w { (w.set fun s => { s with
          candidate := 0
          wd := if i.recovery then { s.wd with state := .down } else s.wd
          phase := .opened, handshakePending := true, serial := s.serial + 1,
          admission := s.serial + 1
          timers := s.timers.stop .handshake }).emit e with
        permit := w.state.cer.map Packet.header }
  | rejectCandidate {w : Work} : w.Running → i.kind = .rejectCandidate → w.permit = none →
      w.state.candidate ≠ 0 → i.token = w.state.candidate →
      Move i w { w.set (fun s => { s with candidate := 0 }) with
        permit := w.state.cer.map Packet.header }
  | settleCER {w : Work} {r : Nat} {es : List Effect} : w.Running →
      (w.state.phase = .waitCEA ∨ w.state.phase = .preCER ∧ w.state.role = .initiator) →
      w.state.leases.controls .capabilitiesExchange = some r →
      Releases (w.state.leases.settle r).2 es →
      Move i w ((w.set fun s => { s with leases := (s.leases.settle r).1 }).emits es)
  | admitted {w : Work} {e : Effect} {host realm : Bytes} : w.Running →
      (w.state.phase = .waitCEA ∨ w.state.phase = .preCER ∧ w.state.role = .initiator) →
      e.kind = .publish →
      Move i w ((w.set fun s => { s with
        phase := .opened, handshakePending := true, serial := s.serial + 1,
        admission := s.serial + 1, host := host, realm := realm
        timers := (s.timers.stop .handshake).stop .retry }).emit e)
  | handshakeReady {w : Work} {e : Effect} : w.Running → w.state.phase = .opened →
      e.kind = .handshakeReady →
      Move i w ((w.set fun s => { s with callbackReady := true }).emit e)
  | releaseAdmission {w : Work} {e : Effect} : w.Running → i.kind = .releaseAdmission →
      w.state.phase = .opened → w.state.ready = false → w.state.supervised = false →
      e.IsHandshakeNotice →
      Move i w ((w.set fun s => { s with ready := true, handshakePending := false }).emit e)
  | releaseSupervised {w : Work} {e : Effect} {n : Nat} {ts : Timers} : w.Running →
      i.kind = .releaseAdmission →
      w.state.phase = .opened → w.state.ready = false → w.state.supervised = true →
      (w.state.wd.step .connectionUp).2.send = false →
      (if (w.state.wd.step .connectionUp).2.reset then w.state.Rearms n ts
        else n = w.state.serial ∧ ts = w.state.timers) → e.IsHandshakeNotice →
      Move i w ((w.set fun s => { s with
        ready := true, handshakePending := false, wd := (s.wd.step .connectionUp).1
        serial := n, timers := ts }).emit e)
  -- A core that recovers probes at once.
  | releaseRecovering {w : Work} {e f : Effect} : w.Running → i.kind = .releaseAdmission →
      w.state.phase = .opened → w.state.ready = false → w.state.supervised = true →
      (w.state.wd.step .connectionUp).2.send = true → e.IsHandshakeNotice →
      f.kind = .reserveIDs → f.token = w.state.serial + 1 →
      Move i w ((w.set fun s => { s with
        ready := true, handshakePending := false
        wd := { (s.wd.step .connectionUp).1 with pending := false }
        wdNext := some (s.wd.step .connectionUp).1 }.reserve .deviceWatchdog).emits [e, f])
  -- Watchdog
  | wdStep {w : Work} {ev : Watchdog.Event} : w.Running → w.state.phase = .opened →
      w.state.supervised = true →
      (ev = .receive ∨ ev = .expired ∧ w.state.wdNext = none) →
      (w.state.wd.step ev).2.send = false → (w.state.wd.step ev).2.close = false →
      Move i w (w.set fun s => { s with wd := (s.wd.step ev).1 })
  | probe {w : Work} {e : Effect} : w.Running → i.kind ≠ .reserveResult →
      w.state.phase = .opened → w.state.supervised = true → w.state.wdNext = none →
      (w.state.wd.step .expired).2.send = true → e.kind = .reserveIDs →
      e.token = w.state.serial + 1 →
      Move i w ((w.set fun s => { s with
        wdNext := some (s.wd.step .expired).1
        timers := s.timers.stop .watchdog }.reserve .deviceWatchdog).emit e)
  | published {w : Work} {next : Watchdog.Machine} {n : Nat} {ts : Timers} : w.Running →
      w.state.phase = .opened → w.state.wdNext = some next → w.state.Rearms n ts →
      Move i w (w.set fun s => { s with wd := next, wdNext := none, serial := n, timers := ts })
  | consume {w : Work} {r : Nat} : w.Running → Move i w (w.set fun s => { s with
      leases := { s.leases with heap := s.leases.heap.modify r fun k =>
        { k with answered := true } } })
  | credit {w : Work} {r : Nat} {k : Control} {p : Packet} {es : List Effect} : w.Running →
      w.state.phase = .opened → w.state.supervised = true → i.message = .packet p →
      w.state.leases.controls .deviceWatchdog = some r → w.state.leases.heap[r]? = some k →
      Credits w.state.host w.state.realm k p →
      (0 < w.state.policy.watchdogInterval → (w.state.timers .watchdog).token ≠ 0) →
      Releases (w.state.leases.settle r).2 es →
      Move i w ((w.set fun s => { s with
        wd := ((s.wdNext.getD s.wd).step .receiveDWA).1, wdNext := none
        leases := (s.leases.settle r).1 }).emits es)
  -- Disconnect
  | beginClosing {w : Work} {e : Effect} {es : List Effect} {n : Nat} {isLocal : Bool}
      {ts : Timers} : w.Running → w.state.phase = .opened →
      w.state.Closes i.time
        (if i.timeout ≤ 0 then w.state.policy.closingTimeout else i.timeout) n ts → (isLocal = true → i.kind = .disconnect ∧ w.state.waiting = false) →
      (isLocal = false → w.permit = i.message.request ∧ w.permit.isSome = true) →
      (∀ e ∈ es, e.Quiet) →
      e.kind = .freezeAdmission → e.token = w.state.serial + 1 →
      Move i w { ((w.set fun s => { s with
          phase := .closing, ready := false, closeLocal := isLocal, closeRequest := i.message,
          serial := n, fence := s.serial + 1, timers := ts
          waiting := if isLocal then true else s.waiting
          disconnectToken := if isLocal then i.token else s.disconnectToken }).emits es).emit e with
        permit := none }
  | frozen {w : Work} : w.Running → i.kind = .frozen → w.state.phase = .closing →
      w.state.frozen = false → i.token = w.state.fence → w.state.closeLocal = false →
      w.permit = none →
      Move i w { w.set (fun s => { s with frozen := true, fence := 0, closeRequest := .absent }) with
        permit := w.state.closeRequest.metadata }
  | frozenLocal {w : Work} {e : Effect} : w.Running → i.kind = .frozen → w.state.phase = .closing →
      w.state.frozen = false → i.token = w.state.fence → w.state.closeLocal = true →
      e.kind = .reserveIDs → e.token = w.state.serial + 1 →
      Move i w ((w.set fun s =>
        { s with frozen := true, fence := 0 }.reserve .disconnectPeer).emit e)
  | disconnectClosing {w : Work} {e : Effect} : w.Running → i.kind = .disconnect →
      w.state.phase = .closing → w.state.frozen = true → w.state.closeLocal = false →
      w.state.waiting = false → e.kind = .reserveIDs → e.token = w.state.serial + 1 →
      Move i w ((w.set fun s => { s with
        waiting := true, disconnectToken := i.token }.reserve .disconnectPeer).emit e)
  | dpaSettled {w : Work} {r : Nat} {k : Control} {es : List Effect} : w.Running →
      w.state.leases.controls .disconnectPeer = some r → w.state.leases.heap[r]? = some k →
      k.logical = true → Releases (w.state.leases.settle r).2 es →
      Move i w ((w.set fun s => { s with
        earlyDPA := true, leases := (s.leases.settle r).1 }).emits es)
  -- The end
  | terminate {w : Work} {phase : Phase} {es : List Effect} : w.Running → phase.ended = true →
      TerminalEffects w.state phase es →
      Move i w { (w.set fun s => s.ended phase).emits es with sealed := true }
  | disconnected {w : Work} {es : List Effect} {e : Effect} : w.Running → w.state.earlyDPA = true →
      TerminalEffects { w.state with waiting := false } .closed es →
      e.IsDisconnectNotice w.state.disconnectToken .completed →
      Move i w { ((w.set fun s => s.ended .closed).emits es).emit e with sealed := true }
  -- Results for reservations and writes, which an ended core also takes
  | reserveFailed {w : Work} {cmd : BaseCommand} : w.sealed = false → i.kind = .reserveResult →
      i.err.isSome = true → w.state.leases.reservations.lookup i.token = some cmd →
      Move i w (w.set fun s => { s with
        leases := { s.leases with reservations := s.leases.reservations.erase i.token } })
  | returned {w : Work} {cmd : BaseCommand} {e : Effect} : w.sealed = false →
      i.kind = .reserveResult → i.err = none →
      w.state.leases.reservations.lookup i.token = some cmd →
      (w.state.phase.ended = true ∨ cmd = .deviceWatchdog ∧ w.state.phase ≠ .opened) →
      e.kind = .releaseIDs → e.reservation = i.reservation →
      Move i w ((w.set fun s => { s with
        leases := { s.leases with reservations := s.leases.reservations.erase i.token } }).emit e)
  -- A request that cannot be built: the connection ends next.
  | exchange {w : Work} {k : Control} : w.Running → i.kind = .reserveResult → i.err = none →
      w.state.leases.reservations.lookup i.token = some k.command →
      (k.command = .deviceWatchdog → w.state.phase = .opened) → k.reservation = i.reservation →
      k.Fresh → k.frame = none →
      Move i w (w.set fun s => { s with leases := s.leases.exchange i.token k })
  | request {w : Work} {k : Control} {op : Operation} {m : Packet} {e : Effect} : w.Running →
      i.kind = .reserveResult → i.err = none →
      w.state.leases.reservations.lookup i.token = some k.command →
      (k.command = .deviceWatchdog → w.state.phase = .opened) → k.reservation = i.reservation →
      k.Fresh → k.frame.map Packet.header = some m.header → m.header.Asks k.command →
      op.OwnOf w.state.leases.heap.length → e.OwnSend (w.state.serial + 1) m →
      Move i w ((w.set fun s => { s with
        serial := s.serial + 1
        leases := (s.leases.exchange i.token k).send (s.serial + 1) s.leases.heap.length op }).emit
        e)
  | retransmit {w : Work} {r : Nat} {k : Control} {op : Operation} {m : Packet} {e : Effect} :
      w.Running → i.kind = .timerExpired ∧ (w.state.timers .retry).token ≠ 0 →
      w.state.leases.heap[r]? = some k → k.logical = true →
      w.state.leases.controls .capabilitiesExchange = some r →
      k.frame.map Packet.header = some m.header → op.OwnOf r → e.OwnSend (w.state.serial + 1) m →
      Move i w ((w.set fun s => { s with
        serial := s.serial + 1, timers := s.timers.stop .retry
        leases := s.leases.send (s.serial + 1) r op }).emit e)
  | finishWrite {w : Work} {op : Operation} {written : Bool} {es : List Effect} : w.sealed = false →
      i.kind = .writeResult → Batch.isFinal i = true →
      w.state.leases.operations.lookup i.token = some op → (i.stage = .queue → op.queued = false) →
      Releases (w.state.leases.writeDone i.token op written).2 es →
      Move i w ((w.set fun s => { s with
        leases := (s.leases.writeDone i.token op written).1 }).emits es)
  | progress {w : Work} {op op' : Operation} : w.sealed = false → i.kind = .writeResult →
      i.stage = .queue → i.err = none → w.state.leases.operations.lookup i.token = some op →
      op'.control = op.control → op'.closeAfter = op.closeAfter → op'.notice = op.notice →
      op'.queued = true →
      Move i w (w.set fun s => { s with
        leases := { s.leases with operations := s.leases.operations.insert i.token op' } })
  | skipped {w : Work} {op : Operation} {r : Nat} {k : Control} {es : List Effect} :
      w.sealed = false → i.kind = .writeResult → i.stage = .skipped →
      w.state.leases.operations.lookup i.token = some op → op.control = some r →
      w.state.leases.heap[r]? = some k → Releases (w.state.leases.writeSkipped i.token r).2 es →
      (k.command = .deviceWatchdog → k.written = false → k.logical = false) →
      Move i w ((w.set fun s => { s with leases := (s.leases.writeSkipped i.token r).1 }).emits es)
  -- A probe that never reached the transport was not sent.
  | skippedProbe {w : Work} {op : Operation} {r : Nat} {k : Control} {es : List Effect} :
      w.sealed = false → i.kind = .writeResult → i.stage = .skipped →
      w.state.leases.operations.lookup i.token = some op → op.control = some r →
      w.state.leases.heap[r]? = some k → Releases (w.state.leases.writeSkipped i.token r).2 es →
      k.command = .deviceWatchdog → k.written = false → k.logical = true →
      Move i w ((w.set fun s => { s with
        leases := (s.leases.writeSkipped i.token r).1
        wdNext := none, wd := { s.wd with pending := false } }).emits es)

/-! ### What a move emits -/

/-- The conditions under which messages are held, passed on and sent. -/
def Work.Emits (w : Work) (i : Input) (x : Effect) : Prop :=
  match x.kind with
  | .hold => w.state.terminal = false
  | .admitMessage => w.permit = i.message.request ∧ i.kind = .receive
  | .send => if x.required then w.permit.isSome = true
      else i.kind = .reserveResult ∨ i.kind = .timerExpired
  | _ => True

omit [BasePackage] in
theorem Work.emits_of_ne {w : Work} {x : Effect} (h1 : x.kind ≠ .hold)
    (h2 : x.kind ≠ .admitMessage) (h3 : x.kind ≠ .send) : w.Emits i x := by
  unfold Work.Emits
  split
  · exact (h1 ‹_›).elim
  · exact (h2 ‹_›).elim
  · exact (h3 ‹_›).elim
  · trivial

theorem Move.emits {w w' : Work} (hm : Move i w w') :
    ∃ es, w'.effects = w.effects ++ es ∧ ∀ x ∈ es, w.Emits i x := by
  have hnil : ∃ es, w.effects = w.effects ++ es ∧ ∀ x ∈ es, w.Emits i x :=
    ⟨[], (List.append_nil _).symm, List.forall_mem_nil _⟩
  have hone : ∀ {e : Effect}, w.Emits i e → ∃ es, w.effects ++ [e] = w.effects ++ es ∧
      ∀ x ∈ es, w.Emits i x := by
    intro e he
    refine ⟨[e], rfl, fun x hx => ?_⟩
    rw [List.mem_singleton.1 hx]
    exact he
  have hkind : ∀ {e : Effect} {k : EffectKind}, e.kind = k → k ≠ .hold → k ≠ .admitMessage →
      k ≠ .send → w.Emits i e := by
    rintro e k rfl h1 h2 h3
    exact Work.emits_of_ne h1 h2 h3
  have hrel : ∀ {l : List Reservation} {es : List Effect}, Releases l es →
      ∀ x ∈ es, w.Emits i x := by
    intro l es hr x hx
    exact hkind (hr.1 x hx) (by decide) (by decide) (by decide)
  have hquiet : ∀ {e : Effect}, e.Quiet → w.Emits i e := by
    intro e hq
    exact Work.emits_of_ne (hq.ne_kind (by decide)) (hq.ne_kind (by decide))
      (hq.ne_kind (by decide))
  have hterm : ∀ {s : State} {f : Phase} {es : List Effect}, TerminalEffects s f es →
      ∀ x ∈ es, w.Emits i x := by
    intro s f es ht x hx
    exact Work.emits_of_ne (ht.ne_kind (by decide) x hx) (ht.ne_kind (by decide) x hx)
      (ht.ne_kind (by decide) x hx)
  cases hm
  case quiet hq _ => exact hone (hquiet hq)
  case hold ht _ _ hk _ _ =>
    refine hone ?_
    rw [Work.Emits, hk]
    exact ht
  case admitMessage hkd _ hk _ _ _ hq =>
    refine hone ?_
    rw [Work.Emits, hk]
    exact ⟨hq, hkd⟩
  case answer hq _ _ _ _ _ _ hk hr _ _ =>
    refine hone ?_
    rw [Work.Emits, hk]
    simp [hr, hq]
  case request hkd _ _ _ _ _ _ _ _ he =>
    refine hone ?_
    rw [Work.Emits, he.kind]
    simp [he.required, hkd]
  case retransmit hkd _ _ _ _ _ he =>
    refine hone ?_
    rw [Work.Emits, he.kind]
    simp [he.required, hkd.1]
  case releaseAdmission hn | releaseSupervised hn =>
    exact hone (hkind hn.1 (by decide) (by decide) (by decide))
  case releaseRecovering hn hk _ =>
    refine ⟨_, rfl, fun x hx => ?_⟩
    rcases List.mem_pair.1 hx with rfl | rfl
    · exact hkind hn.1 (by decide) (by decide) (by decide)
    · exact hkind hk (by decide) (by decide) (by decide)
  case settleCER hr | credit hr | dpaSettled hr | finishWrite hr => exact ⟨_, rfl, hrel hr⟩
  case skipped hr _ => exact ⟨_, rfl, hrel hr⟩
  case skippedProbe hr _ _ _ => exact ⟨_, rfl, hrel hr⟩
  case beginClosing e es _ _ _ _ _ _ _ _ hes hk _ =>
    refine ⟨es ++ [e], List.append_assoc _ _ _, fun x hx => ?_⟩
    rcases List.mem_append.1 hx with hx | hx
    · exact hquiet (hes x hx)
    · rw [List.mem_singleton.1 hx]
      exact hkind hk (by decide) (by decide) (by decide)
  case terminate ht => exact ⟨_, rfl, hterm ht⟩
  case disconnected es e _ _ ht hn =>
    refine ⟨es ++ [e], List.append_assoc _ _ _, fun x hx => ?_⟩
    rcases List.mem_append.1 hx with hx | hx
    · exact hterm ht x hx
    · rw [List.mem_singleton.1 hx]
      exact hkind hn.1 (by decide) (by decide) (by decide)
  all_goals first
    | exact hnil
    | exact hone (hkind (by assumption) (by decide) (by decide) (by decide))

theorem Move.stamped {w w' : Work} (hm : Move i w w') (hw : w.state.Stamped) :
    w'.state.Stamped := by
  have hsucc : ∀ k, (w.state.timers k).token ≤ w.state.serial + 1 := fun k =>
    (hw k).trans (Nat.le_succ _)
  cases hm
  case arm k d _ _ => exact Timers.update_le hw k d
  case stop | unsupervise => exact Timers.stop_le hw _
  case candidate =>
    intro k
    show ((if w.state.policy.peerOwnsDeadline then w.state.timers.stop .handshake
      else w.state.timers) k).token ≤ w.state.serial + 1
    split
    · exact Timers.stop_le hsucc _ k
    · exact hsucc k
  case activate | probe | retransmit => exact Timers.stop_le hsucc _
  case admitted => exact Timers.stop_le (Timers.stop_le hsucc _) _
  case releaseSupervised hr _ =>
    split at hr
    · exact hw.rearms hr
    · obtain ⟨rfl, rfl⟩ := hr
      exact hw
  case published hr => exact hw.rearms hr
  case beginClosing hc _ _ _ _ _ => exact hc.tokens hw
  case terminate | disconnected => exact Timers.foldl_stop_le _ hw
  all_goals first
    | exact hw
    | exact hsucc

/-- A sequence of moves. -/
inductive Moves (i : Input) : Work → Work → Prop where
  | refl {w : Work} : Moves i w w
  | cons {w w' w'' : Work} : Move i w w' → Moves i w' w'' → Moves i w w''

namespace Moves

theorem single {w w' : Work} (h : Move i w w') : Moves i w w' := .cons h .refl

theorem trans {w w' w'' : Work} (h1 : Moves i w w') (h2 : Moves i w' w'') : Moves i w w'' := by
  induction h1 with
  | refl => exact h2
  | cons h _ ih => exact .cons h (ih h2)

theorem invariant {P : Work → Prop} (step : ∀ {w w'}, Move i w w' → P w → P w') {w w' : Work}
    (h : Moves i w w') (hw : P w) : P w' := by
  induction h with
  | refl => exact hw
  | cons hm _ ih => exact ih (step hm hw)

end Moves

end Diameter.Protocol
