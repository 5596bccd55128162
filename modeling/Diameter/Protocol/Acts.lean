import Diameter.Protocol.RefineReplies

/-!
# Protocol.Acts

What the executor can see of a connection core, step by step. The moves of `Protocol.Moves` keep the
state of a core apart from the effects that report its timers and tokens; here the two are kept
together. A `Desk` is what core and executor have on the table between them: timers, tokens, writes
and the disconnect of the peer, together with the effects emitted so far. `Act` lists everything the
code does to it.

Two of its parts are not in the source. `owed` holds the tokens that are taken and not yet given
out; a batch may take one and emit other effects before the one that carries it. `due` is the report
of the write whose result is handled, until it is made.
-/

namespace Diameter.Protocol

open Lib

variable {f : Core → Core} {kind : ErrorKind} {code : UInt32}
variable {n : Notification} {e : Effect} {err : ProtocolError}

structure Desk where
  serial : Nat
  timers : Timers
  operations : GoMap Nat Operation
  peerDPR : Bool
  peerCause : UInt32
  selected : Bool
  frozen : Bool
  /-- The peer has asked for the disconnect that is under way. -/
  remote : Bool
  effects : List Effect
  owed : List Nat
  due : Option Notification

/-- Effects that ask for a completion with their token, timers and writes apart. -/
def EffectKind.issues : EffectKind → Bool
  | .reserveIDs | .publish | .validatedCER | .runHook | .freezeAdmission => true
  | _ => false

/-- Reports that are no outcome of a write. -/
structure Notification.Idle (n : Notification) : Prop where
  kind : n.kind ≠ .peerDisconnect
  queued : n.reply ≠ .queued
  written : n.reply ≠ .written

theorem Notification.Idle.amend {n' : Notification} (h : n.Idle)
    (hn : n'.kind = n.kind ∧ n'.reply = n.reply) : n'.Idle :=
  ⟨hn.1 ▸ h.kind, hn.2 ▸ h.queued, hn.2 ▸ h.written⟩

/-- Effects that leave the desk as it is. -/
def Effect.Inert (e : Effect) : Prop :=
  match e.kind with
  | .reserveIDs | .publish | .validatedCER | .runHook | .freezeAdmission | .send | .armTimer
  | .stopTimer | .peerDisconnectDecision => False
  | .notify => e.notification.Idle
  | _ => True

/-- The octets of the message an effect carries. -/
def Effect.size (e : Effect) : Int := (e.message.map fun m => m.message.len).getD 0

/-- The write an effect asks for. -/
structure Effect.Writes (e : Effect) (token : Nat) (op : Operation) : Prop where
  kind : e.kind = .send
  token : e.token = token
  required : op.required = e.required
  alone : op.required = true → op.control = none
  queued : op.queued = false
  reported : op.reported = false
  length : op.length = e.size

namespace Desk

def emit (d : Desk) (e : Effect) : Desk := { d with effects := d.effects ++ [e] }

def write (d : Desk) (e : Effect) (op : Operation) : Desk :=
  { d.emit e with serial := d.serial + 1, operations := d.operations.insert (d.serial + 1) op }

end Desk

/-- The packet is a DPR. -/
def isDPR (p : Packet) : Bool := p.header.isBase .disconnectPeer && p.header.isRequest

/-- The input brings a DPR. -/
def Input.BringsDPR (i : Input) : Prop :=
  i.kind = .receive ∧ ∃ p, i.message = .packet p ∧ isDPR p = true

inductive Act (i : Input) : Desk → Desk → Prop where
  | inert {d : Desk} {e : Effect} : e.Inert → Act i d (d.emit e)
  -- Tokens
  | take {d : Desk} : Act i d { d with serial := d.serial + 1, owed := (d.serial + 1) :: d.owed }
  | issue {d : Desk} {e : Effect} : e.kind.issues = true → e.token ∈ d.owed →
      Act i d { d.emit e with owed := d.owed.erase e.token }
  -- Timers
  | arm {d : Desk} {k : TimerKind} {t : Int} {e : Effect} : (d.timers k).token = 0 →
      e.kind = .armTimer → e.timer = k → e.token = d.serial + 1 → e.deadline = t →
      Act i d { d.emit e with
        serial := d.serial + 1, timers := Function.update d.timers k ⟨d.serial + 1, t⟩ }
  | stop {d : Desk} {k : TimerKind} {e : Effect} : (d.timers k).token ≠ 0 → e.kind = .stopTimer →
      e.timer = k → e.token = (d.timers k).token →
      Act i d { d.emit e with timers := Function.update d.timers k {} }
  -- Writes and their results
  | send {d : Desk} {e : Effect} {op : Operation} : e.Writes (d.serial + 1) op →
      (∀ n ∈ op.notice, n.kind ≠ .peerDisconnect) → Act i d (d.write e op)
  | finish {d : Desk} {op : Operation} : i.kind = .writeResult →
      d.operations.lookup i.token = some op →
      Act i d { d with operations := d.operations.erase i.token
                       due := if op.reported then none else op.notice }
  | queue {d : Desk} {op : Operation} : i.kind = .writeResult →
      d.operations.lookup i.token = some op →
      Act i d { d with operations := d.operations.insert i.token { op with queued := true } }
  | note {d : Desk} {op : Operation} : i.kind = .writeResult →
      d.operations.lookup i.token = some op → op.reported = false →
      Act i d { d with operations := d.operations.insert i.token { op with
                         queued := true, reported := true }
                       due := op.notice }
  | announce {d : Desk} {e : Effect} {n : Notification} : d.due = some n → e.kind = .notify →
      e.notification.kind = n.kind → e.notification.cause = n.cause →
      Act i d { d.emit e with due := none }
  -- The disconnect of the peer
  | decide {d : Desk} {e : Effect} : i.BringsDPR → d.peerDPR = false →
      e.kind = .peerDisconnectDecision →
      Act i d { d.emit e with peerDPR := true, peerCause := e.cause }
  | closing {d : Desk} {v : Bool} : (v = true → d.peerDPR = true) → Act i d { d with remote := v }
  | freeze {d : Desk} : Act i d { d with frozen := true }
  | select {d : Desk} {e : Effect} {op : Operation} {n : Notification} :
      e.Writes (d.serial + 1) op → op.notice = some n → n.kind = .peerDisconnect →
      n.cause = d.peerCause → n.protocol = none → d.selected = false → d.frozen = true →
      (d.remote = true ∨ d.peerDPR = true) → Act i d { d.write e op with selected := true }

/-- A sequence of acts. -/
inductive Acts (i : Input) : Desk → Desk → Prop where
  | refl {d : Desk} : Acts i d d
  | cons {d d' d'' : Desk} : Act i d d' → Acts i d' d'' → Acts i d d''

namespace Acts

variable {i : Input} {d d' d'' : Desk}

theorem single (h : Act i d d') : Acts i d d' := .cons h .refl

theorem trans (h1 : Acts i d d') (h2 : Acts i d' d'') : Acts i d d'' := by
  induction h1 with
  | refl => exact h2
  | cons h _ ih => exact .cons h (ih h2)

theorem invariant {P : Desk → Prop} (step : ∀ {d d'}, Act i d d' → P d → P d')
    (h : Acts i d d') (hd : P d) : P d' := by
  induction h with
  | refl => exact hd
  | cons ha _ ih => exact ih (step ha hd)

end Acts

/-! ## The desk of a batch -/

/-- The disconnect under way is the peer's. -/
def Core.remote (c : Core) : Bool := c.phase = .closing && !c.closeLocal

def Batch.desk (b : Batch) (owed : List Nat) (due : Option Notification) : Desk :=
  ⟨b.core.serial, b.core.timers, b.core.operations, b.core.peerDPR, b.core.peerCause,
    b.core.peerDisconnectSelected, b.core.frozen, b.core.remote, b.effects.map Effect.bare, owed,
    due⟩

/-- The code gets from `b` to `b'` by acts, and leaves nothing owed that was not before. -/
def Does (i : Input) (b b' : Batch) : Prop := ∀ o u, Acts i (b.desk o u) (b'.desk o u)

section

variable {i : Input} {b b' b'' : Batch}

theorem Does.of_eq (h : ∀ o u, b'.desk o u = b.desk o u) : Does i b b' :=
  fun o u => h o u ▸ .refl

theorem Does.refl : Does i b b := .of_eq fun _ _ => rfl

theorem Does.trans (h1 : Does i b b') (h2 : Does i b' b'') : Does i b b'' :=
  fun o u => (h1 o u).trans (h2 o u)

theorem Does.act (h : ∀ o u, Act i (b.desk o u) (b'.desk o u)) : Does i b b' :=
  fun o u => .single (h o u)

end

theorem Batch.emit_desk (b : Batch) (e : Effect) (o : List Nat) (u : Option Notification) :
    (b.emit e).desk o u =
      (b.desk o u).emit { e with connection := b.core.cfg.connection, releaseDispatch := false } := by
  simp only [emit, desk, Desk.emit, List.map_append]
  rfl

theorem Acts.inert {i : Input} {d : Desk} {es : List Effect} (hes : ∀ e ∈ es, e.Inert) :
    Acts i d { d with effects := d.effects ++ es.map Effect.bare } := by
  induction es generalizing d with
  | nil =>
    rw [List.map_nil, List.append_nil]
    exact .refl
  | cons e es ih =>
    have he : e.bare.Inert := hes e (List.mem_cons_self ..)
    have hrest := ih (d := d.emit e.bare) fun e' h' => hes e' (List.mem_cons_of_mem _ h')
    refine .cons (.inert he) ?_
    rw [List.map_cons]
    simpa only [Desk.emit, List.append_assoc, List.singleton_append] using hrest

theorem Act.give {i : Input} {b : Batch} (he : e.kind.issues = true) (o : List Nat)
    (u : Option Notification) : Act i (b.desk (e.token :: o) u) ((b.emit e).desk o u) := by
  have hissue := Act.issue (i := i) (d := b.desk (e.token :: o) u) (e := { e with
    connection := b.core.cfg.connection, releaseDispatch := false }) he (List.mem_cons_self ..)
  have herase : (e.token :: o).erase e.token = o := List.erase_cons_head ..
  rw [Batch.emit_desk]
  simpa only [Batch.desk, Desk.emit, herase] using hissue

/-! ## Operations of the code -/

namespace Does

open Batch

variable {i j : Input} {b₀ b b' : Batch} (h : Does i b₀ b)
include h

theorem update (hf : ∀ o u, (b.update f).desk o u = b.desk o u) : Does i b₀ (b.update f) :=
  h.trans (.of_eq hf)

theorem phase (hf : ∀ o u, (b.update f).desk o u = { b.desk o u with remote := false }) :
    Does i b₀ (b.update f) := by
  refine h.trans fun o u => ?_
  rw [hf]
  exact .single (.closing nofun)

theorem emit (he : e.Inert) : Does i b₀ (b.emit e) := by
  refine h.trans (.act fun o u => ?_)
  rw [emit_desk]
  exact .inert he

theorem emits (es : List Effect) (hc : ∀ o u, b'.desk o u =
    { b.desk o u with effects := (b.effects ++ es).map Effect.bare })
    (hes : ∀ e ∈ es, e.Inert) : Does i b₀ b' := by
  refine h.trans fun o u => ?_
  rw [hc, List.map_append]
  exact .inert hes

theorem mark {n : Nat} : Does i b₀ (b.markRelease n) := by
  refine h.trans (.of_eq fun o u => ?_)
  simp only [desk, markRelease]
  rw [map_modify_of_eq]
  intro e
  rfl

theorem freed {l : Leases × List Reservation} (hf : Freed b b' l) : Does i b₀ b' := by
  obtain ⟨es, hes, hr⟩ := hf.effects
  obtain ⟨hp, cs, hc⟩ := hf.core
  refine h.emits es (fun o u => ?_) fun e he => ?_
  · simp only [desk, hc, hes]
    rfl
  · simp only [Effect.Inert, hr.1 e he]

theorem settle {r : Nat} : Does i b₀ (b.settle r) := h.freed (settle_freed b r)

/-! ### Timers and tokens -/

theorem arm {k : TimerKind} {t d : Int} (hv : (b.core.timers k).token = 0) :
    Does i b₀ (b.arm k t d) := by
  refine h.trans ?_
  unfold Batch.arm
  split
  · exact .refl
  refine .act fun o u => ?_
  rw [emit_desk]
  exact Act.arm (d := b.desk o u) (k := k) hv rfl rfl rfl rfl

theorem stop {k : TimerKind} : Does i b₀ (b.stop k) := by
  refine h.trans ?_
  unfold Batch.stop
  split
  · exact .refl
  rename_i hk
  refine .act fun o u => ?_
  rw [emit_desk]
  exact Act.stop (d := b.desk o u) (k := k) hk rfl rfl rfl

theorem watchdogArm {t d : Int} : Does i b₀ (b.watchdogArm t d) := by
  refine h.trans ?_
  unfold Batch.watchdogArm
  dsimp only
  generalize (if d ≤ 0 then b.core.cfg.watchdogInterval else d) = d'
  split
  · exact Does.refl.stop
  split
  next hk =>
    refine .act fun o u => ?_
    rw [emit_desk]
    exact Act.arm (d := b.desk o u) (k := .watchdog) hk rfl rfl rfl rfl
  next hk =>
    intro o u
    rw [emit_desk, emit_desk]
    refine .cons (Act.stop (d := b.desk o u) (k := .watchdog) (e := {
        kind := .stopTimer, timer := .watchdog, token := (b.core.timers .watchdog).token,
        connection := b.core.cfg.connection }) hk rfl rfl rfl)
      (.cons (Act.arm (k := .watchdog) (t := t + d') (e := {
        kind := .armTimer, timer := .watchdog, token := b.core.serial + 1,
        deadline := t + d', connection := b.core.cfg.connection }) ?_ rfl rfl rfl rfl) ?_)
    · show (Function.update b.core.timers .watchdog {} .watchdog).token = 0
      rw [Function.update_self]
    · simp only [desk, Desk.emit, Function.update_idem]
      exact .refl

theorem later
    (hf : ∀ o u, Acts i (b.desk o u) ((b.update f).desk ((b.core.serial + 1) :: o) u))
    (hd : Does i (b.update f) b') (he : e.kind.issues = true) (ht : e.token = b.core.serial + 1) :
    Does i b₀ (b'.emit e) := by
  refine h.trans fun o u => (hf o u).trans ((hd _ u).trans (.single ?_))
  rw [← ht]
  exact .give he o u

theorem issue (he : e.kind.issues = true) (ht : e.token = b.core.serial + 1)
    (hf : ∀ o u, (b.update f).desk o u = { b.desk o u with serial := b.core.serial + 1 }) :
    Does i b₀ ((b.update f).emit e) := by
  refine h.later (fun o u => ?_) .refl he ht
  rw [hf]
  exact .single .take

theorem reserve {cmd : BaseCommand} : Does i b₀ (b.reserve cmd) :=
  h.issue rfl rfl fun _ _ => rfl

end Does

/-! ### Writes -/

namespace Batch

theorem send_desk (b : Batch) (m : Packet) (o : SendOptions) (l : List Nat)
    (u : Option Notification) :
    (b.send m o).desk l u = (b.desk l u).write (o.effect b.core m) (o.operation m) := by
  unfold send
  rw [emit_desk]
  rfl

theorem notify_inert {c : Core} (h : n.Idle) : (c.notify n).Inert := by
  show (c.notify n).notification.Idle
  unfold Core.notify
  dsimp only
  split
  · exact ⟨h.kind, h.queued, h.written⟩
  · exact h

theorem failureNotice_idle (c : Core) (i : Input) (kind : ErrorKind) (code : UInt32) :
    (failureNotice c i kind code).Idle := by
  unfold failureNotice
  refine ⟨nofun, ?_, ?_⟩ <;> dsimp only <;> split <;> exact nofun

theorem failing_desk (b : Batch) (kind : ErrorKind) (o : List Nat) (u : Option Notification) :
    (b.update fun c => failing c kind).desk o u = b.desk o u := by
  obtain ⟨t, j, v, h, -⟩ := failing_eq b.core kind
  simp only [update, h]
  rfl

end Batch

namespace Does

open Batch

variable {i j : Input} {b₀ b b' : Batch} {p : Packet} (h : Does i b₀ b)
include h

theorem send {m : Packet} {o : SendOptions} (hr : o.required = true → o.control = none)
    (hn : ∀ n ∈ o.notice, n.kind ≠ .peerDisconnect) : Does i b₀ (b.send m o) := by
  refine h.trans (.act fun l u => ?_)
  rw [send_desk]
  exact .send ⟨rfl, rfl, rfl, hr, rfl, rfl, rfl⟩ hn

/-! ### Reports -/

theorem notify (hn : n.Idle) : Does i b₀ (b.notify n) :=
  h.emit (notify_inert hn)

theorem discard {kind : Option ErrorKind} : Does i b₀ (b.discard j kind code) := by
  unfold Batch.discard
  split
  · exact h.emit trivial
  · exact .notify (h.emit (e := { kind := .discard }) trivial) ⟨nofun, nofun, nofun⟩

theorem discard_amend {f : Notification → Notification}
    (hf : ∀ n, (f n).kind = n.kind ∧ (f n).reply = n.reply) :
    Does i b₀ ((b.discard j (some kind) code).amend f) := by
  unfold Batch.discard
  dsimp only
  rw [Batch.notify, amend_emit]
  refine .emit (h.emit (e := { kind := .discard }) trivial) ?_
  exact .amend (n := { kind := .protocol }) ⟨nofun, nofun, nofun⟩ (hf _)

theorem discardCause : Does i b₀ (b.discardCause j kind err) :=
  h.discard_amend fun _ => ⟨rfl, rfl⟩

/-! ### The end -/

theorem stopTimers : Does i b₀ b.stopTimers := by
  have hall : ∀ (ks : List TimerKind) (b : Batch), Does i b₀ b → Does i b₀ (ks.foldl Batch.stop b) := by
    intro ks
    induction ks with
    | nil => exact fun _ h => h
    | cons k ks ih => exact fun b h => ih _ h.stop
  exact hall _ b h

theorem cancelSends : Does i b₀ b.cancelSends := by
  obtain ⟨es, hc, he, hk⟩ := cancelSends_spec b
  refine h.emits es (fun o u => ?_) fun e he => ?_
  · simp only [desk, hc, he]
  · simp only [Effect.Inert, hk e he]

theorem completeHandshake : Does i b₀ b.completeHandshake := by
  unfold Batch.completeHandshake
  split
  · exact .emit (h.update fun _ _ => rfl) (notify_inert ⟨nofun, nofun, nofun⟩)
  · exact h

theorem completeDisconnect : Does i b₀ b.completeDisconnect := by
  unfold Batch.completeDisconnect
  split
  · refine .emit (h.update fun _ _ => rfl) ?_
    exact Notification.Idle.mk nofun nofun nofun
  · exact h

theorem shutDown {f : Phase} (hf : f.ended = true) :
    Does i b₀ (b.update fun c => shutDown c f) := by
  have hremote : (Batch.shutDown b.core f).remote = false := by
    cases f <;> first | rfl | cases hf
  refine h.phase fun o u => ?_
  rw [← hremote]
  rfl

theorem terminate {f : Phase} (hf : f.ended = true) : Does i b₀ (b.terminate f) := by
  have hdispose := ((h.shutDown hf).stopTimers.freed (abandonControls_freed _)).cancelSends
  unfold Batch.terminate
  dsimp only
  split
  · exact (hdispose.emit (e := { kind := .close }) trivial).completeHandshake.completeDisconnect
  · exact hdispose.completeHandshake.completeDisconnect

theorem fail : Does i b₀ (b.fail j kind code) := by
  have hend := (h.update (failing_desk b kind)).terminate (f := .closed) rfl
  unfold Batch.fail
  refine hend.emit ?_
  exact notify_inert (c := ((b.update fun c => failing c kind).terminate .closed).core)
    (n := failureNotice b.core j kind code) (failureNotice_idle b.core j kind code)

theorem failedRejection : Does i b₀ (b.failedRejection p kind code err) :=
  .notify (h.terminate rfl) ⟨nofun, nofun, nofun⟩

theorem failedRejection_amend {f : Notification → Notification}
    (hf : ∀ n, (f n).kind = n.kind ∧ (f n).reply = n.reply) :
    Does i b₀ ((b.failedRejection p kind code err).amend f) := by
  unfold Batch.failedRejection
  dsimp only
  rw [Batch.notify, amend_emit]
  refine .emit (h.terminate rfl) ?_
  exact .amend (n := { reply := .failed }) ⟨nofun, nofun, nofun⟩ (hf _)

end Does

end Diameter.Protocol
