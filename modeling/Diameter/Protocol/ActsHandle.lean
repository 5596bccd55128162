import Diameter.Protocol.ActsReceive
import Diameter.Protocol.RefineHandle

/-!
# Protocol.ActsHandle

Results, timers and all other inputs do nothing but acts: `handleInto_acts`. The timers that are
armed without being stopped first are not running then; that, and what else the code relies on, is
collected in `Core.Orderly`.
-/

namespace Diameter.Protocol

open Lib BasePackage

/-- The commands of the exchanges of a core; they never change. -/
def Leases.commands (l : Leases) : List BaseCommand := l.heap.map Control.command

namespace Leases

theorem release_commands (l : Leases) (r : Nat) : (l.release r).1.commands = l.commands := by
  unfold release
  split
  · rfl
  split
  · rfl
  · exact map_modify_of_eq (f := fun k : Control => { k with released := true }) (fun _ => rfl)
      l.heap r

theorem drop_commands (l : Leases) (r : Nat) {f : Control → Control}
    (hf : ∀ k, (f k).command = k.command) : (l.drop r f).1.commands = l.commands :=
  (release_commands _ r).trans (map_modify_of_eq hf l.heap r)

end Leases

/-- What the code relies on when it arms a timer, or answers a DPR. -/
structure Core.Orderly (c : Core) : Prop where
  handshake : c.started = false ∨ c.cerDeferred = true → (c.timers .handshake).token = 0
  closing : c.phase ≠ .closing → (c.timers .closing).token = 0
  receiver : c.disconnectWaiting = false → (c.timers .receiverDisconnect).token = 0
  retry : ∀ t op r, c.operations.lookup t = some op → op.reported = false → op.control = some r →
    c.leases.commands[r]? = some .capabilitiesExchange → (c.timers .retry).token = 0
  selected : c.peerDisconnectSelected = true → c.frozen = true
  notices : ∀ t op, c.operations.lookup t = some op → ∀ n ∈ op.notice, n.kind = .peerDisconnect →
    n.protocol = none

namespace Does

open Batch

variable {i j : Input} {b₀ b b' : Batch} {p : Packet} (h : Does i b₀ b)
include h

/-! ## Reservations -/

theorem noteHandshake [BasePackage] {f : Core → Core} {cmd : BaseCommand} {err : ProtocolError}
    (hf : ∀ o u, (b.update f).desk o u = b.desk o u) :
    Does i b₀ (b.update fun c => (f c).noteHandshake cmd err) := by
  refine h.update fun o u => ?_
  rw [← hf]
  unfold Core.noteHandshake
  simp only [Batch.update]
  split <;> rfl

theorem openExchange [BasePackage] {cmd : BaseCommand} {lease : Reservation} :
    Does i b₀ (b.openExchange cmd lease) := by
  unfold Batch.openExchange
  split
  · exact .terminate (h.noteHandshake fun _ _ => rfl) rfl
  · exact .send (h.update fun _ _ => rfl) nofun fun _ hn => (Option.not_mem_none _ hn).elim

theorem reserved [BasePackage] : Does i b₀ (b.reserved j) := by
  unfold Batch.reserved
  split
  · exact h
  have htaken : Does i b₀ (b.update fun c => { c with
      reservations := c.reservations.erase j.token }) := h.update fun _ _ => rfl
  dsimp only
  split
  · split
    · exact htaken
    · exact .terminate (htaken.noteHandshake fun _ _ => rfl) rfl
  · split
    · exact htaken.emit trivial
    · exact htaken.openExchange

/-! ## Timers -/

theorem expire : Does i b₀ (b.expire j) := by
  unfold Batch.expire
  dsimp only
  split
  · exact h
  split
  · exact h.watchdogExpired
  · exact h.fail
  · split
    · split
      · exact h.stop.send nofun fun _ hn => (Option.not_mem_none _ hn).elim
      · exact h.fail
    · exact h.fail
  · split
    · exact .notify (h.terminate rfl) ⟨nofun, nofun, nofun⟩
    · exact h.fail
  · exact h.fail

/-! ## Inputs -/

theorem start (hv : b.core.started = false → (b.core.timers .handshake).token = 0) :
    Does i b₀ (b.start j) := by
  unfold Batch.start
  split
  · exact h
  rename_i hs
  simp only [Bool.or_eq_true, not_or, Bool.not_eq_true] at hs
  have hstart : Does i b₀ (b.update fun c => { c with started := true }) :=
    h.update fun _ _ => rfl
  dsimp only
  split
  · split
    · exact hstart.phase fun _ _ => rfl
    · exact .reserve (.phase (hstart.arm (hv hs.1)) fun _ _ => rfl)
  · exact hstart.arm (hv hs.1)

theorem beginCER (hv : b.core.cerDeferred = true → (b.core.timers .handshake).token = 0) :
    Does i b₀ (b.beginCER j) := by
  unfold Batch.beginCER
  split
  · exact h
  rename_i hd
  simp only [Bool.or_eq_true, not_or, Bool.not_eq_true', Bool.not_eq_false] at hd
  have hbegin : Does i b₀ (b.update fun c => { c with cerDeferred := false }) :=
    h.update fun _ _ => rfl
  exact .reserve (hbegin.arm (hv hd.1))

theorem stopSupervision : Does i b₀ b.stopSupervision := .stop (h.update fun _ _ => rfl)

omit h in
theorem passed [BasePackage] (hreceive : Does i b₀ (b.receive j)) : Does i b₀ (b.received j) := by
  unfold Batch.received
  dsimp only
  split
  · exact hreceive
  have hnext : Does i b₀ ((b.receive j).update fun c => { c with
      receivedSequence := max c.receivedSequence j.sequence }) := hreceive.update fun _ _ => rfl
  split
  · split
    · exact .expire (hnext.update fun _ _ => rfl)
    · exact hnext
  · exact hnext

theorem received [BasePackage] (hi : ∀ p, j.message = .packet p → isDPR p = true → i.BringsDPR)
    (hv : b.core.phase ≠ .closing → (b.core.timers .closing).token = 0) :
    Does i b₀ (b.received j) :=
  .passed (h.receive hi hv)

theorem continued [BasePackage] {k : Continuation} : Does i b₀ (b.continued j p k) := by
  unfold Batch.continued
  dsimp only
  split
  · exact h.fail
  split
  · exact h.discard
  split
  · exact h.dwr
  split
  · split
    · exact h.reject
    · exact h.discard
  · split
    · exact h.dwr
    · exact h.candidate

theorem resume [BasePackage] : Does i b₀ (b.resume j) := by
  unfold Batch.resume
  split
  · exact h
  have herase : Does i b₀ (b.update fun c => { c with
      continuations := c.continuations.erase j.token
      hookToken := if c.hookToken = j.token then 0 else c.hookToken }) := h.update fun _ _ => rfl
  dsimp only
  split
  · exact herase.terminate rfl
  split
  · exact herase.continued
  · exact herase.fail
  · exact herase.continued

theorem releaseAdmission : Does i b₀ (b.releaseAdmission j) := by
  unfold Batch.releaseAdmission
  split
  · exact h
  · exact .watchdogUp (.notify (h.update fun _ _ => rfl) ⟨nofun, nofun, nofun⟩)

theorem lateContinue : Does i b₀ (b.lateContinue j) := by
  have hlate : Does i b₀ (b.update fun c => { c with lateCERToken := 0, lateCER := .cleared }) :=
    h.update fun _ _ => rfl
  unfold Batch.lateContinue
  dsimp only
  split
  · exact hlate
  · exact .notify (hlate.emit (e := { kind := .close }) trivial) ⟨nofun, nofun, nofun⟩

theorem handleLive [BasePackage] (ho : b.core.Orderly) (hj : j = i) :
    Does i b₀ (b.handleLive j) := by
  unfold Batch.handleLive
  split
  · exact h.start fun hs => ho.handshake (.inl hs)
  · exact h.beginCER fun hd => ho.handshake (.inr hd)
  · exact h.stopSupervision
  · exact h.terminate rfl
  · exact .terminate (h.update fun _ _ => rfl) rfl
  · exact .ite (fun _ => h) fun _ => h.terminate rfl
  next hk => exact h.received (fun p hp hdpr => hj ▸ ⟨hk, p, hp, hdpr⟩) ho.closing
  · exact h.resume
  · exact h.activate
  · exact h.rejectCandidate
  · exact h.releaseAdmission
  · exact h.disconnect ho.closing ho.receiver
  · exact h.freeze ho.selected
  · exact h.unhandled
  · exact h.expire
  · exact h
  · exact h

/-! ## Write results -/

/-- The watchdog, or the retransmission of a CER, is started when its request is written. -/
theorem exchangePublished {r : Nat} (hv : b.core.leases.commands[r]? = some .capabilitiesExchange →
    (b.core.timers .retry).token = 0) : Does i b₀ (b.exchangePublished j r) := by
  unfold Batch.exchangePublished
  split
  · exact h
  rename_i k hk
  split
  · exact h
  split
  · exact h.watchdogPublished
  next hcmd =>
    refine .ite (fun _ => h.arm (hv ?_)) fun _ => h
    have hheap : b.core.heap[r]? = some k := hk
    rw [Leases.commands, List.getElem?_map]
    show (b.core.heap[r]?).map Control.command = _
    rw [hheap, Option.map_some, hcmd]
  · exact h

theorem failWrite {op : Operation} {err : ProtocolError}
    (hn : ∀ n ∈ op.notice, n.kind = .peerDisconnect → n.protocol = none) :
    Does i b₀ (b.failWrite j op err) := by
  unfold Batch.failWrite
  dsimp only
  generalize (op.control.bind b.core.control?).any _ = cer
  have hend : Does i b₀ ((if b.core.cfg.keepCERDeadlineAfterTransportLoss &&
      b.core.phase = .waitCEA && cer then b.update fun c => { c with handshake := ⟨some err, none⟩ }
      else b).terminate .closed) :=
    .terminate (.ite (fun _ => h.update fun _ _ => rfl) fun _ => h) rfl
  split
  · exact hend
  split
  next n _ hnotice =>
    split
    next hproto =>
      refine hend.notify ⟨fun hk => ?_, nofun, nofun⟩
      rw [hn n hnotice hk] at hproto
      cases hproto
    · exact hend.notify ⟨nofun, nofun, nofun⟩
  · exact hend.notify ⟨nofun, nofun, nofun⟩

end Does

/-- Acts that leave open which report is due. -/
def Handles (i : Input) (b : Batch) (u : Option Notification) (b' : Batch) : Prop :=
  ∀ o, ∃ u', Acts i (b.desk o u) (b'.desk o u')

theorem Does.handles {i : Input} {b b' : Batch} {u : Option Notification} (h : Does i b b') :
    Handles i b u b' := fun o => ⟨u, h o u⟩

theorem Handles.after {i : Input} {b b' b'' : Batch} {u u' : Option Notification}
    (h : Handles i b' u' b'') (ha : ∀ o, Acts i (b.desk o u) (b'.desk o u')) : Handles i b u b'' := by
  intro o
  obtain ⟨u'', h⟩ := h o
  exact ⟨u'', (ha o).trans h⟩

namespace Batch

variable {i : Input} {b b' : Batch} {op : Operation} {u : Option Notification}

theorem reportWrite_handles {j : Input} (hv : ∀ r, op.control = some r →
    b.core.leases.commands[r]? = some .capabilitiesExchange → (b.core.timers .retry).token = 0) :
    Handles i b op.notice (b.reportWrite j op) := by
  have hnotice : ∃ u', (∀ o, Acts i (b.desk o op.notice) ((b.writeNotice j op).desk o u')) ∧
      (b.writeNotice j op).core = b.core := by
    unfold writeNotice
    split
    · exact ⟨_, fun _ => .refl, rfl⟩
    rename_i n hn
    refine ⟨none, fun o => .single ?_, rfl⟩
    have hkind : ∀ m : Notification, (b.core.notify m).notification.kind = m.kind ∧
        (b.core.notify m).notification.cause = m.cause := by
      intro m
      unfold Core.notify
      dsimp only
      split <;> exact ⟨rfl, rfl⟩
    rw [notify, emit_desk]
    exact .announce (n := n) hn rfl (hkind _).1 (hkind _).2
  obtain ⟨u', hacts, hcore⟩ := hnotice
  have hready : Does i (b.writeNotice j op) (if op.handshake &&
      (b.writeNotice j op).core.phase = .opened then (b.writeNotice j op).handshakeReady
      else b.writeNotice j op) := .ite (fun _ => Does.refl.handshakeReady) fun _ => .refl
  refine Handles.after (Does.handles ?_) hacts
  unfold reportWrite
  dsimp only
  split
  · exact hready
  rename_i r hr
  refine hready.exchangePublished fun hcmd => ?_
  have hsame : (if op.handshake && (b.writeNotice j op).core.phase = .opened
      then (b.writeNotice j op).handshakeReady else b.writeNotice j op).core.timers =
        b.core.timers ∧ (if op.handshake && (b.writeNotice j op).core.phase = .opened
      then (b.writeNotice j op).handshakeReady else b.writeNotice j op).core.leases =
        b.core.leases := by
    split <;> rw [← hcore] <;> exact ⟨rfl, rfl⟩
  rw [hsame.2] at hcmd
  rw [hsame.1]
  exact hv r hr hcmd

theorem finishWrite_acts {v : Bool} (hi : i.kind = .writeResult)
    (hop : b.core.operations.lookup i.token = some op) (o : List Nat) :
    Acts i (b.desk o u) ((b.finishWrite i.token op.control v).desk o
      (if op.reported then none else op.notice)) := by
  have hfinish : Act i (b.desk o u) ((b.update fun c => { c with
      operations := c.operations.erase i.token }).desk o (if op.reported then none else op.notice)) :=
    .finish hi hop
  unfold finishWrite
  dsimp only
  split
  · exact .single hfinish
  · exact .cons hfinish (Does.refl.freed (drop_freed _ _ _) o _)

theorem finishWrite_same (b : Batch) (t : Nat) (r : Option Nat) (v : Bool) :
    (b.finishWrite t r v).core.timers = b.core.timers ∧
    (b.finishWrite t r v).core.leases.commands = b.core.leases.commands := by
  refine ⟨?_, ?_⟩
  · obtain ⟨ops, h, cs, hc⟩ := finishWrite_core b t r v
    rw [hc]
  unfold finishWrite
  dsimp only
  split
  · rfl
  rename_i r
  rw [(drop_freed (b.update fun c => { c with operations := c.operations.erase t }) r fun k =>
    { k with writers := k.writers - 1, written := k.written || v }).leases]
  exact Leases.drop_commands _ _ fun _ => rfl

/-- What is known of a write once its result is entered. -/
structure Entered (i : Input) (op : Operation) (u : Option Notification) (b : Batch) : Prop where
  queued : i.stage = .queue → b.core.operations.lookup i.token = some { op with queued := true }
  final : i.stage ≠ .queue → u = if op.reported then none else op.notice
  last : op.closeAfter = true → op.control = none
  retry : op.reported = false → ∀ r, op.control = some r →
    b.core.leases.commands[r]? = some .capabilitiesExchange → (b.core.timers .retry).token = 0

theorem writeBoundary_handles (hi : i.kind = .writeResult) (he : Entered i op u b) :
    Handles i b u (b.writeBoundary i op) := by
  unfold writeBoundary
  dsimp only
  generalize hb1 : (if (op.closeAfter && decide (i.stage = .written)) = true
    then b.terminate .closed else b) = b1
  have hcases : b1 = b ∨ i.stage = .written ∧ op.control = none ∧ Does i b b1 := by
    rw [← hb1]
    split
    next hlast =>
      simp only [Bool.and_eq_true, decide_eq_true_eq] at hlast
      exact .inr ⟨hlast.2, he.last hlast.1, Does.refl.terminate rfl⟩
    · exact .inl rfl
  rcases hcases with hsame | ⟨hs, hnone, hend⟩
  · rw [hsame]
    split
    · exact Does.refl.handles
    rename_i hrep
    simp only [Bool.or_eq_true, not_or, Bool.not_eq_true] at hrep
    split
    next hs =>
      refine Handles.after (reportWrite_handles (he.retry hrep.2)) fun o => .single ?_
      exact @Act.note i (b.desk o u) { op with queued := true } hi (he.queued hs) hrep.2
    next hs =>
      have hdue := he.final hs
      rw [hrep.2] at hdue
      rw [show u = op.notice from hdue]
      exact reportWrite_handles (he.retry hrep.2)
  · -- The write that ends the connection belongs to no exchange.
    split
    · exact hend.handles
    rename_i hrep
    simp only [Bool.or_eq_true, not_or, Bool.not_eq_true] at hrep
    have hdue := he.final (by simp [hs])
    rw [hrep.2] at hdue
    rw [if_neg (by simp [hs]), show u = op.notice from hdue]
    refine Handles.after (reportWrite_handles fun r hr => ?_) fun o => hend o _
    rw [hnone] at hr
    cases hr

theorem writeSucceeded_handles (hi : i.kind = .writeResult) (he : Entered i op u b) :
    Handles i b u (b.writeSucceeded i op) := by
  unfold writeSucceeded
  dsimp only
  split
  · split
    · exact Does.refl.completeDPA.handles
    · exact writeBoundary_handles hi he
  · exact writeBoundary_handles hi he

theorem skippedControl_handles {r : Nat} (hi : i.kind = .writeResult)
    (hop : b.core.operations.lookup i.token = some op) :
    Handles i b u (b.skippedControl i r) := by
  unfold skippedControl
  split
  · exact Does.refl.handles
  rename_i k hk
  dsimp only
  generalize hf : (fun k' : Control => { k' with
    writers := k'.writers - 1
    logical := k'.logical && !(decide (k.writers = 1) && !k.written) }) = f
  generalize hb1 : (b.update fun c => { c.setControl r f with
    operations := c.operations.erase i.token }).release r = b1
  have hskip : ∀ o, Acts i (b.desk o u) (b1.desk o (if op.reported then none else op.notice)) := by
    intro o
    have hfinish : Act i (b.desk o u) ((b.update fun c => { c.setControl r f with
        operations := c.operations.erase i.token }).desk o
          (if op.reported then none else op.notice)) := .finish hi hop
    rw [← hb1]
    exact .cons hfinish (Does.refl.freed (release_freed _ _) o _)
  refine Handles.after (Does.handles ?_) hskip
  split
  · exact .terminate (Does.refl.update fun _ _ => rfl) rfl
  split
  · split
    · exact .watchdogArm (Does.refl.update fun _ _ => rfl)
    · exact Does.refl.update fun _ _ => rfl
  · exact .refl

theorem writeResult_handles (hi : i.kind = .writeResult) (ho : b.core.Orderly)
    (hops : ∀ t op, b.core.operations.lookup t = some op → Operation.Sound op) :
    Handles i b u (b.writeResult i) := by
  unfold writeResult
  split
  · exact Does.refl.handles
  rename_i op hop
  have hsound := hops i.token op hop
  split
  · exact skippedControl_handles hi hop
  dsimp only
  split
  · exact Does.refl.handles
  generalize hb1 : (if isFinal i = true then b.finishWrite i.token op.control
      (decide (i.stage = .written) && (writeError i op).isNone)
    else b.update fun c => c.setOperation i.token { op with queued := true }) = b1
  have h1 : ∃ u', (∀ o, Acts i (b.desk o u) (b1.desk o u')) ∧
      (writeError i op = none → Entered i op u' b1) := by
    rw [← hb1]
    split
    next hfinal =>
      refine ⟨_, finishWrite_acts hi hop, fun herr => ⟨fun hs => ?_, fun _ => rfl, hsound.last,
        fun hrep r hr hcmd => ?_⟩⟩
      · rw [isFinal, hs] at hfinal
        rw [writeError, hs] at herr
        revert herr hfinal
        cases i.err <;> simp
      · rw [(finishWrite_same _ _ _ _).2] at hcmd
        rw [(finishWrite_same _ _ _ _).1]
        exact ho.retry _ op r hop hrep hr hcmd
    next hfinal =>
      simp only [isFinal, Bool.or_eq_true, decide_eq_true_eq, not_or, not_not] at hfinal
      refine ⟨u, fun o => .single (.queue hi hop), fun _ => ⟨fun _ => AList.lookup_insert _,
        fun hs => (hs hfinal.1).elim, hsound.last, fun hrep r hr hcmd => ?_⟩⟩
      exact ho.retry _ op r hop hrep hr hcmd
  obtain ⟨u', hacts, hentered⟩ := h1
  refine Handles.after ?_ hacts
  split
  · exact Does.refl.handles
  split
  · exact (Does.refl.failWrite (ho.notices _ op hop)).handles
  next herr => exact writeSucceeded_handles hi (hentered herr)

theorem handleInto_handles [BasePackage] (ho : b.core.Orderly) (hwf : b.core.state.WF) :
    Handles i b none (b.handleInto i) := by
  unfold handleInto
  split
  · exact Does.refl.handles
  split
  · exact Does.refl.reserved.handles
  split
  next hi => exact writeResult_handles hi ho hwf.operations
  split
  · exact Does.refl.lateContinue.handles
  split
  · exact Does.refl.handles
  have hrefresh : ∀ o u, (b.update fun c => refreshAddresses c i).desk o u =
      b.desk o u := by
    intro o u
    simp only [update, refreshAddresses]
    split <;> rfl
  have ho' : (b.update fun c => refreshAddresses c i).core.Orderly := by
    show (refreshAddresses b.core i).Orderly
    unfold refreshAddresses
    split
    · exact ⟨ho.handshake, ho.closing, ho.receiver, ho.retry, ho.selected, ho.notices⟩
    · exact ho
  exact ((Does.refl.update hrefresh).handleLive ho' rfl).handles

end Batch

end Diameter.Protocol
