import Diameter.Protocol.Acts
import Diameter.Protocol.RefineExchanges

/-!
# Protocol.ActsReceive

The handlers of messages do nothing but acts. The one timer they arm without stopping it first is
the one that limits the closing of a connection; a connection that is open does not have it.
-/

namespace Diameter.Protocol

open Lib BasePackage

variable {r : Nat}
variable {me : MessageError}

namespace Does

open Batch

variable {i j : Input} {b₀ b b' : Batch} {p : Packet}

theorem ite {c : Prop} [Decidable c] (h : c → Does i b₀ b) (h' : ¬ c → Does i b₀ b') :
    Does i b₀ (if c then b else b') := by
  split
  · exact h ‹_›
  · exact h' ‹_›

variable (h : Does i b₀ b)
include h

/-! ## Watchdog -/

theorem watchdogUp : Does i b₀ (b.watchdogUp j) := by
  unfold Batch.watchdogUp
  dsimp only
  split
  · exact h
  split
  · exact .reserve (h.update fun _ _ => rfl)
  split
  · exact .watchdogArm (h.update fun _ _ => rfl)
  · exact h.update fun _ _ => rfl

theorem watchdogPublished : Does i b₀ (b.watchdogPublished j) := by
  unfold Batch.watchdogPublished
  split
  · exact h
  split
  · exact h
  · exact .notify (.watchdogArm (h.update fun _ _ => rfl)) ⟨nofun, nofun, nofun⟩

theorem activity : Does i b₀ (b.activity j) := by
  unfold Batch.activity
  split
  · exact h
  · exact h.watchdogArm

theorem validActivity : Does i b₀ b.validActivity := by
  unfold Batch.validActivity
  dsimp only
  split
  · exact h
  split
  · exact .notify (h.update fun _ _ => rfl) ⟨nofun, nofun, nofun⟩
  · exact h.update fun _ _ => rfl

theorem watchdogExpired : Does i b₀ (b.watchdogExpired j) := by
  unfold Batch.watchdogExpired
  dsimp only
  split
  · exact h
  split
  · exact h.update fun _ _ => rfl
  split
  · exact h.watchdogArm
  split
  · exact h.fail
  split
  · exact .reserve (h.stop.update fun _ _ => rfl)
  have hstep := h.stop (k := .watchdog) |>.update (f := fun c => { c with
    wd := (b.core.wd.step .expired).1 }) fun _ _ => rfl
  refine .ite (fun _ => .watchdogArm ?_) fun _ => ?_
  all_goals exact .ite (fun _ => hstep.notify ⟨nofun, nofun, nofun⟩) fun _ => hstep

theorem consumed : Does i b₀ (b.consumed p) := h.emit trivial

theorem consumeControl : Does i b₀ (b.consumeControl r p) := by
  unfold Batch.consumeControl
  split
  · exact h
  · exact .consumed (h.update fun _ _ => rfl)

theorem creditDWA : Does i b₀ (b.creditDWA r p) := by
  have hstep := (h.update (f := fun c => { c with
    wd := ((b.core.wdNext.getD b.core.wd).step .receiveDWA).1, wdNext := none }) fun _ _ => rfl)
  unfold Batch.creditDWA
  dsimp only
  split
  · refine .notify (.notify (.settle hstep.consumeControl) ?_) ⟨nofun, nofun, nofun⟩
    exact ⟨nofun, nofun, nofun⟩
  · exact .notify (.settle hstep.consumeControl) ⟨nofun, nofun, nofun⟩

theorem matchedDWA [BasePackage] : Does i b₀ (b.matchedDWA j p r) := by
  unfold Batch.matchedDWA
  split
  · exact h.discardCause
  split
  · exact h.discardCause
  split
  · exact h.consumeControl.discard_amend fun _ => ⟨rfl, rfl⟩
  split
  · exact h.discardCause
  · exact h.creditDWA

theorem dwa [BasePackage] : Does i b₀ (b.dwa j p) := by
  unfold Batch.dwa
  split
  · exact h.discard
  split
  · split
    · exact h.matchedDWA
    · exact h.discard_amend fun _ => ⟨rfl, rfl⟩
  · exact h.discard_amend fun _ => ⟨rfl, rfl⟩

/-! ## Disconnect -/

omit h in
theorem closing_acts {l : Bool} {c : Core} (o : List Nat) (u : Option Notification)
    (hdesk : Batch.desk { b with core := c } ((b.core.serial + 1) :: o) u =
      { b.desk ((b.core.serial + 1) :: o) u with serial := b.core.serial + 1, remote := !l })
    (hdpr : l = false → b.core.peerDPR = true) :
    Acts i (b.desk o u) (Batch.desk { b with core := c } ((b.core.serial + 1) :: o) u) := by
  rw [hdesk]
  refine .cons .take (.single (.closing (v := !l) ?_))
  intro hl
  exact hdpr (by simpa using hl)

omit h in
theorem fence_acts {t : Nat} {time d : Int} (hv : (b.core.timers .closing).token = 0) (o : List Nat)
    (u : Option Notification) : Acts i (b.desk (t :: o) u)
      ((((b.stop .watchdog).arm .closing time d).emit
        { kind := .freezeAdmission, token := t }).desk o u) := by
  have hvacant : ((b.stop .watchdog).core.timers .closing).token = 0 := by
    have hs : (b.stop .watchdog).core.timers = Timers.stop b.core.timers .watchdog := by
      unfold Batch.stop Timers.stop
      split <;> rfl
    rw [hs, Timers.stop_of_ne _ (by decide)]
    exact hv
  have hset : Does i b ((b.stop .watchdog).arm .closing time d) := .arm Does.refl.stop hvacant
  exact (hset (t :: o) u).trans (.single (.give (e := { kind := .freezeAdmission, token := t }) rfl o u))

theorem beginClosing {l : Bool} (hv : (b.core.timers .closing).token = 0)
    (hdpr : l = false → b.core.peerDPR = true) : Does i b₀ (b.beginClosing j l) := by
  refine h.trans fun o u => ?_
  unfold Batch.beginClosing
  refine Acts.trans (closing_acts (l := l) o u ?_ hdpr) (fence_acts ?_ o u)
  · rfl
  · exact hv

/-- The answer to the first DPR carries the report of the disconnect. -/
theorem select {m : Packet} {o : SendOptions} (hr : o.required = true → o.control = none)
    (hn : ∃ n, o.notice = some n ∧ n.kind = .peerDisconnect ∧ n.cause = b.core.peerCause ∧
      n.protocol = none)
    (hsel : b.core.peerDisconnectSelected = false) (hf : b.core.frozen = true)
    (hpeer : b.core.remote = true ∨ b.core.peerDPR = true) :
    Does i b₀ ((b.update fun c => { c with peerDisconnectSelected := true }).send m o) := by
  refine h.trans (.act fun l u => ?_)
  rw [send_desk]
  obtain ⟨n, hn, hkind, hcause, hproto⟩ := hn
  have hw : Effect.Writes (o.effect b.core m) ((b.desk l u).serial + 1) (o.operation m) :=
    ⟨rfl, rfl, rfl, hr, rfl, rfl, rfl⟩
  exact .select hw hn hkind hcause hproto hsel hf hpeer

theorem answerDPR [BasePackage] {first : Bool} (hsel : first = true →
    b.core.peerDisconnectSelected = false ∧ b.core.frozen = true ∧
      (b.core.remote = true ∨ b.core.peerDPR = true)) : Does i b₀ (b.answerDPR j p first) := by
  unfold Batch.answerDPR
  dsimp only
  split
  · exact h.fail
  split
  next hfirst =>
    obtain ⟨h1, h2, h3⟩ := hsel hfirst
    refine h.select (fun _ => rfl) ?_ h1 h2 h3
    exact ⟨_, rfl, rfl, rfl, rfl⟩
  · exact h.send (fun _ => rfl) fun _ hn => (Option.not_mem_none _ hn).elim

theorem freeze [BasePackage]
    (hsel : b.core.peerDisconnectSelected = true → b.core.frozen = true) :
    Does i b₀ (b.freeze j) := by
  unfold Batch.freeze
  dsimp only
  split
  · exact h
  rename_i hopen
  simp only [Bool.or_eq_true, decide_eq_true_eq, not_or, ne_eq, not_not] at hopen
  have hfreeze : Does i b₀ (b.update fun c => { c with frozen := true, fenceToken := 0 }) :=
    h.trans (.act fun _ _ => .freeze)
  split
  · exact hfreeze.reserve
  rename_i hlocal
  split
  · refine .answerDPR (hfreeze.update fun _ _ => rfl) fun _ => ⟨?_, rfl, .inl ?_⟩
    · exact Bool.eq_false_iff.2 fun hs => hopen.1.2 (hsel hs)
    · have hl : b.core.closeLocal = false := Bool.eq_false_iff.2 hlocal
      simp [Batch.update, Core.remote, hopen.1.1, hl]
  · exact hfreeze.update fun _ _ => rfl

theorem disconnect (hv : b.core.phase ≠ .closing → (b.core.timers .closing).token = 0)
    (hr : b.core.disconnectWaiting = false → (b.core.timers .receiverDisconnect).token = 0) :
    Does i b₀ (b.disconnect j) := by
  unfold Batch.disconnect
  dsimp only
  split
  · exact h.notify ⟨nofun, nofun, nofun⟩
  rename_i hw
  split
  · refine .reserve (.arm (h.update fun _ _ => rfl) ?_)
    exact hr (Bool.eq_false_iff.2 hw)
  split
  · exact h.notify ⟨nofun, nofun, nofun⟩
  rename_i ho
  simp only [Bool.or_eq_true, decide_eq_true_eq, not_or, ne_eq, not_not] at ho
  refine h.beginClosing (hv ?_) nofun
  rw [ho.1]
  decide

theorem acceptedDPR [BasePackage] (hdpr : b.core.peerDPR = true)
    (hv : b.core.phase ≠ .closing → (b.core.timers .closing).token = 0) :
    Does i b₀ (if b.core.phase ≠ .closing then b.validActivity.beginClosing j false
      else if !b.core.frozen then b.discard j none 0
      else b.answerDPR j p (!b.core.peerDisconnectSelected)) := by
  split
  next hp =>
    obtain ⟨m, hm⟩ := validActivity_core b
    refine h.validActivity.beginClosing ?_ fun _ => ?_
    · rw [hm]
      exact hv hp
    · rw [hm]
      exact hdpr
  · split
    · exact h.discard
    next hf => refine h.answerDPR fun hs => ⟨by simpa using hs, by simpa using hf, .inr hdpr⟩

theorem acceptDPR [BasePackage] (hi : i.BringsDPR)
    (hv : b.core.phase ≠ .closing → (b.core.timers .closing).token = 0) :
    Does i b₀ (b.acceptDPR j p) := by
  -- The first DPR is recorded; from here on the peer has asked.
  have hfirst : ∃ b1 : Batch, b1 = (if b.core.peerDPR then b
      else (b.update fun c => { c with peerDPR := true, peerCause := j.cause }).emit
        { kind := .peerDisconnectDecision, cause := j.cause }) ∧ Does i b₀ b1 ∧
      b1.core.peerDPR = true ∧ b1.core.phase = b.core.phase ∧
      b1.core.timers = b.core.timers := by
    refine ⟨_, rfl, ?_, ?_, ?_, ?_⟩
    · refine .ite (fun _ => h) fun hd => h.trans (.act fun o u => ?_)
      rw [emit_desk]
      exact .decide (d := b.desk o u) (e := {
        kind := .peerDisconnectDecision, cause := j.cause, connection := b.core.cfg.connection })
        hi (Bool.eq_false_iff.2 hd) rfl
    · split
      · assumption
      · rfl
    · split <;> rfl
    · split <;> rfl
  obtain ⟨b1, hb, hdo, hdpr, hphase, htimers⟩ := hfirst
  unfold Batch.acceptDPR
  rw [← hb]
  exact hdo.acceptedDPR hdpr (by rwa [hphase, htimers])

theorem dpr [BasePackage] (hi : i.BringsDPR)
    (hv : b.core.phase ≠ .closing → (b.core.timers .closing).token = 0) :
    Does i b₀ (b.dpr j p) := by
  unfold Batch.dpr
  split
  · exact h.discardCause
  split
  · exact h.discardCause
  · exact .mark (h.acceptDPR hi hv)

theorem completeDPA {code : UInt32} : Does i b₀ (b.completeDPA j code) := by
  have hend := (h.update (f := fun c => { c with earlyDPA := none, disconnectWaiting := false })
    fun _ _ => rfl).terminate (f := .closed) rfl
  unfold Batch.completeDPA
  dsimp only
  refine .ite (fun _ => hend.emit ?_) fun _ => .notify (hend.emit ?_) ⟨nofun, nofun, nofun⟩
  · exact Notification.Idle.mk nofun nofun nofun
  · exact Notification.Idle.mk nofun nofun nofun

theorem matchedDPA [BasePackage] : Does i b₀ (b.matchedDPA j p r) := by
  unfold Batch.matchedDPA
  split
  · exact h.discardCause
  dsimp only
  split
  · exact h.discard_amend fun _ => ⟨rfl, rfl⟩
  split
  · exact h.settle.update fun _ _ => rfl
  · exact h.settle.completeDPA

theorem dpa [BasePackage] : Does i b₀ (b.dpa j p) := by
  unfold Batch.dpa
  split
  · exact h.discard
  split
  · exact h.matchedDPA
  split
  · exact h.discard_amend fun _ => ⟨rfl, rfl⟩
  · exact h.discard

/-! ## Replies to requests -/

theorem latch {t : Bool} : Does i b₀ (b.latch t) := by
  unfold Batch.latch
  split
  · exact h.update fun _ _ => rfl
  · exact h

theorem reject [BasePackage] {kind : ErrorKind} :
    Does i b₀ (b.reject j p kind me) := by
  unfold Batch.reject
  dsimp only
  split
  · exact h.discard_amend fun _ => ⟨rfl, rfl⟩
  split
  · exact h.failedRejection_amend fun _ => ⟨rfl, rfl⟩
  refine h.latch.send (fun _ => rfl) fun n hn => ?_
  rw [← Option.mem_some.1 hn]
  exact nofun

theorem requestError [BasePackage] {r : RequestError} {d : String} :
    Does i b₀ (b.requestError j p r d) := by
  unfold Batch.requestError
  dsimp only
  split
  · exact h.discard
  split
  · split
    · exact h.failedRejection
    · exact h.failedRejection_amend fun _ => ⟨rfl, rfl⟩
  · refine h.latch.send (fun _ => rfl) fun n hn => ?_
    rw [← Option.mem_some.1 hn]
    exact nofun

theorem unhandledPacket [BasePackage] : Does i b₀ (b.unhandledPacket j p) := by
  unfold Batch.unhandledPacket
  split
  · exact h.discard
  split
  · exact h.discard
  split
  · exact h.requestError
  · exact h.requestError

theorem unhandled [BasePackage] : Does i b₀ (b.unhandled j) := by
  unfold Batch.unhandled
  split
  · exact h.unhandledPacket
  · exact h.discard

theorem externalAnswer [BasePackage] {n : Notification} {code : UInt32} {failed : List AVP}
    (hn : n.kind = .protocol) : Does i b₀ (b.externalAnswer p n code failed) := by
  unfold Batch.externalAnswer
  split
  · exact h.failedRejection_amend fun _ => ⟨rfl, rfl⟩
  refine h.latch.send (fun _ => rfl) fun m hm => ?_
  have hkind : ∀ t : Bool, (if t = true then ({ n with
      closing := true, diagnostic := "external-reject-cer" } : Notification) else n).kind =
        .protocol := by
    intro t
    cases t <;> exact hn
  rw [← Option.mem_some.1 hm, hkind]
  decide

theorem externalMessageError [BasePackage] {kind : ErrorKind} {fatal : Bool} :
    Does i b₀ (b.externalMessageError j p me kind fatal) := by
  unfold Batch.externalMessageError
  dsimp only
  split
  · exact .notify (h.emit (e := { kind := .discard }) trivial) ⟨nofun, nofun, nofun⟩
  split
  · split
    · exact h.externalAnswer rfl
    · exact h.externalAnswer rfl
  · exact h.externalAnswer rfl

theorem messageError [BasePackage] {fatal : Bool} :
    Does i b₀ (b.messageError j p me fatal) := by
  unfold Batch.messageError
  dsimp only
  split
  · exact h.externalMessageError
  split
  · exact h.discard_amend fun _ => ⟨rfl, rfl⟩
  split
  · split
    · exact h.fail
    · exact h.discard
  · split
    · split
      · exact h.requestError
      · exact h.reject
    · exact h.reject

/-! ## Capabilities exchange -/

theorem rejectCER [BasePackage] {err : ProtocolError} : Does i b₀ (b.rejectCER j p err) := by
  unfold Batch.rejectCER
  split
  · exact h.reject
  dsimp only
  split
  · exact h.failedRejection
  refine h.latch.send (fun _ => rfl) fun n hn => ?_
  rw [← Option.mem_some.1 hn]
  exact nofun

theorem candidate [BasePackage] : Does i b₀ (b.candidate j p) := by
  have hactive : Does i b₀ (b.update fun c => { c with passiveResponder := false }) :=
    h.update fun _ _ => rfl
  unfold Batch.candidate
  dsimp only
  split
  · exact hactive.rejectCER
  split
  · exact hactive.rejectCER
  rename_i parsed _ _
  refine hactive.later (f := fun c => holdCandidate c p parsed) (fun _ _ => .single .take) ?_
    rfl rfl
  exact .ite (fun _ => Does.refl.stop) fun _ => .refl

theorem handshakeReady : Does i b₀ b.handshakeReady := .emit (h.update fun _ _ => rfl) trivial

theorem activate [BasePackage] : Does i b₀ (b.activate j) := by
  unfold Batch.activate
  dsimp only
  split
  · exact h
  have hpublish : Does i b₀ ((b.update (activatePeer j)).stop .handshake).publish := by
    refine h.later (f := activatePeer j) (fun _ _ => .cons .take (.single (.closing (v := false)
      nofun))) Does.refl.stop rfl ?_
    rw [stop_core]
    rfl
  split
  · exact hpublish
  split
  · exact hpublish.fail
  · exact hpublish.send (fun _ => rfl) fun _ hn => (Option.not_mem_none _ hn).elim

theorem rejectCandidate [BasePackage] : Does i b₀ (b.rejectCandidate j) := by
  have hchosen : Does i b₀ (b.update fun c => { c with candidateToken := 0, terminal := true }) :=
    h.update fun _ _ => rfl
  unfold Batch.rejectCandidate
  dsimp only
  split
  · exact h
  split
  · exact h.terminate rfl
  split
  · exact hchosen
  split
  · exact hchosen.failedRejection
  refine hchosen.send (fun _ => rfl) fun n hn => ?_
  rw [← Option.mem_some.1 hn]
  exact nofun

theorem acceptCEA [BasePackage] {parsed : CEA} : Does i b₀ (b.acceptCEA p r parsed) := by
  have hstop : Does i b₀ ((((b.consumed p).settle r).stop .handshake).stop .retry) :=
    .stop (.stop (.settle h.consumed))
  unfold Batch.acceptCEA
  refine .handshakeReady (hstop.later (fun _ _ => .cons .take (.single (.closing (v := false)
    nofun))) .refl rfl rfl)

theorem matchedCEA [BasePackage] : Does i b₀ (b.matchedCEA j p r) := by
  unfold Batch.matchedCEA
  split
  · exact .fail (h.update fun _ _ => rfl)
  dsimp only
  split
  · exact .fail (h.update fun _ _ => rfl)
  split
  · refine .fail (.update (h.update ?_) ?_) <;> exact fun _ _ => rfl
  · exact .acceptCEA (h.update fun _ _ => rfl)

theorem cea [BasePackage] : Does i b₀ (b.cea j p) := by
  unfold Batch.cea
  dsimp only
  split
  · split
    · exact h.fail
    · exact h.discard_amend fun _ => ⟨rfl, rfl⟩
  · split
    · exact .fail (h.update fun _ _ => rfl)
    · exact h.matchedCEA
    · exact h

/-! ## Receiving -/

theorem hold : Does i b₀ (b.hold j) := h.emit trivial

theorem pauseHook : Does i b₀ (b.pauseHook j p) := h.issue rfl rfl fun _ _ => rfl

theorem dwr [BasePackage] : Does i b₀ (b.dwr j p) := by
  unfold Batch.dwr
  split
  · exact h.discardCause
  split
  · exact h.fail
  · exact h.validActivity.send (fun _ => rfl) fun _ hn => (Option.not_mem_none _ hn).elim

theorem admitMessage {n : Nat} : Does i b₀ (b.admitMessage p n) := h.emit trivial

theorem admitHandled : Does i b₀ (b.admitHandled j p) := by
  unfold Batch.admitHandled
  split
  · exact h.discard
  · exact h.admitMessage

theorem dispatchApplication [BasePackage] : Does i b₀ (b.dispatchApplication j p) := by
  unfold Batch.dispatchApplication
  dsimp only
  split
  · exact h.discard
  split
  · exact .unhandledPacket (.ite (fun _ => h.validActivity) fun _ => h)
  split
  · exact h.validActivity.discard
  · exact h.validActivity.admitMessage

section

variable [BasePackage] (hi : isDPR p = true → i.BringsDPR)
  (hv : b.core.phase ≠ .closing → (b.core.timers .closing).token = 0)
include hi hv

theorem dispatch : Does i b₀ (b.dispatch j p) := by
  unfold Batch.dispatch
  split
  · split
    · split
      · exact h.pauseHook
      · exact h.dwr
    · exact h.admitHandled
  · split
    next hbase =>
      split
      next hreq => exact h.dpr (hi (by rw [isDPR, hbase, hreq]; rfl)) hv
      · exact h.dpa
    · split
      · exact h.admitHandled
      · exact h.dispatchApplication

theorem receiveValid {n : Nat} : Does i b₀ (b.receiveValid j p n) := by
  unfold Batch.receiveValid
  split
  · exact h.dwa.mark
  split
  · split
    · dsimp only
      split
      · exact h.discard_amend fun _ => ⟨rfl, rfl⟩
      · exact h.discard
    · exact h.reject
  · split
    · exact h.requestError
    · split
      · split
        · exact h.pauseHook
        · exact h.candidate
      · split
        · exact (h.dispatch hi hv).mark
        · exact h.dispatch hi hv

end

theorem repeatedCER [BasePackage] : Does i b₀ (b.repeatedCER j p) := by
  unfold Batch.repeatedCER
  dsimp only
  split
  · exact h.discard
  · refine .ite (fun _ => .pauseHook ?_) fun _ => .discard ?_
    all_goals exact .ite (fun _ => h.validActivity) fun _ => h

theorem surplusCEA : Does i b₀ (b.surplusCEA j p) := h.discard_amend fun _ => ⟨rfl, rfl⟩

omit h in
theorem activity_closing (b : Batch) : (b.activity j).core.phase = b.core.phase ∧
    (b.activity j).core.timers .closing = b.core.timers .closing := by
  unfold Batch.activity
  split
  · exact ⟨rfl, rfl⟩
  obtain ⟨n, ts, hr, hts⟩ := watchdogArm_retimed (b := b) (t := j.time) (d := j.interval)
  rw [hr.core]
  refine ⟨rfl, ?_⟩
  rcases hts with ⟨-, d, rfl⟩ | ⟨-, -, rfl⟩
  · exact Function.update_of_ne (by decide : TimerKind.closing ≠ .watchdog)
      (⟨b.core.serial + 1, d⟩ : TimerSnapshot) b.core.timers
  · exact Timers.stop_of_ne _ (by decide)

section

variable [BasePackage] (hi : isDPR p = true → i.BringsDPR)
  (hv : b.core.phase ≠ .closing → (b.core.timers .closing).token = 0)
include hi hv

theorem receiveAdmitted : Does i b₀ (b.receiveAdmitted j p) := by
  have hv' : (b.activity j).core.phase ≠ .closing →
      ((b.activity j).core.timers .closing).token = 0 := by
    rw [(activity_closing b).1, (activity_closing b).2]
    exact hv
  have hact : Does i b₀ (b.activity j) := h.activity
  unfold Batch.receiveAdmitted
  dsimp only
  split
  · exact hact.surplusCEA
  split
  · exact hact.repeatedCER
  split
  · exact hact.messageError
  split
  · exact hact.discard
  · exact hact.receiveValid hi hv'

theorem receivePacket : Does i b₀ (b.receivePacket j p) := by
  unfold Batch.receivePacket
  dsimp only
  split
  · split
    · exact h.cea
    · exact h.fail
  · split
    · exact h.fail
    · exact h.receiveAdmitted hi hv

end

theorem receiveHeaderless : Does i b₀ (b.receiveHeaderless j) := by
  unfold Batch.receiveHeaderless
  dsimp only
  split
  · split
    · exact h
    · exact h.fail
  · split
    · exact .notify (h.emit (e := { kind := .discard }) trivial) ⟨nofun, nofun, nofun⟩
    · exact h.fail

theorem receive [BasePackage] (hi : ∀ p, j.message = .packet p → isDPR p = true → i.BringsDPR)
    (hv : b.core.phase ≠ .closing → (b.core.timers .closing).token = 0) :
    Does i b₀ (b.receive j) := by
  unfold Batch.receive
  dsimp only
  split
  · exact h.discard
  split
  · exact h.fail
  split
  · exact h.discard
  split
  · exact h.hold
  split
  · exact h.receivePacket (hi _ ‹_›) hv
  · exact h.receiveHeaderless

end Does

end Diameter.Protocol
