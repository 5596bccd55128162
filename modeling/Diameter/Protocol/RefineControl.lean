import Diameter.Protocol.RefineExchanges

/-!
# Protocol.RefineControl

The moves of `control.go`: results for reservations and writes, and expired timers. A result is
also taken by a core that has ended, so most lemmas here do not ask for a live one.
-/

namespace Diameter.Protocol

open Lib BasePackage

variable {op : Operation}

variable [BasePackage] {i j : Input} {b b' : Batch} {q : Option Header} {p : Packet}
variable {t : Nat} {cmd : BaseCommand}

namespace Batch

/-! ## Timers -/

/-- `b` with another account of the expiry that waits for messages. -/
def noted (b : Batch) (n : Nat) (o : Option Input) : Batch :=
  b.update fun c => { c with receivedSequence := n, deferredExpiry := o }

omit [BasePackage] in
theorem stop_update {f : Core → Core} {k : TimerKind}
    (hf : ∀ c ts, f { c with timers := ts } = { f c with timers := ts })
    (hc : ∀ c, (f c).cfg = c.cfg) : (b.update f).stop k = (b.stop k).update f := by
  have hb : f b.core = { f b.core with timers := b.core.timers } := hf b.core b.core.timers
  have ht : (f b.core).timers = b.core.timers := by rw [hb]
  unfold stop
  show (if ((f b.core).timers k).token = 0 then _ else _) = _
  rw [ht]
  split
  · rfl
  show Batch.mk { f b.core with timers := Function.update (f b.core).timers k {} } (b.effects ++
    [{ kind := .stopTimer, timer := k, token := ((f b.core).timers k).token
       connection := (f b.core).cfg.connection }]) = _
  rw [ht, hc, ← hf]
  rfl

section Elapsed

variable {n : Nat} {o : Option Input}

/-- What is left to do when a deferred expiry has run: nothing, if it was not one. -/
structure Settles (i : Input) (c : Core) (t n : Nat) (o : Option Input) : Prop where
  running : ∀ w : Work, w.state.sequence = c.receivedSequence →
    w.state.deferred = c.deferredExpiry → (w.state.timers .watchdog).token ≠ t →
    Moves i w (w.set fun s => { s with sequence := n, deferred := o })
  ended : ∀ w : Work, w.state.sequence = c.receivedSequence → w.state.deferred = none →
    Moves i w (w.set fun s => { s with sequence := n })

theorem watchdogFailed_reaches (hl : b.core.phase.ended = false)
    (hs : Settles i b.core t n o) : Reaches i b q ((b.noted n o).fail j .watchdogTimeout 0) := by
  have hfailing : (b.noted n o).update (fun c => failing c .watchdogTimeout) =
      (b.update fun c => { c with closeOutcome := .timedOut }).noted n o := rfl
  have h1 : Moves i (b.work q false) ((b.update fun c => { c with
      closeOutcome := .timedOut }).work q false) := .single (.outcome ⟨rfl, hl⟩ rfl)
  unfold fail
  dsimp only
  rw [hfailing]
  generalize hb1 : (b.update fun c => { c with closeOutcome := .timedOut }) = b1 at h1
  have hl1 : b1.core.phase.ended = false := by
    rw [← hb1]
    exact hl
  have hseq : b1.core.receivedSequence = b.core.receivedSequence := by
    rw [← hb1]
    rfl
  obtain ⟨hstate, es, he, ht⟩ := terminate_spec (b1.noted n o) .closed
  generalize (b1.noted n o).terminate .closed = b2 at hstate he
  have h2 : Move i (b1.work q false) { ((b1.work q false).set fun s => s.ended .closed).emits
      (es.map Effect.bare) with sealed := true } :=
    .terminate ⟨rfl, hl1⟩ rfl ⟨ht.bare.split⟩
  have h3 := hs.ended { ((b1.work q false).set fun s => s.ended .closed).emits
    (es.map Effect.bare) with sealed := true } hseq rfl
  have hw : b2.work q true = ({ ((b1.work q false).set fun s => s.ended .closed).emits
      (es.map Effect.bare) with sealed := true } : Work).set fun s => { s with sequence := n } := by
    refine work_eq hstate ?_ q true
    rw [he, List.map_append]
    rfl
  rw [← hw] at h3
  exact ⟨q, true, ((h1.trans (.single h2)).trans h3).trans
    (report_moves (notify_quiet ⟨by simp [failureNotice], by simp [failureNotice]⟩) rfl)⟩

theorem rearmed_moves {m : Nat} {ts : Timers} (hs : Settles i b.core t n o)
    (ht : Retimed (b.noted n o) b' m ts) (hr : b.core.state.Rearms m ts)
    (hw : b.core.state.Watched) (hle : t ≤ b.core.serial) (hne : t ≠ 0) :
    Moves i (b.work q false) (b'.work q false) := by
  have ht1 : Retimed b ⟨{ b.core with serial := m, timers := ts }, b'.effects⟩ m ts :=
    ⟨rfl, ht.effects⟩
  have hb' : b'.work q false = (Batch.work ⟨{ b.core with serial := m, timers := ts }, b'.effects⟩
      q false).set fun s => { s with sequence := n, deferred := o } := by
    rw [work, ht.core]
    rfl
  rw [hb']
  refine (rearm_moves hw ht1 hr).trans (hs.running _ rfl rfl ?_)
  rcases hr with ⟨-, d, rfl⟩ | ⟨-, -, rfl⟩
  · show (Function.update b.core.timers .watchdog _ .watchdog).token ≠ t
    rw [Function.update_self]
    exact (Nat.lt_succ_of_le hle).ne'
  · show (Timers.stop b.core.timers .watchdog .watchdog).token ≠ t
    rw [Timers.stop_token]
    exact hne.symm

theorem probe_moves (hs : Settles i b.core t n o) (hi : i.kind ≠ .reserveResult)
    (hw : b.core.state.Watched) (hnext : b.core.wdNext = none)
    (hsend : (b.core.wd.step .expired).2.send = true) (hne : t ≠ 0) :
    Moves i (b.work q false) (((((b.noted n o).stop .watchdog).update fun c => { c with
      wdNext := some (b.core.wd.step .expired).1 }).reserve .deviceWatchdog).work q false) := by
  have hl : b.core.phase.ended = false := by
    rw [show b.core.phase = .opened from hw.1]
    rfl
  have htimed : Retimed (b.noted n o) ((b.noted n o).stop .watchdog) _ _ := stop_retimed
  generalize (b.noted n o).stop .watchdog = b1 at htimed
  obtain ⟨es, hquiet, hwork⟩ := htimed.work q false
  have hserial : b1.core.serial = b.core.serial := by
    rw [htimed.core]
    rfl
  have hm : Move i ((b.work q false).emits es) _ := .probe
    (e := { kind := .reserveIDs, command := some .deviceWatchdog, token := b1.core.serial + 1
            connection := b1.core.cfg.connection })
    ⟨rfl, hl⟩ hi hw.1 hw.2 hnext hsend rfl (congrArg (· + 1) hserial)
  refine ((quiet_moves (w := b.work q false) ⟨rfl, hl⟩ es hquiet).trans (.single hm)).trans ?_
  have hset : (b1.update fun c => { c with wdNext := some (b.core.wd.step .expired).1 }).work q
      false = (b1.work q false).set fun s => { s with
        wdNext := some (b.core.wd.step .expired).1 } := rfl
  rw [reserve_work, hset, hwork]
  refine hs.running _ rfl rfl ?_
  show (Timers.stop b.core.timers .watchdog .watchdog).token ≠ t
  rw [Timers.stop_token]
  exact hne.symm

theorem missed_moves (hs : Settles i b.core t n o) (hw : b.core.state.Watched)
    (hnext : b.core.wdNext = none) (hsend : (b.core.wd.step .expired).2.send = false)
    (hclose : (b.core.wd.step .expired).2.close = false) (hle : t ≤ b.core.serial) (hne : t ≠ 0)
    {f : Batch → Batch} (hnotice : ∀ b, Idle b (f b)) {time d : Int} :
    Moves i (b.work q false) (((f (((b.noted n o).stop .watchdog).update fun c => { c with
      wd := (b.core.wd.step .expired).1 })).watchdogArm time d).work q false) := by
  have hl : b.core.phase.ended = false := by
    rw [show b.core.phase = .opened from hw.1]
    rfl
  have h1 : Moves i (b.work q false) ((b.update fun c => { c with
      wd := (b.core.wd.step .expired).1 }).work q false) :=
    .single (.wdStep ⟨rfl, hl⟩ hw.1 hw.2 (.inr ⟨rfl, hnext⟩) hsend hclose)
  refine h1.trans ?_
  rw [← stop_update (f := fun c => { c with wd := (b.core.wd.step .expired).1 }) (fun _ _ => rfl)
    fun _ => rfl]
  have hcomm : ((b.noted n o).update fun c => { c with wd := (b.core.wd.step .expired).1 }) =
      (b.update fun c => { c with wd := (b.core.wd.step .expired).1 }).noted n o := rfl
  rw [hcomm]
  generalize hb1 : (b.update fun c => { c with wd := (b.core.wd.step .expired).1 }) = b1
  have hs1 : Settles i b1.core t n o := by
    rw [← hb1]
    exact ⟨hs.running, hs.ended⟩
  have hw1 : b1.core.state.Watched := by
    rw [← hb1]
    exact hw
  have hle1 : t ≤ b1.core.serial := by
    rw [← hb1]
    exact hle
  have hstop : Retimed (b1.noted n o) ((b1.noted n o).stop .watchdog) _ _ := stop_retimed
  have hquiet := hstop.trans (hnotice _).retimed
  obtain ⟨m, ts, ht, hr⟩ := watchdogArm_retimed (b := f ((b1.noted n o).stop .watchdog))
    (t := time) (d := d)
  rw [(hnotice _).core, hstop.core] at hr
  refine rearmed_moves hs1 (hquiet.trans ht) ?_ hw1 hle1 hne
  -- The timer was stopped before it was armed anew.
  rcases hr with ⟨rfl, d, rfl⟩ | ⟨hd, rfl, rfl⟩
  · exact .inl ⟨rfl, d, Timers.update_stop _ _ _⟩
  · exact .inr ⟨hd, rfl, Timers.stop_stop _ _⟩

omit [BasePackage] in
theorem step_expired_reset (m : Watchdog.Machine) : (m.step .expired).2.reset = true := by
  obtain ⟨state, pending, count⟩ := m
  cases state <;> cases pending <;> simp [Watchdog.Machine.step, Watchdog.Machine.onTimerElapsed]
  split <;> rfl

/-- An expired watchdog timer. Each branch does away with the timer that has expired. -/
theorem elapsed_reaches (hs : Settles i b.core j.token n o) (hw : b.core.state.Watched)
    (hi : i.kind ≠ .reserveResult) (hle : j.token ≤ b.core.serial) (hne : j.token ≠ 0)
    (hn : j.afterReceive ≤ n) : Reaches i b q ((b.noted n o).watchdogExpired j) := by
  have ho : b.core.phase = .opened := hw.1
  have hsup : b.core.cfg.watchdog = true := hw.2
  have hl : b.core.phase.ended = false := by
    rw [ho]
    rfl
  unfold watchdogExpired
  rw [if_neg (by simp [noted, update, ho, hsup]),
    if_neg (show ¬ j.afterReceive > (b.noted n o).core.receivedSequence from Nat.not_lt.2 hn)]
  split
  · obtain ⟨m, ts, ht, hr⟩ := watchdogArm_retimed (b := b.noted n o) (t := j.time)
      (d := j.interval)
    exact ⟨q, false, rearmed_moves hs ht hr hw hle hne⟩
  next hnext =>
    have hnext : (b.noted n o).core.wdNext = none := by simpa using hnext
    dsimp only
    split
    · exact watchdogFailed_reaches hl hs
    rename_i hclose
    split
    next hsend => exact ⟨q, false, probe_moves hs hi hw hnext hsend hne⟩
    rename_i hsend
    rw [if_pos (step_expired_reset (b.noted n o).core.wd)]
    refine ⟨q, false, missed_moves hs hw hnext (Bool.not_eq_true _ ▸ hsend)
      (Bool.not_eq_true _ ▸ hclose) hle hne
      (f := fun b' => if (b.core.wd.step .expired).2.failover = true
        then b'.notify { kind := .watchdog, watchdog := some (b.core.wd.step .expired).1.state }
        else b') fun b' => ?_⟩
    split
    · exact notify_idle ⟨by simp, by simp⟩
    · exact .refl

end Elapsed

omit [BasePackage] in
theorem watchdogExpired_unwatched (h : ¬ b.core.state.Watched) : b.watchdogExpired j = b := by
  unfold watchdogExpired
  rw [if_pos]
  simp only [Bool.or_eq_true, decide_eq_true_eq, Bool.not_eq_true']
  by_cases ho : b.core.phase = .opened
  · exact .inr (Bool.not_eq_true _ ▸ fun hw => h ⟨ho, hw⟩)
  · exact .inl ho

theorem watchdogExpired_reaches (hl : b.core.phase.ended = false) (hj : j.timer = .watchdog)
    (hi : i.kind ≠ .reserveResult) (htoken : (b.core.timers .watchdog).token = j.token)
    (hne : j.token ≠ 0) (hdue : (b.core.timers .watchdog).deadline ≤ j.time)
    (hle : j.token ≤ b.core.serial) : Reaches i b q (b.watchdogExpired j) := by
  by_cases hw : b.core.state.Watched
  · by_cases hafter : j.afterReceive > b.core.receivedSequence
    · have ho : b.core.phase = .opened := hw.1
      have hsup : b.core.cfg.watchdog = true := hw.2
      unfold watchdogExpired
      rw [if_neg (by simp [ho, hsup]), if_pos hafter]
      exact ⟨q, false, .single (.deferred ⟨rfl, hl⟩ hj htoken hne hdue hafter)⟩
    · have hs : Settles i b.core j.token b.core.receivedSequence b.core.deferredExpiry := by
        refine ⟨fun w h1 h2 _ => ?_, fun w h1 _ => ?_⟩
        · rw [← h1, ← h2]
          exact .refl
        · rw [← h1]
          exact .refl
      exact elapsed_reaches hs hw hi hle hne (Nat.not_lt.1 hafter)
  · rw [watchdogExpired_unwatched hw]
    exact .refl

/-- The expiry that has waited for the message that was just received. -/
theorem deferredExpiry_reaches {n : Nat} (hd : b.core.deferredExpiry = some j)
    (hn : j.afterReceive ≤ n) (hj : j.timer = .watchdog) (hi : i.kind ≠ .reserveResult)
    (hle : (b.core.timers .watchdog).token ≤ b.core.serial) :
    Reaches i b q ((b.noted n none).expire j) := by
  have hmem : ∀ j' ∈ b.core.deferredExpiry, j' = j := by
    intro j' h
    rw [hd] at h
    exact (Option.mem_some.1 h).symm
  have hdrop : ((b.core.timers .watchdog).token = j.token → (b.core.timers .watchdog).token = 0 ∨
      j.time < (b.core.timers .watchdog).deadline ∨ ¬ b.core.state.Watched) →
      Reaches i b q (b.noted n none) := by
    intro h
    refine ⟨q, false, .single (.expired fun j' h' ht => ?_)⟩
    rw [hmem j' h'] at ht ⊢
    exact h ht
  unfold expire
  dsimp only
  rw [hj]
  split
  next h =>
    simp only [Bool.or_eq_true, decide_eq_true_eq, or_assoc] at h
    refine hdrop fun ht => ?_
    rcases h with h | h | h
    · exact .inl h
    · exact (h ht).elim
    · exact .inr (.inl h)
  next h =>
    simp only [Bool.or_eq_true, decide_eq_true_eq, or_assoc, not_or, not_not, Int.not_lt] at h
    obtain ⟨h0, htoken, hdue⟩ := h
    have htoken : (b.core.timers .watchdog).token = j.token := htoken
    dsimp only
    by_cases hw : b.core.state.Watched
    · have hs : Settles i b.core j.token n none := by
        refine ⟨fun w h1 h2 h3 => .single (.expired fun j' h' ht => ?_), fun w h1 h2 => ?_⟩
        · rw [hmem j' (h2 ▸ h')] at ht
          exact (h3 ht).elim
        have hm : Move i w (w.set fun s => { s with sequence := n, deferred := none }) :=
          .expired fun j' h' => by
            rw [h2] at h'
            cases h'
        rw [← h2] at hm
        exact .single hm
      exact elapsed_reaches hs hw hi (htoken ▸ hle) (htoken ▸ h0) hn
    · rw [watchdogExpired_unwatched (b := b.noted n none) hw]
      exact hdrop fun _ => .inr (.inr hw)

omit [BasePackage] in
theorem controlSend_work (b : Batch) (r : Nat) (m : Packet) (q : Option Header) (σ : Bool) :
    (b.send m { control := some r }).work q σ = ((b.work q σ).set fun s => { s with
      serial := s.serial + 1
      leases := s.leases.send (s.serial + 1) r
        { control := some r, length := m.message.len } }).emit
      { kind := .send, token := b.core.serial + 1, message := some m
        stage := if b.core.cfg.queueWrites then .queue else .written
        connection := b.core.cfg.connection } := by
  unfold send
  dsimp only
  rw [emit_work]
  rfl

omit [BasePackage] in
theorem ownOf_operation {r : Nat} {n : Int} :
    Operation.OwnOf { control := some r, length := n } r :=
  ⟨rfl, rfl, rfl, rfl, rfl, by simp [Operation.Plain]⟩

theorem retry_reaches (hl : b.core.phase.ended = false) (hi : i.HandshakeExpired)
    (hretry : (b.core.timers .retry).token ≠ 0) :
    Reaches i b q (match b.core.controls .capabilitiesExchange with
      | some r =>
        match (b.core.control? r).bind fun k =>
            if k.logical && k.attempts ≤ b.core.cfg.maxRetransmits then k.frame else none with
        | some frame => (b.stop .retry).send frame.copy { control := some r }
        | none => b.fail j .handshakeTimeout 0
      | none => b.fail j .handshakeTimeout 0) := by
  split
  next r hr =>
    split
    next frame hf =>
      obtain ⟨k, hk, hf⟩ := Option.bind_eq_some_iff.1 hf
      split at hf
      next hlog =>
        simp only [Bool.and_eq_true] at hlog
        have htimed : Retimed b (b.stop .retry) _ _ := stop_retimed
        generalize b.stop .retry = b1 at htimed
        obtain ⟨es, hquiet, hw⟩ := htimed.work q false
        refine ⟨q, false, (quiet_moves (w := b.work q false) ⟨rfl, hl⟩ es hquiet).trans
          (.single ?_)⟩
        have hserial : b1.core.serial = b.core.serial := by rw [htimed.core]
        rw [controlSend_work, hw, hserial]
        exact .retransmit (m := frame.copy) ⟨rfl, hl⟩ ⟨hi.1, hretry⟩ hk hlog.1 hr (by rw [hf]; rfl)
          ownOf_operation ⟨rfl, rfl, rfl, rfl, rfl⟩
      · cases hf
    · exact fail_reaches hl fun _ => hi
  · exact fail_reaches hl fun _ => hi

/-- `j` is the expiry: the input itself, or a watchdog expiry that waited for it. -/
theorem expire_reaches (hl : b.core.phase.ended = false) (hi : i.kind = .timerExpired)
    (htokens : ∀ k, (b.core.timers k).token ≤ b.core.serial) : Reaches i b q (b.expire i) := by
  unfold expire
  dsimp only
  split
  · exact .refl
  rename_i h
  simp only [Bool.or_eq_true, decide_eq_true_eq, or_assoc, not_or, not_not, Int.not_lt] at h
  obtain ⟨h0, htoken, hdue⟩ := h
  split
  next ht =>
    rw [ht] at h0 htoken hdue
    exact watchdogExpired_reaches hl ht (by simp [hi]) htoken (htoken ▸ h0) hdue
      (htoken ▸ htokens _)
  next ht => exact fail_reaches hl fun _ => ⟨hi, .inl ht⟩
  next ht =>
    rw [ht] at h0
    exact retry_reaches hl ⟨hi, .inr ht⟩ h0
  · split
    · exact terminate_notify_reaches hl ⟨by simp, by simp⟩
    · exact fail_reaches hl (by simp)
  · exact fail_reaches hl (by simp)

/-! ## Reservations -/

theorem exchange_moves (hl : b.core.phase.ended = false)
    (hi : i.kind = .reserveResult) (herr : i.err = none)
    (hres : b.core.reservations.lookup i.token = some cmd)
    (hdw : cmd = .deviceWatchdog → b.core.phase = .opened) :
    Moves i (b.work q false) (((b.update fun c => { c with
      reservations := c.reservations.erase i.token }).update fun c => c.addControl
        { command := cmd, reservation := i.reservation }).work q false) := by
  have hm : Move i (b.work q false) _ := .exchange
    (k := { command := cmd, reservation := i.reservation }) ⟨rfl, hl⟩ hi herr hres hdw rfl
    ⟨rfl, rfl, rfl, rfl, rfl⟩ rfl
  exact .single hm

theorem buildControl_asks {c : Core} {m : Packet}
    (h : c.buildControl cmd = .ok m) : m.header.Asks cmd := by
  cases cmd with
  | capabilitiesExchange => exact buildCER_asks h
  | deviceWatchdog => exact buildDWR_asks h
  | disconnectPeer => exact buildDPR_asks h

omit [BasePackage] in
theorem noteHandshake_state (c : Core) (cmd : BaseCommand) (e : ProtocolError) :
    (c.noteHandshake cmd e).state = c.state := by
  unfold Core.noteHandshake
  split <;> rfl

theorem unseen_terminate_reaches {f : Core → Core} (hl : b.core.phase.ended = false)
    (hf : (f b.core).state = b.core.state) : Reaches i b q ((b.update f).terminate .closed) := by
  have hl' : (b.update f).core.phase.ended = false := by
    show (f b.core).state.phase.ended = false
    rw [hf]
    exact hl
  have h : Reaches i (b.update f) q ((b.update f).terminate .closed) := terminate_reaches hl' rfl
  exact h.unseen hf rfl

theorem openExchange_reaches (hl : b.core.phase.ended = false)
    (hi : i.kind = .reserveResult) (herr : i.err = none)
    (hres : b.core.reservations.lookup i.token = some cmd)
    (hdw : cmd = .deviceWatchdog → b.core.phase = .opened) :
    Reaches i b q ((b.update fun c => { c with
      reservations := c.reservations.erase i.token }).openExchange cmd i.reservation) := by
  unfold openExchange
  split
  next err _ =>
    exact .after (exchange_moves hl hi herr hres hdw) (unseen_terminate_reaches
      (b := ((b.update fun c => { c with reservations := c.reservations.erase i.token }).update
        fun c => c.addControl { command := cmd, reservation := i.reservation }))
      (f := fun c => c.noteHandshake cmd err) hl (noteHandshake_state _ _ _))
  next m hbuild =>
    obtain ⟨hrequest, hbase⟩ := buildControl_asks hbuild
    refine ⟨q, false, .single ?_⟩
    rw [controlSend_work]
    exact .request (k := { command := cmd, reservation := i.reservation
                           header := some (Packet.withIDs m i.reservation).header
                           frame := some (Packet.withIDs m i.reservation).copy })
      (m := Packet.withIDs m i.reservation) ⟨rfl, hl⟩ hi herr hres hdw rfl
      ⟨rfl, rfl, rfl, rfl, rfl⟩ rfl ⟨hrequest, hbase⟩ ownOf_operation
      ⟨rfl, rfl, rfl, rfl, rfl⟩

theorem reserved_reaches (hi : i.kind = .reserveResult) : Reaches i b q (b.reserved i) := by
  unfold reserved
  split
  · exact .refl
  rename_i cmd hres
  dsimp only
  split
  next err herr =>
    have h1 : Moves i (b.work q false) ((b.update fun c => { c with
        reservations := c.reservations.erase i.token }).work q false) :=
      .single (.reserveFailed rfl hi (by rw [herr]; rfl) hres)
    split
    · exact ⟨q, false, h1⟩
    rename_i hl
    refine .after h1 (unseen_terminate_reaches ?_ (noteHandshake_state _ _ _))
    simpa using hl
  next herr =>
    split
    next h =>
      refine ⟨q, false, .single ?_⟩
      rw [emit_work]
      refine .returned rfl hi herr hres ?_ rfl rfl
      simp only [Bool.or_eq_true, Bool.and_eq_true, decide_eq_true_eq] at h
      exact h
    next h =>
      simp only [Bool.or_eq_true, Bool.and_eq_true, decide_eq_true_eq, not_or, not_and, not_not,
        Bool.not_eq_true] at h
      exact openExchange_reaches h.1 hi herr hres h.2

/-! ## Write results -/

omit [BasePackage] in
theorem finishWrite_core (b : Batch) (t : Nat) (r : Option Nat) (v : Bool) :
    ∃ ops h cs, (b.finishWrite t r v).core =
      { b.core with operations := ops, heap := h, controls := cs } := by
  unfold finishWrite
  dsimp only
  cases r with
  | none => exact ⟨_, _, _, rfl⟩
  | some r =>
    obtain ⟨h, cs, hc⟩ := (drop_freed (b.update fun c => { c with
      operations := c.operations.erase t }) r fun k =>
        { k with writers := k.writers - 1, written := k.written || v }).core
    exact ⟨_, h, cs, hc⟩

theorem finishWrite_moves {v : Bool} (hi : i.kind = .writeResult) (hf : isFinal i = true)
    (hop : b.core.operations.lookup i.token = some op) (hq : i.stage = .queue → op.queued = false) :
    Moves i (b.work q false) ((b.finishWrite i.token op.control v).work q false) := by
  have hfreed : ∃ es, Releases (b.core.leases.writeDone i.token op v).2 es ∧
      (b.finishWrite i.token op.control v).work q false =
        ((b.work q false).set fun s => { s with
          leases := (b.core.leases.writeDone i.token op v).1 }).emits es := by
    unfold finishWrite Leases.writeDone Leases.finish
    dsimp only
    cases op.control with
    | none =>
      refine ⟨[], .nil, ?_⟩
      rw [Work.emits, List.append_nil]
      rfl
    | some r =>
      exact (drop_freed (b.update fun c => { c with operations := c.operations.erase i.token }) r
        fun k => { k with writers := k.writers - 1, written := k.written || v }).work q false
  obtain ⟨es, hr, hw⟩ := hfreed
  rw [hw]
  exact .single (.finishWrite rfl hi hf hop hq hr)

theorem failWrite_reaches {e : ProtocolError} (hl : b.core.phase.ended = false) (hn : op.Plain) :
    Reaches i b q (b.failWrite j op e) := by
  unfold failWrite
  dsimp only
  generalize hb1 : (if (b.core.cfg.keepCERDeadlineAfterTransportLoss &&
      decide (b.core.phase = .waitCEA) && (op.control.bind b.core.control?).any fun k =>
        decide (k.command = .capabilitiesExchange)) = true
    then b.update fun c => { c with handshake := ⟨some e, none⟩ } else b) = b1
  have h1 : b1.core.state = b.core.state ∧ b1.effects = b.effects := by
    rw [← hb1]
    split <;> exact ⟨rfl, rfl⟩
  have hl1 : b1.core.phase.ended = false := by
    show b1.core.state.phase.ended = false
    rw [h1.1]
    exact hl
  suffices h : Reaches i b1 q _ from h.unseen h1.1 h1.2
  split
  · exact terminate_reaches hl1 rfl
  split
  next n _ hnotice =>
    split
    · have hk := hn n (by rw [hnotice]; rfl)
      exact terminate_notify_reaches hl1 ⟨hk.1, fun h => (hk.2 h).elim⟩
    · exact terminate_notify_reaches hl1 ⟨by simp, by simp⟩
  · exact terminate_notify_reaches hl1 ⟨by simp, by simp⟩

theorem watchdogPublished_reaches : Reaches i b q (b.watchdogPublished j) := by
  unfold watchdogPublished
  split
  · exact .refl
  rename_i ho
  rw [not_not] at ho
  have hl : b.core.phase.ended = false := by rw [ho]; rfl
  split
  · exact .refl
  rename_i next hn
  generalize hb1 : (b.update fun c => { c with wd := next, wdNext := none }) = b1
  obtain ⟨n, ts, ht, hr⟩ := watchdogArm_retimed (b := b1) (t := j.time) (d := j.interval)
  have hnotify : Idle (b1.watchdogArm j.time j.interval) ((b1.watchdogArm j.time
      j.interval).notify { kind := .watchdog, watchdog := some next.state }) :=
    notify_idle ⟨by simp, by simp⟩
  obtain ⟨es, hquiet, hw⟩ := (ht.trans hnotify.retimed).work q false
  rw [ht.core] at hw
  rw [← hb1] at hr
  have hm : Move i (b.work q false) _ := .published ⟨rfl, hl⟩ ho hn hr
  refine ⟨q, false, ?_⟩
  rw [hw, ← hb1]
  exact .cons hm (quiet_moves (w := (b.work q false).set fun s => { s with
    wd := next, wdNext := none, serial := n, timers := ts }) ⟨rfl, hl⟩ es hquiet)

theorem exchangePublished_reaches {r : Nat} (hl : b.core.phase.ended = false)
    (hi : i.kind = .writeResult) :
    Reaches i b q (b.exchangePublished j r) := by
  unfold exchangePublished
  split
  · exact .refl
  split
  · exact .refl
  split
  · exact watchdogPublished_reaches
  · split
    · exact ⟨q, false, arm_moves hl hi⟩
    · exact .refl
  · exact .refl

omit [BasePackage] in
theorem writeNotice_idle (hn : op.Plain) : Idle b (b.writeNotice j op) := by
  unfold writeNotice
  split
  · exact .refl
  rename_i n hnotice
  have hk := hn n (by rw [hnotice]; rfl)
  exact notify_idle ⟨hk.1, fun h => (hk.2 h).elim⟩

theorem reportWrite_reaches (hl : b.core.phase.ended = false) (hi : i.kind = .writeResult)
    (hn : op.Plain) : Reaches i b q (b.reportWrite j op) := by
  unfold reportWrite
  dsimp only
  have hidle : Idle b (b.writeNotice j op) := writeNotice_idle hn
  refine hidle.then hl fun hl1 => ?_
  generalize b.writeNotice j op = b1 at hl1 ⊢
  generalize hb2 : (if (op.handshake && decide (b1.core.phase = .opened)) = true
    then b1.handshakeReady else b1) = b2
  have h2 : Moves i (b1.work q false) (b2.work q false) ∧ b2.core.phase.ended = false := by
    rw [← hb2]
    split
    next h =>
      simp only [Bool.and_eq_true, decide_eq_true_eq] at h
      exact ⟨handshakeReady_moves h.2, hl1⟩
    · exact ⟨.refl, hl1⟩
  refine .after h2.1 ?_
  split
  · exact .refl
  · exact exchangePublished_reaches h2.2 hi

theorem reportWrite_ended (hp : b.core.phase = .closed) (hc : op.control = none) (hn : op.Plain) :
    Moves i (b.work q true) ((b.reportWrite j op).work q true) := by
  unfold reportWrite writeNotice
  dsimp only
  rw [hc]
  cases hnotice : op.notice with
  | none =>
    dsimp only
    rw [if_neg (by simp [hp])]
    exact .refl
  | some n =>
    have hk := hn n (by rw [hnotice]; rfl)
    dsimp only
    rw [if_neg (by simp [notify, emit, hp])]
    exact report_moves (notify_quiet ⟨hk.1, fun h => (hk.2 h).elim⟩) rfl

section

variable (hl : b.core.phase.ended = false) (hi : i.kind = .writeResult)
  (hqueue : i.stage = .queue →
    i.err = none ∧ b.core.operations.lookup i.token = some { op with queued := true })
  (hc : op.closeAfter = true → op.control = none) (hn : op.Plain)
include hl hi hqueue hc hn

theorem writeBoundary_reaches : Reaches i b q (b.writeBoundary i op) := by
  unfold writeBoundary
  dsimp only
  by_cases hclose : (op.closeAfter && decide (i.stage = .written)) = true
  · rw [if_pos hclose]
    simp only [Bool.and_eq_true, decide_eq_true_eq] at hclose
    have h1 := terminate_moves (i := i) (p := q) (f := .closed) hl rfl
    split
    · exact ⟨q, true, h1⟩
    rw [if_neg (by simp [hclose.2])]
    refine ⟨q, true, h1.trans (reportWrite_ended ?_ (hc hclose.1) hn)⟩
    exact terminate_phase b .closed
  · rw [if_neg hclose]
    split
    · exact .refl
    by_cases hs : i.stage = .queue
    · rw [if_pos hs]
      obtain ⟨herr, hop⟩ := hqueue hs
      have h1 : Moves i (b.work q false) ((b.update fun c => c.setOperation i.token
          { op with queued := true, reported := true }).work q false) :=
        .single (.progress rfl hi hs herr hop rfl rfl rfl rfl)
      exact .after h1 (reportWrite_reaches hl hi hn)
    · rw [if_neg hs]
      exact reportWrite_reaches hl hi hn

theorem writeSucceeded_reaches : Reaches i b q (b.writeSucceeded i op) := by
  unfold writeSucceeded
  dsimp only
  split
  next saved hearly =>
    split
    · have hs : b.work q false =
          { b.work q false with state := { b.core.state with earlyDPA := true } } := by
        have he : b.core.state.earlyDPA = true := congrArg Option.isSome hearly
        rw [← he]
        rfl
      refine ⟨q, true, ?_⟩
      rw [hs]
      exact completeDPA_moves hl
    · exact writeBoundary_reaches hl hi hqueue hc hn
  · exact writeBoundary_reaches hl hi hqueue hc hn

end

section

variable {r : Nat} (hi : i.kind = .writeResult) (hs : i.stage = .skipped)
  (hop : b.core.operations.lookup i.token = some op) (hr : op.control = some r)
include hi hs hop hr

theorem skipped_moves {k : Control} (hk : b.core.control? r = some k)
    (hb : b' = (b.update fun c => { c.setControl r (fun k' =>
        { k' with writers := k'.writers - 1
                  logical := k'.logical && !(k.writers = 1 && !k.written) }) with
      operations := c.operations.erase i.token }).release r) :
    Moves i (b.work q false) ((if k.command = .deviceWatchdog && !k.written && k.logical
      then b'.update fun c => { c with wdNext := none, wd := { c.wd with pending := false } }
      else b').work q false) ∧ b'.core.phase = b.core.phase := by
  generalize hf : (fun k' : Control => { k' with
    writers := k'.writers - 1, logical := k'.logical && !(k'.writers = 1 && !k'.written) }) = f
  have hmod : b.core.heap.modify r (fun k' => { k' with
      writers := k'.writers - 1, logical := k'.logical && !(k.writers = 1 && !k.written) }) =
      b.core.heap.modify r f := by
    refine modify_congr hk ?_
    rw [← hf]
  have hfreed := drop_freed (b.update fun c => { c with
    operations := c.operations.erase i.token }) r f
  have hb' : b' = ((b.update fun c => { c with
      operations := c.operations.erase i.token }).update fun c => c.setControl r f).release r := by
    rw [hb]
    unfold update Core.setControl
    dsimp only
    rw [hmod]
  rw [← hb'] at hfreed
  obtain ⟨es, hrel, hw⟩ := hfreed.work q false
  refine ⟨?_, hfreed.phase⟩
  have hrel' : Releases (b.core.leases.writeSkipped i.token r).2 es := by
    unfold Leases.writeSkipped
    rw [hf]
    exact hrel
  have hw' : b'.work q false = ((b.work q false).set fun s =>
      { s with leases := (s.leases.writeSkipped i.token r).1 }).emits es := by
    unfold Leases.writeSkipped
    rw [hf]
    exact hw
  split
  next h =>
    simp only [Bool.and_eq_true, decide_eq_true_eq, Bool.not_eq_true'] at h
    have hset := congrArg (fun w : Work => w.set fun s => { s with
      wdNext := none, wd := { s.wd with pending := false } }) hw'
    change (b'.update fun c => { c with
      wdNext := none, wd := { c.wd with pending := false } }).work q false = _ at hset
    rw [hset]
    exact .single (.skippedProbe rfl hi hs hop hr hk hrel' h.1.1 h.1.2 h.2)
  next h =>
    simp only [Bool.and_eq_true, decide_eq_true_eq, Bool.not_eq_true', not_and,
      Bool.not_eq_true, and_imp] at h
    rw [hw']
    exact .single (.skipped rfl hi hs hop hr hk hrel' h)

theorem skippedControl_reaches : Reaches i b q (b.skippedControl i r) := by
  unfold skippedControl
  split
  · exact .refl
  rename_i k hk
  dsimp only
  generalize hb1 : (b.update fun c => { c.setControl r (fun k' =>
      { k' with writers := k'.writers - 1
                logical := k'.logical && !(k.writers = 1 && !k.written) }) with
    operations := c.operations.erase i.token }).release r = b1
  obtain ⟨hm, hp⟩ := skipped_moves (q := q) hi hs hop hr hk hb1.symm
  split
  next h =>
    simp only [Bool.and_eq_true, decide_eq_true_eq] at h
    have hdw : ¬ (k.command = .deviceWatchdog && !k.written && k.logical) = true := by simp [h.2]
    rw [if_neg hdw] at hm
    refine .after hm (unseen_terminate_reaches ?_ ?_)
    · rw [h.1.2]
      rfl
    · rfl
  · split
    next hdw =>
      rw [if_pos hdw] at hm
      refine .after hm ?_
      split
      next h =>
        simp only [Bool.and_eq_true, decide_eq_true_eq, and_assoc] at h
        exact ⟨q, false, watchdogArm_moves ⟨h.2.1, h.1⟩⟩
      · exact .refl
    next hdw =>
      rw [if_neg hdw] at hm
      exact ⟨q, false, hm⟩

end

/-- What is known of the writes that have no final result yet. -/
structure Operation.Sound (op : Operation) : Prop where
  last : op.closeAfter = true → op.control = none
  plain : op.Plain

theorem writeResult_reaches (hi : i.kind = .writeResult)
    (hops : ∀ t op, b.core.operations.lookup t = some op → Operation.Sound op) :
    Reaches i b q (b.writeResult i) := by
  unfold writeResult
  split
  · exact .refl
  rename_i op hop
  have hsound := hops i.token op hop
  split
  next r hs hr => exact skippedControl_reaches hi hs hop hr
  dsimp only
  split
  · exact .refl
  rename_i hqueued
  simp only [Bool.and_eq_true, decide_eq_true_eq, not_and, Bool.not_eq_true] at hqueued
  generalize hb1 : (if isFinal i = true then b.finishWrite i.token op.control
      (decide (i.stage = .written) && (writeError i op).isNone)
    else b.update fun c => c.setOperation i.token { op with queued := true }) = b1
  have h1 : Moves i (b.work q false) (b1.work q false) ∧ (i.stage = .queue →
      writeError i op = none → i.err = none ∧
        b1.core.operations.lookup i.token = some { op with queued := true }) := by
    rw [← hb1]
    split
    next hfinal =>
      refine ⟨finishWrite_moves hi hfinal hop hqueued, ?_⟩
      intro hs herr
      rw [isFinal, hs] at hfinal
      rw [writeError, hs] at herr
      revert herr hfinal
      cases i.err <;> simp
    next hfinal =>
      simp only [isFinal, Bool.or_eq_true, decide_eq_true_eq, not_or, not_not,
        Bool.not_eq_true, Option.isSome_eq_false_iff, Option.isNone_iff_eq_none] at hfinal
      refine ⟨.single (.progress rfl hi hfinal.1 hfinal.2 hop rfl rfl rfl rfl), ?_⟩
      intro _ _
      exact ⟨hfinal.2, AList.lookup_insert _⟩
  refine .after h1.1 ?_
  split
  · exact .refl
  rename_i hl
  have hl : b1.core.phase.ended = false := by simpa using hl
  split
  · exact failWrite_reaches hl hsound.plain
  next herr => exact writeSucceeded_reaches hl hi (fun hs => h1.2 hs herr) hsound.last hsound.plain

end Batch

end Diameter.Protocol
