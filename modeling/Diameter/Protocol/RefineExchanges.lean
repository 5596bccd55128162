import Diameter.Protocol.RefineReplies

/-!
# Protocol.RefineExchanges

The moves of the three exchanges of a connection: watchdog, disconnect and capabilities.
-/

namespace Diameter.Protocol

open Lib BasePackage

variable {r : Nat}

variable [BasePackage] {i j : Input} {b b' : Batch} {q : Option Header} {p : Packet}

namespace Batch

/-! ## Watchdog -/

theorem notify_moves {n : Notification} (hl : b.core.phase.ended = false)
    (hk : n.kind ≠ .handshake) (hd : n.kind ≠ .disconnect) :
    Moves i (b.work q false) ((b.notify n).work q false) :=
  (notify_idle ⟨hk, fun h => (hd h).elim⟩).moves hl q

omit [BasePackage] in
theorem validActivity_core (b : Batch) : ∃ m, b.validActivity.core = { b.core with wd := m } := by
  unfold validActivity
  split
  · exact ⟨_, rfl⟩
  dsimp only
  split
  · exact ⟨_, rfl⟩
  · exact ⟨_, rfl⟩

omit [BasePackage] in
theorem validActivity_live (hl : b.core.phase.ended = false) :
    b.validActivity.core.phase.ended = false := by
  obtain ⟨m, hc⟩ := b.validActivity_core
  rw [hc]
  exact hl

theorem validActivity_moves (hl : b.core.phase.ended = false) :
    Moves i (b.work q false) (b.validActivity.work q false) := by
  unfold validActivity
  split
  · exact .refl
  rename_i h
  simp only [Bool.or_eq_true, not_or, decide_eq_true_eq, not_not, Bool.not_eq_true',
    Bool.not_eq_false] at h
  have hs := Watchdog.Machine.step_receive b.core.wd
  have h1 : Moves i (b.work q false) ((b.update fun c => { c with
      wd := (b.core.wd.step .receive).1 }).work q false) :=
    .single (.wdStep ⟨rfl, hl⟩ h.1 h.2 (.inl rfl) hs.1 hs.2)
  dsimp only
  split
  · exact h1.trans (notify_moves hl (fun h => by cases h) (fun h => by cases h))
  · exact h1

theorem dwr_reaches (hl : b.core.phase.ended = false) (hg : Grants q p) :
    Reaches i b q (b.dwr j p) := by
  unfold dwr
  split
  · exact discardCause_idle.reaches hl
  split
  · exact fail_reaches hl (by simp)
  rename_i answer hb
  exact .after (validActivity_moves hl)
    (send_reaches (validActivity_live hl) hg (buildDWA_answers hb) rfl (by simp)
      rfl rfl)

theorem pauseHook_reaches (hl : b.core.phase.ended = false) (hq : q = some p.header)
    (hcode : p.header.commandCode = BaseCommand.capabilitiesExchange.code ∨
      p.header.commandCode = BaseCommand.deviceWatchdog.code)
    (hpre : b.core.phase = .preCER →
      p.header.commandCode = BaseCommand.capabilitiesExchange.code ∧
      b.core.cfg.role = .responder ∧ b.core.candidateToken = 0 ∧ b.core.hookToken = 0 ∧
      b.core.terminal = false)
    (hce : p.header.commandCode = BaseCommand.capabilitiesExchange.code →
      b.core.phase = .preCER ∨ b.core.phase = .opened) :
    Reaches i b q (b.pauseHook j p) := by
  refine ⟨none, false, .single ?_⟩
  unfold pauseHook
  rw [emit_work]
  refine .runHook ⟨rfl, hl⟩ hq p.header_copy hcode hpre ?_ hce rfl rfl
  show (decide (b.core.phase = .opened) && _) = true ↔ b.core.phase = .opened ∧ _
  simp

omit [BasePackage] in
/-- Settling an exchange marks it as answered, so it makes no difference that it was before. -/
theorem settle_answered (l : Leases) (r : Nat) :
    { l with heap := l.heap.modify r fun k => { k with answered := true } }.settle r =
      l.settle r := by
  have h : (l.heap.modify r fun k => { k with answered := true }).modify r
        (fun k => { k with logical := false, answered := true }) =
      l.heap.modify r fun k => { k with logical := false, answered := true } := by
    rw [List.modify_modify_eq]
    rfl
  unfold Leases.settle Leases.drop
  dsimp only
  rw [h]

omit [BasePackage] in
theorem consume_settle_spec (b : Batch) (r : Nat) (p : Packet) :
    ((b.consumeControl r p).settle r).core.state =
      { b.core.state with leases := (b.core.leases.settle r).1 } ∧
    ∃ es es', ((b.consumeControl r p).settle r).effects = b.effects ++ es ++ es' ∧
      (∀ e ∈ es, e.Quiet) ∧ Releases (b.core.leases.settle r).2 es' := by
  unfold consumeControl
  split
  · have h := settle_freed b r
    obtain ⟨es, he, hr⟩ := h.effects
    refine ⟨h.state, [], es, ?_, List.forall_mem_nil _, hr⟩
    rw [List.append_nil]
    exact he
  · have h := settle_freed ((b.update fun c => c.setControl r fun k =>
      { k with answered := true }).consumed p) r
    have hs : ((b.update fun c => c.setControl r fun k =>
        { k with answered := true }).consumed p).core.leases.settle r = b.core.leases.settle r :=
      settle_answered b.core.leases r
    rw [hs] at h
    obtain ⟨es, he, hr⟩ := h.effects
    refine ⟨h.state, _, es, he, ?_, hr⟩
    intro e he
    rw [List.mem_singleton.1 he]
    trivial

/-- The watchdog timer runs, if it is in use. -/
def Armed (c : Core) : Prop :=
  c.state.Watched → 0 < c.cfg.watchdogInterval → (c.timers .watchdog).token ≠ 0

theorem creditDWA_reaches {k : Control} (hm : i.message = .packet p) (ho : b.core.phase = .opened)
    (hw : b.core.cfg.watchdog = true) (hr : b.core.controls .deviceWatchdog = some r)
    (hk : b.core.control? r = some k) (hc : Credits b.core.caps.host b.core.caps.realm k p)
    (ha : Armed b.core) : Reaches i b q (b.creditDWA r p) := by
  have hl : b.core.phase.ended = false := by rw [ho]; rfl
  unfold creditDWA
  dsimp only
  generalize hn : ((b.core.wdNext.getD b.core.wd).step .receiveDWA) = next
  obtain ⟨hs, es, es', he, hq, hrel⟩ := consume_settle_spec
    (b.update fun c => { c with wd := next.1, wdNext := none }) r p
  generalize ((b.update fun c => { c with wd := next.1, wdNext := none }).consumeControl r p).settle
    r = b2 at hs he
  have hl2 : b2.core.phase.ended = false := by
    show b2.core.state.phase.ended = false
    rw [hs]
    exact hl
  have h1 := quiet_moves (i := i) (w := b.work q false) ⟨rfl, hl⟩ (es.map Effect.bare) (by
    intro e h
    obtain ⟨e', h', rfl⟩ := List.mem_map.1 h
    exact hq e' h')
  have h2 : Moves i ((b.work q false).emits (es.map Effect.bare)) (b2.work q false) := by
    have hwork : b2.work q false = (((b.work q false).emits (es.map Effect.bare)).set fun s =>
        { s with wd := ((s.wdNext.getD s.wd).step .receiveDWA).1, wdNext := none
                 leases := (s.leases.settle r).1 }).emits (es'.map Effect.bare) := by
      simp only [work, Work.set, Work.emits, he, List.map_append, hs]
      rw [← hn]
      rfl
    rw [hwork]
    exact .single (.credit ⟨rfl, hl⟩ ho hw hm hr hk hc (ha ⟨ho, hw⟩) hrel.bare)
  have h3 : Moves i (b.work q false) ((b2.notify { kind := .watchdog, watchdog := some next.1.state
                                                   diagnostic := "answer" }).work q false) :=
    (h1.trans h2).trans (notify_moves hl2 (fun h => by cases h) (fun h => by cases h))
  split
  · exact ⟨q, false, h3.trans (notify_moves hl2 (fun h => by cases h) (fun h => by cases h))⟩
  · exact ⟨q, false, h3⟩

theorem consumeControl_moves (hl : b.core.phase.ended = false) :
    Moves i (b.work q false) ((b.consumeControl r p).work q false) ∧
      (b.consumeControl r p).core.phase.ended = false := by
  unfold consumeControl
  split
  · exact ⟨.refl, hl⟩
  have h1 : Moves i (b.work q false) ((b.update fun c => c.setControl r fun k =>
      { k with answered := true }).work q false) := .single (.consume ⟨rfl, hl⟩)
  refine ⟨h1.trans (Idle.moves consumed_idle ?_ q), hl⟩
  exact hl

theorem bound_spec {c : Core} (h : c.bound p true = true) : (parseDWR p).2 = none ∧
    equalIdentity (parseDWR p).1.originHost c.caps.host = true ∧
    equalIdentity (parseDWR p).1.originRealm c.caps.realm = true := by
  simpa [Core.bound, and_assoc] using h

theorem matchedDWA_reaches {k : Control} (hm : i.message = .packet p) (ho : b.core.phase = .opened)
    (hw : b.core.cfg.watchdog = true) (hr : b.core.controls .deviceWatchdog = some r)
    (hk : b.core.control? r = some k) (hmatch : matchesControl (some k) p.header = true)
    (hv : validateMessage p = none) (ha : Armed b.core) : Reaches i b q (b.matchedDWA j p r) := by
  have hl : b.core.phase.ended = false := by rw [ho]; rfl
  unfold matchedDWA
  split
  · exact discardCause_idle.reaches hl
  rename_i parsed hparsed
  split
  · exact discardCause_idle.reaches hl
  split
  · have h1 := consumeControl_moves (i := i) (q := q) (p := p) (r := r) hl
    refine .after h1.1 ((discard_amend_idle ?_).reaches h1.2)
    exact fun _ => rfl
  next hsuccess =>
    split
    · exact discardCause_idle.reaches hl
    rename_i hbound
    simp only [Bool.or_eq_true, not_or, Bool.not_eq_true', Bool.not_eq_false,
      Bool.not_eq_true] at hbound
    have hid := bound_spec hbound.1
    exact creditDWA_reaches hm ho hw hr hk ⟨hmatch, hv, ⟨parsed, hparsed, not_not.1 hsuccess⟩,
      hbound.2, hid.1, hid.2.1, hid.2.2⟩ ha

theorem dwa_reaches (hm : i.message = .packet p) (ho : b.core.phase = .opened)
    (hw : b.core.cfg.watchdog = true) (ha : Armed b.core) : Reaches i b q (b.dwa j p) := by
  have hl : b.core.phase.ended = false := by rw [ho]; rfl
  unfold dwa
  split
  · exact discard_idle.reaches hl
  rename_i hv
  split
  next r hr =>
    split
    next hmatch =>
      cases hk : b.core.control? r with
      | none =>
        rw [hk] at hmatch
        cases hmatch
      | some k =>
        rw [hk] at hmatch
        exact matchedDWA_reaches hm ho hw hr hk hmatch hv ha
    · refine (discard_amend_idle ?_).reaches hl
      exact fun _ => rfl
  · refine (discard_amend_idle ?_).reaches hl
    exact fun _ => rfl

/-! ## Disconnect -/

/-- `j` says of a message what `i` says, up to its error and its cause. -/
structure Input.Same (j i : Input) : Prop where
  message : j.message = i.message
  time : j.time = i.time
  timeout : j.timeout = i.timeout

omit [BasePackage] in
theorem closing_retimed (b : Batch) (s : State) (t d : Int) (hserial : s.serial < b.core.serial)
    (htimers : s.timers = b.core.timers) : ∃ n ts,
    Retimed b ((b.stop .watchdog).arm .closing t d) n ts ∧ s.Closes t d n ts := by
  have hstop : Retimed b (b.stop .watchdog) _ _ := stop_retimed
  have hcore := hstop.core
  have htoken : (Timers.stop b.core.timers .watchdog .watchdog).token = 0 := Timers.stop_token _ _
  have hother : ∀ k, k ≠ .watchdog → Timers.stop b.core.timers .watchdog k = b.core.timers k :=
    fun k hk => Timers.stop_of_ne _ hk
  by_cases hd : d ≤ 0
  · rw [arm_of_nonpos hd]
    refine ⟨_, _, hstop, hserial, fun hs => ?_, htoken, fun h => absurd hd (Int.not_le.2 h),
      .inl (htimers ▸ hother .closing (by decide)), fun k hk _ => htimers ▸ hother k hk⟩
    exact Timers.stop_le (fun k => (htimers ▸ hs k).trans hserial.le) _
  · have harm := arm_retimed (b := b.stop .watchdog) (k := .closing) (t := t) (Int.not_le.1 hd)
    rw [hcore] at harm
    refine ⟨_, _, hstop.trans harm, Nat.lt_succ_of_lt hserial, fun hs => ?_, ?_, fun _ => ?_,
      .inr ?_, fun k hk hk' => ?_⟩
    · exact Timers.update_le (Timers.stop_le (fun k => (htimers ▸ hs k).trans hserial.le) _) _ _
    · rw [Function.update_of_ne (by decide)]
      exact htoken
    · rw [Function.update_self]
      exact ⟨Nat.succ_ne_zero _, rfl⟩
    · rw [Function.update_self]
      exact ⟨Nat.lt_succ_of_lt hserial, Nat.le_refl _⟩
    · rw [Function.update_of_ne hk', htimers]
      exact hother k hk

theorem beginClosing_reaches {l : Bool} (ho : b.core.phase = .opened) (hj : Input.Same j i)
    (hlocal : l = true → i.kind = .disconnect ∧ b.core.disconnectWaiting = false ∧
      j.token = i.token)
    (hpeer : l = false → q = i.message.request ∧ q.isSome = true) :
    Reaches i b q (b.beginClosing j l) := by
  refine ⟨none, false, .single ?_⟩
  unfold beginClosing
  dsimp only
  generalize hb1 : (b.update fun c => { c with
    phase := .closing, ready := false, closeLocal := l, closeRequest := j,
    closeCause := j.cause, serial := b.core.serial + 1, fenceToken := b.core.serial + 1
    disconnectWaiting := if l then true else c.disconnectWaiting
    disconnectToken := if l then j.token else c.disconnectToken }) = b1
  have hd : (if j.timeout ≤ 0 then (b1.stop .watchdog).core.cfg.closingTimeout else j.timeout) =
      if i.timeout ≤ 0 then b.core.cfg.closingTimeout else i.timeout := by
    rw [hj.timeout, (stop_retimed (b := b1)).core, ← hb1]
    rfl
  rw [hd, hj.time]
  obtain ⟨n, ts, htimed, hcloses⟩ := closing_retimed b1 b.core.state i.time
    (if i.timeout ≤ 0 then b.core.cfg.closingTimeout else i.timeout)
    (by rw [← hb1]; exact Nat.lt_succ_self _) (by rw [← hb1]; rfl)
  generalize (b1.stop .watchdog).arm .closing i.time _ = b2 at htimed
  obtain ⟨es, hq, hwork⟩ := htimed.work none false
  rw [emit_work]
  have hw : b2.work none false = { ((b.work q false).set fun s => { s with
      phase := .closing, ready := false, closeLocal := l, closeRequest := i.message,
      serial := n, fence := s.serial + 1, timers := ts
      waiting := if l then true else s.waiting
      disconnectToken := if l then i.token else s.disconnectToken }).emits es with
      permit := none } := by
    have htoken : (if l then j.token else b.core.disconnectToken) =
        if l then i.token else b.core.disconnectToken := by
      cases l with
      | true => rw [(hlocal rfl).2.2]
      | false => rfl
    rw [hwork, ← hb1, ← hj.message]
    simp only [work, Work.set, Work.emits, update, Core.state, htoken]
    rfl
  rw [hw]
  refine .beginClosing ⟨rfl, ?_⟩ ho hcloses (fun h => ⟨(hlocal h).1, (hlocal h).2.1⟩) hpeer hq
    rfl rfl
  show b.core.phase.ended = false
  rw [ho]
  rfl

theorem answerDPR_reaches {first : Bool} (hl : b.core.phase.ended = false) (hg : Grants q p) :
    Reaches i b q (b.answerDPR j p first) := by
  unfold answerDPR
  dsimp only
  split
  · exact fail_reaches hl (by simp)
  rename_i answer hb
  split
  · refine Reaches.unseen (send_reaches ?_ hg (buildDPAResult_answers hb) rfl (by simp) rfl rfl)
      ?_ ?_
    · exact hl
    · rfl
    · rfl
  · exact send_reaches hl hg (buildDPAResult_answers hb) rfl (by simp) rfl rfl

theorem acceptDPR_reaches (ho : b.core.phase = .opened ∨ b.core.phase = .closing)
    (hj : Input.Same j i) (hq : q = i.message.request) (hg : Grants q p) :
    Reaches i b q (b.acceptDPR j p) := by
  unfold acceptDPR
  dsimp only
  generalize hb1 : (if b.core.peerDPR then b
    else (b.update fun c => { c with peerDPR := true, peerCause := j.cause }).emit
      { kind := .peerDisconnectDecision, cause := j.cause }) = b1
  have hl : b.core.phase.ended = false := by rcases ho with ho | ho <;> rw [ho] <;> rfl
  have h1 : Moves i (b.work q false) (b1.work q false) ∧ b1.core.phase = b.core.phase := by
    rw [← hb1]
    split
    · exact ⟨.refl, rfl⟩
    refine ⟨?_, rfl⟩
    rw [emit_work]
    exact .single (.quiet trivial (.inl ⟨rfl, hl⟩))
  have hl1 : b1.core.phase.ended = false := by
    rw [h1.2]
    exact hl
  refine .after h1.1 ?_
  split
  next hp =>
    have ho1 : b1.core.phase = .opened := by
      rcases ho with ho | ho
      · rw [h1.2, ho]
      · exact (hp (by rw [h1.2, ho])).elim
    obtain ⟨m, hc⟩ := b1.validActivity_core
    refine .after (validActivity_moves hl1) (beginClosing_reaches ?_ hj (fun h => by cases h) ?_)
    · rw [hc]
      exact ho1
    intro _
    obtain ⟨h, hh, -⟩ := hg
    exact ⟨hq, by rw [hh]; rfl⟩
  · split
    · exact discard_idle.reaches hl1
    · exact answerDPR_reaches hl1 hg

theorem dpr_reaches (ho : b.core.phase = .opened ∨ b.core.phase = .closing)
    (hj : Input.Same j i) (hq : q = i.message.request) (hg : Grants q p) :
    Reaches i b q (b.dpr j p) := by
  have hl : b.core.phase.ended = false := by rcases ho with ho | ho <;> rw [ho] <;> rfl
  unfold dpr
  split
  · exact discardCause_idle.reaches hl
  split
  · exact discardCause_idle.reaches hl
  · exact Reaches.mark (acceptDPR_reaches ho ⟨hj.message, hj.time, hj.timeout⟩ hq hg)

/-- The DPA arrived: from here on the state remembers it until the connection has ended. -/
theorem completeDPA_moves {result : UInt32} (hl : b.core.phase.ended = false) :
    Moves i { b.work q false with state := { b.core.state with earlyDPA := true } }
      ((b.completeDPA j result).work q true) := by
  unfold completeDPA
  dsimp only
  generalize hb1 : (b.update fun c => { c with earlyDPA := none, disconnectWaiting := false }) = b1
  obtain ⟨hs, es, he, ht⟩ := terminate_spec b1 .closed
  generalize hb2 : b1.terminate .closed = b2 at hs he
  have hnotice : Moves i { b.work q false with state := { b.core.state with earlyDPA := true } }
      ((b2.emit { b2.core.notify { kind := .disconnect, resultCode := result } with
        token := b.core.disconnectToken }).work q true) := by
    rw [emit_work]
    have hw : b2.work q true = { (({ b.work q false with
        state := { b.core.state with earlyDPA := true } } : Work).set fun s =>
        s.ended .closed).emits (es.map Effect.bare) with sealed := true } := by
      simp only [work, Work.set, Work.emits, he, List.map_append, hs]
      rw [← hb1]
      rfl
    rw [hw]
    rw [← hb1] at ht
    exact .single (.disconnected ⟨rfl, hl⟩ rfl ⟨ht.bare.split⟩ ⟨rfl, rfl, rfl, rfl⟩)
  split
  · exact hnotice
  · exact hnotice.trans (report_moves (notify_quiet ⟨by simp, by simp⟩) rfl)

theorem matchedDPA_reaches {k : Control} (hl : b.core.phase.ended = false)
    (hr : b.core.controls .disconnectPeer = some r) (hk : b.core.control? r = some k)
    (hlogical : k.logical = true) : Reaches i b q (b.matchedDPA j p r) := by
  unfold matchedDPA
  split
  · exact discardCause_idle.reaches hl
  rename_i result _
  split
  · refine (discard_amend_idle ?_).reaches hl
    exact fun _ => rfl
  dsimp only
  have hf := settle_freed b r
  obtain ⟨es, hrel, hw⟩ := hf.work q false
  have hl1 : (b.settle r).core.phase.ended = false := by
    rw [hf.phase]
    exact hl
  have hs := hf.state
  generalize b.settle r = b1 at hw hl1 hs
  have h1 : Moves i (b.work q false)
      { b1.work q false with state := { b1.core.state with earlyDPA := true } } := by
    rw [hw, hs]
    exact .single (.dpaSettled ⟨rfl, hl⟩ hr hk hlogical hrel)
  split
  · exact ⟨q, false, h1⟩
  · exact ⟨q, true, h1.trans (completeDPA_moves hl1)⟩

theorem dpa_reaches (hl : b.core.phase.ended = false) : Reaches i b q (b.dpa j p) := by
  unfold dpa
  split
  · exact discard_idle.reaches hl
  rename_i r hr
  split
  next hmatch =>
    cases hk : b.core.control? r with
    | none =>
      rw [hk] at hmatch
      cases hmatch
    | some k =>
      rw [hk] at hmatch
      simp only [matchesControl, Bool.and_eq_true, and_assoc] at hmatch
      exact matchedDPA_reaches hl hr hk hmatch.1
  · split
    · refine (discard_amend_idle ?_).reaches hl
      exact fun _ => rfl
    · exact discard_idle.reaches hl

/-! ## Capabilities exchange -/

theorem rejectCER_reaches {e : ProtocolError} (hl : b.core.phase.ended = false)
    (hg : Grants q p) (hopen : Latchable b.core) : Reaches i b q (b.rejectCER j p e) := by
  unfold rejectCER
  split
  · exact reject_reaches hl hg hopen
  dsimp only
  split
  · exact failedRejection_reaches hl
  next answer hb =>
    exact latch_send_reaches hl hg (buildCEA_answers hb) rfl (by simp) rfl rfl fun _ => hopen

omit [BasePackage] in
theorem stop_core (b : Batch) (k : TimerKind) :
    (b.stop k).core = { b.core with timers := Timers.stop b.core.timers k } :=
  stop_retimed.core

theorem candidate_reaches (hg : Grants q p) (hp : b.core.phase = .preCER)
    (hr : b.core.cfg.role = .responder) (hopen : Latchable b.core) :
    Reaches i b q (b.candidate j p) := by
  have hl : b.core.phase.ended = false := by rw [hp]; rfl
  unfold candidate
  dsimp only
  generalize hb1 : (b.update fun c => { c with passiveResponder := false }) = b1
  have h1 : Moves i (b.work q false) (b1.work q false) := by
    rw [← hb1]
    exact .single (.impassive ⟨rfl, hl⟩)
  have hp1 : b1.core.phase = .preCER := by rw [← hb1]; exact hp
  have hl1 : b1.core.phase.ended = false := by rw [hp1]; rfl
  have hr1 : b1.core.cfg.role = .responder := by rw [← hb1]; exact hr
  have hopen1 : Latchable b1.core := by
    rw [← hb1]
    exact ⟨hopen.latch, hopen.hook, hopen.candidate⟩
  have hpassive : b1.core.passiveResponder = false := by rw [← hb1]; rfl
  refine .after h1 ?_
  split
  · exact rejectCER_reaches hl1 hg hopen1
  rename_i parsed _
  split
  · exact rejectCER_reaches hl1 hg hopen1
  -- Stopping the timer reports before the candidate does, so it comes first.
  generalize hb2 : (b1.update fun c => holdCandidate c p parsed) = b2
  generalize hb3 : (if b2.core.cfg.candidateDeadlineOwnedByPeer then b2.stop .handshake
    else b2) = b3
  have htimed : Retimed b2 b3 b2.core.serial
      (if b2.core.cfg.candidateDeadlineOwnedByPeer then Timers.stop b2.core.timers .handshake
        else b2.core.timers) := by
    rw [← hb3]
    split
    · exact stop_retimed
    · exact Idle.refl.retimed
  obtain ⟨es, hquiet, hw⟩ := htimed.work q false
  obtain ⟨h, rfl, hg⟩ := hg
  refine ⟨none, false, (quiet_moves (w := b1.work (some h) false) ⟨rfl, hl1⟩ es hquiet).trans
    (.single ?_)⟩
  rw [emit_work]
  have hm : Move i ((b1.work (some h) false).emits es) { (((b1.work (some h) false).emits es).set
      fun s => { s with
        serial := s.serial + 1, candidate := s.serial + 1, cer := some p.copy,
        host := parsed.originHost, realm := parsed.originRealm
        timers := if s.policy.peerOwnsDeadline then s.timers.stop .handshake
          else s.timers }).emit
        { kind := .validatedCER, token := b2.core.candidateToken
          snapshot := some b2.core.snapshot, connection := b3.core.cfg.connection } with
        permit := none } :=
    .candidate ⟨rfl, hl1⟩ rfl hp1 hr1 hopen1.candidate hpassive ⟨hopen1.hook, hopen1.latch⟩
      (fun h => hg h) rfl (by rw [← hb2]; rfl)
  convert hm using 1
  have hw' : b3.work none false = { b3.work (some h) false with permit := none } := rfl
  rw [hw', hw, ← hb2]
  rfl

theorem cea_fail_reaches {f : Core → Core} {k : ErrorKind} {code : UInt32}
    (hl : b.core.phase.ended = false) (hf : (f b.core).state = b.core.state)
    (hk : k ≠ .handshakeTimeout) : Reaches i b q ((b.update f).fail j k code) := by
  have hl' : (b.update f).core.phase.ended = false := by
    show (f b.core).state.phase.ended = false
    rw [hf]
    exact hl
  have h : Reaches i (b.update f) q ((b.update f).fail j k code) :=
    fail_reaches hl' fun h => (hk h).elim
  exact h.unseen hf rfl

/-- The phases in which a core waits for its CEA. -/
def AwaitsCEA (c : Core) : Prop :=
  c.phase = .waitCEA ∨ c.phase = .preCER ∧ c.cfg.role = .initiator

omit [BasePackage] in
theorem AwaitsCEA.live (h : AwaitsCEA b.core) : b.core.phase.ended = false := by
  rcases h with h | h
  · rw [h]
    rfl
  · rw [h.1]
    rfl

theorem publish_moves {f : Core → Core} {h m : Bytes} (ha : AwaitsCEA b.core)
    (hs : ∀ ts, (f { b.core with timers := ts }).state = { b.core.state with
      phase := .opened, handshakePending := true, serial := b.core.serial + 1,
      admission := b.core.serial + 1, host := h, realm := m, timers := ts }) :
    Moves i (b.work q false)
      ((((b.stop .handshake).stop .retry).update f).publish.work q false) := by
  have hstop : Retimed b (b.stop .handshake) _ _ := stop_retimed
  have htimed := hstop.trans (stop_retimed (k := .retry))
  rw [hstop.core] at htimed
  generalize (b.stop .handshake).stop .retry = b1 at htimed
  obtain ⟨es, hquiet, hw⟩ := htimed.work q false
  refine (quiet_moves (w := b.work q false) ⟨rfl, ha.live⟩ es hquiet).trans (.single ?_)
  unfold publish
  rw [emit_work]
  have hw' : (b1.update f).work q false = ((b.work q false).emits es).set fun s => { s with
      phase := .opened, handshakePending := true, serial := s.serial + 1,
      admission := s.serial + 1, host := h, realm := m
      timers := (s.timers.stop .handshake).stop .retry } := by
    have heff : b1.effects.map Effect.bare = ((b.work q false).emits es).effects :=
      congrArg Work.effects hw
    refine work_eq (b := b1.update f) ?_ heff q false
    show (f b1.core).state = _
    rw [htimed.core, hs]
    rfl
  rw [hw']
  exact .admitted ⟨rfl, ha.live⟩ ha rfl

theorem handshakeReady_moves (ho : b.core.phase = .opened) :
    Moves i (b.work q false) (b.handshakeReady.work q false) := by
  unfold handshakeReady
  rw [emit_work]
  exact .single (.handshakeReady ⟨rfl, by show b.core.phase.ended = false; rw [ho]; rfl⟩ ho rfl)

section

variable (ha : AwaitsCEA b.core) (hr : b.core.controls .capabilitiesExchange = some r)
include ha hr

theorem settleCER_moves : Moves i (b.work q false) ((b.settle r).work q false) := by
  obtain ⟨es, hrel, hw⟩ := (settle_freed b r).work q false
  rw [hw]
  exact .single (.settleCER ⟨rfl, ha.live⟩ ha hr hrel)

theorem acceptCEA_reaches {parsed : CEA} : Reaches i b q (b.acceptCEA p r parsed) := by
  unfold acceptCEA
  have h1 : Moves i (b.work q false) ((b.consumed p).work q false) := consumed_idle.moves ha.live q
  have ha1 : AwaitsCEA (b.consumed p).core := ha
  have hr1 : (b.consumed p).core.controls .capabilitiesExchange = some r := hr
  generalize b.consumed p = b1 at h1 ha1 hr1
  have h2 := settleCER_moves (i := i) (q := q) ha1 hr1
  have ha2 : AwaitsCEA (b1.settle r).core := by
    obtain ⟨hp, cs, hc⟩ := (settle_freed b1 r).core
    rw [hc]
    exact ha1
  generalize b1.settle r = b2 at h2 ha2
  dsimp only
  refine ⟨q, false, (h1.trans h2).trans ?_⟩
  refine Moves.trans (publish_moves (h := parsed.originHost) (m := parsed.originRealm) ha2 ?_)
    (handshakeReady_moves ?_)
  · exact fun _ => rfl
  · rfl

theorem matchedCEA_reaches : Reaches i b q (b.matchedCEA j p r) := by
  unfold matchedCEA
  split
  · refine cea_fail_reaches ha.live rfl ?_
    split
    · simp
    unfold answerErrorKind
    repeat' split
    all_goals simp
  · dsimp only
    split
    · exact cea_fail_reaches ha.live rfl (by simp)
    rename_i herr
    split
    · exact cea_fail_reaches (f := fun c => { c with handshake := ⟨_, _⟩ }) ha.live rfl (by simp)
    refine Reaches.unseen (acceptCEA_reaches ?_ ?_) ?_ ?_
    · exact ha
    · exact hr
    · rfl
    · rfl

end

theorem cea_reaches (ha : AwaitsCEA b.core) : Reaches i b q (b.cea j p) := by
  unfold cea
  dsimp only
  split
  · split
    · exact fail_reaches ha.live (by simp)
    · refine (discard_amend_idle ?_).reaches ha.live
      exact fun _ => rfl
  · split
    · exact cea_fail_reaches ha.live rfl (by simp)
    next r hr => exact matchedCEA_reaches ha hr
    · exact .refl

end Batch

end Diameter.Protocol
