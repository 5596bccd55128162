import Diameter.Protocol.RefineExchanges

/-!
# Protocol.RefineReceive

The moves of `receive`: which handler a message reaches in which phase, and with what right to an
answer (`Receiving`).
-/

namespace Diameter.Protocol

open Lib BasePackage

variable [BasePackage] {i j : Input} {b b' : Batch} {q : Option Header} {p : Packet}

namespace Batch

/-! ## Receiving -/

/-- The phases in which a message that is not held reaches its handler: the peer is admitted; or
the connection is closing and the message may pass; or the core expects a CER and this is one. -/
inductive Stage (i : Input) (p : Packet) (c : Core) : Prop where
  | opened : c.phase = .opened → c.ready = true → Stage i p c
  | closing : c.phase = .closing → Core.closingAllowed i = true → Stage i p c
  | preCER : c.phase = .preCER → c.cfg.role = .responder →
      p.header.commandCode = BaseCommand.capabilitiesExchange.code →
      p.header.isRequest = true → Stage i p c

/-- The message `p` of the input `i` is being received by `c`, with the right to answer it. -/
structure Receiving (i : Input) (p : Packet) (c : Core) (q : Option Header) : Prop where
  kind : i.kind = .receive
  message : i.message = .packet p
  permit : q = i.message.request
  stage : Stage i p c
  last : Latchable c

namespace Receiving

variable {c : Core}

section

omit [BasePackage]

theorem request (h : Receiving i p c q) (hr : p.header.isRequest = true) : q = some p.header := by
  rw [h.permit, h.message]
  exact if_pos hr

theorem grants (h : Receiving i p c q) (hr : p.header.isRequest = true) : Grants q p :=
  .self (h.request hr)

theorem live (h : Receiving i p c q) : c.phase.ended = false := by
  cases h.stage with
  | opened ho _ => rw [ho]; rfl
  | closing ho _ => rw [ho]; rfl
  | preCER ho _ _ _ => rw [ho]; rfl

theorem congr {c' : Core} (h : Receiving i p c q) (hp : c'.phase = c.phase)
    (hr : c'.ready = c.ready) (hcfg : c'.cfg = c.cfg) (ht : c'.terminal = c.terminal)
    (hh : c'.hookToken = c.hookToken) (hc : c'.candidateToken = c.candidateToken) :
    Receiving i p c' q := by
  refine ⟨h.kind, h.message, h.permit, ?_,
    ht.trans h.last.latch, hh.trans h.last.hook, hc.trans h.last.candidate⟩
  cases h.stage with
  | opened ho ha => exact .opened (hp.trans ho) (hr.trans ha)
  | closing ho ha => exact .closing (hp.trans ho) ha
  | preCER ho h1 h2 h3 => exact .preCER (hp.trans ho) (by rw [hcfg, h1]) h2 h3

theorem retimed {n : Nat} {ts : Timers} (h : Receiving i p b.core q) (ht : Retimed b b' n ts) :
    Receiving i p b'.core q := by
  rw [ht.core]
  exact h.congr rfl rfl rfl rfl rfl rfl

theorem validActivity (h : Receiving i p b.core q) : Receiving i p b.validActivity.core q := by
  obtain ⟨m, hc⟩ := b.validActivity_core
  rw [hc]
  exact h.congr rfl rfl rfl rfl rfl rfl

end

end Receiving

omit [BasePackage] in
theorem closingAllowed_spec (hm : i.message = .packet p) (h : Core.closingAllowed i = true)
    (hd : p.header.isBase .disconnectPeer = false) :
    p.header.isRequest = false ∧ i.ownership ≠ 0 ∧
      p.header.isBase .capabilitiesExchange = false ∧
      p.header.isBase .deviceWatchdog = false := by
  unfold Core.closingAllowed at h
  rw [hm] at h
  simp only [hd, Bool.false_eq_true, if_false] at h
  split at h
  · cases h
  rename_i hn
  rw [Bool.or_eq_true, not_or, Bool.not_eq_true, Bool.not_eq_true] at hn
  rw [Bool.and_eq_true] at h
  exact ⟨by simpa using h.1, by simpa using h.2, hn.1, hn.2⟩

omit [BasePackage] in
theorem isBase_disjoint {h : Header} {cmd cmd' : BaseCommand} (hb : h.isBase cmd = true)
    (hne : cmd ≠ cmd') : h.isBase cmd' = false := by
  simp only [Header.isBase, Bool.and_eq_true, beq_iff_eq] at hb
  rw [Header.isBase, hb.1, hb.2]
  revert hne
  cases cmd <;> cases cmd' <;> decide

theorem admit_reaches {n : Nat} (hr : Receiving i p b.core q)
    (hd : p.header.isBase .disconnectPeer = false)
    (hp : b.core.phase ≠ .preCER)
    (hw : p.header.isBase .capabilitiesExchange = true ∨ p.header.isBase .deviceWatchdog = true ∨
      ¬ (b.core.cfg.watchdog = true ∧ b.core.wd.state = .reopen)) :
    Reaches i b q (b.admitMessage p n) := by
  refine ⟨none, false, .single ?_⟩
  unfold admitMessage
  rw [emit_work]
  refine .admitMessage ⟨rfl, hr.live⟩ hr.kind hr.message rfl rfl ?_ hw hr.permit
  cases hr.stage with
  | opened ho ha => exact .inl ⟨ho, ha⟩
  | closing ho ha => exact .inr ⟨ho, closingAllowed_spec hr.message ha hd⟩
  | preCER ho _ _ _ => exact (hp ho).elim

theorem admitHandled_reaches {cmd : BaseCommand} (hr : Receiving i p b.core q)
    (hb : p.header.isBase cmd = true)
    (hcmd : cmd = .capabilitiesExchange ∨ cmd = .deviceWatchdog) (hp : b.core.phase ≠ .preCER) :
    Reaches i b q (b.admitHandled j p) := by
  unfold admitHandled
  split
  · exact discard_idle.reaches hr.live
  rcases hcmd with rfl | rfl
  · exact admit_reaches hr (isBase_disjoint hb (by decide)) hp (.inl hb)
  · exact admit_reaches hr (isBase_disjoint hb (by decide)) hp (.inr (.inl hb))

theorem dispatchApplication_reaches (hr : Receiving i p b.core q)
    (hd : p.header.isBase .disconnectPeer = false) (hp : b.core.phase ≠ .preCER) :
    Reaches i b q (b.dispatchApplication j p) := by
  have hactive := validActivity_moves (i := i) (q := q) hr.live
  unfold dispatchApplication
  split
  · exact discard_idle.reaches hr.live
  split
  · split
    · exact .after hactive (unhandledPacket_reaches (validActivity_live hr.live) hr.grants)
    · exact unhandledPacket_reaches hr.live hr.grants
  · dsimp only
    refine .after hactive ?_
    have hr' := hr.validActivity
    have hp' : b.validActivity.core.phase ≠ .preCER := by
      obtain ⟨m, hc⟩ := b.validActivity_core
      rw [hc]
      exact hp
    split
    · exact discard_idle.reaches hr'.live
    next hw => exact admit_reaches hr' hd hp' (.inr (.inr (by simpa using hw)))

omit [BasePackage] in
theorem isBase_code {h : Header} {cmd : BaseCommand} (hb : h.isBase cmd = true) :
    h.commandCode = cmd.code := by
  simp only [Header.isBase, Bool.and_eq_true, beq_iff_eq] at hb
  exact hb.2

theorem dispatch_reaches (hr : Receiving i p b.core q) (hj : Input.Same j i)
    (hp : b.core.phase ≠ .preCER) : Reaches i b q (b.dispatch j p) := by
  unfold dispatch
  split
  next hw =>
    split
    next hreq =>
      split
      · have hcode := isBase_code hw
        refine pauseHook_reaches hr.live (hr.request hreq) (.inr hcode) (fun h => (hp h).elim) ?_
        intro hce
        rw [hcode] at hce
        exact absurd hce (by decide)
      · exact dwr_reaches hr.live (hr.grants hreq)
    · exact admitHandled_reaches hr hw (.inr rfl) hp
  · split
    · split
      next hreq =>
        refine dpr_reaches ?_ hj hr.permit (hr.grants hreq)
        cases hr.stage with
        | opened ho _ => exact .inl ho
        | closing ho _ => exact .inr ho
        | preCER ho _ _ _ => exact (hp ho).elim
      · exact dpa_reaches hr.live
    next hd =>
      split
      next hce => exact admitHandled_reaches hr hce (.inl rfl) hp
      · exact dispatchApplication_reaches hr (by simpa using hd) hp

theorem receiveValid_reaches {n : Nat} (hr : Receiving i p b.core q) (hj : Input.Same j i)
    (ha : Armed b.core) : Reaches i b q (b.receiveValid j p n) := by
  unfold receiveValid
  split
  next h =>
    simp only [Bool.and_eq_true, decide_eq_true_eq, and_assoc] at h
    exact (dwa_reaches hr.message h.1 h.2.1 ha).mark
  · split
    · split
      · dsimp only
        split
        · refine (discard_amend_idle ?_).reaches hr.live
          exact fun _ => rfl
        · exact discard_idle.reaches hr.live
      next hreq => exact reject_reaches hr.live (hr.grants (by simpa using hreq)) hr.last
    · split
      next rejection hrej =>
        refine requestError_reaches hr.live (hr.grants ?_) fun _ => hr.last
        cases hreq : p.header.isRequest with
        | true => rfl
        | false =>
          rw [Core.validateRequest, validateRequest_answer hreq] at hrej
          cases hrej
      · split
        next hp =>
          cases hr.stage with
          | opened ho _ => rw [ho] at hp; cases hp
          | closing ho _ => rw [ho] at hp; cases hp
          | preCER _ hrole hcode hreq =>
            split
            · exact pauseHook_reaches hr.live (hr.request hreq) (.inl hcode)
                (fun _ => ⟨hcode, hrole, hr.last.candidate, hr.last.hook, hr.last.latch⟩)
                (fun _ => .inl hp)
            · exact candidate_reaches (hr.grants hreq) hp hrole hr.last
        next hp =>
          split
          · exact (dispatch_reaches hr hj hp).mark
          · exact dispatch_reaches hr hj hp

theorem repeatedCER_reaches (hr : Receiving i p b.core q) (ho : b.core.phase = .opened)
    (hb : p.header.isBase .capabilitiesExchange = true) (hreq : p.header.isRequest = true) :
    Reaches i b q (b.repeatedCER j p) := by
  unfold repeatedCER
  dsimp only
  split
  · exact discard_idle.reaches hr.live
  generalize hb1 : (if (j.error.isNone && (validateMessage p).isNone &&
    (b.core.validateRequest p none).isNone && b.core.bound p true) = true
    then b.validActivity else b) = b1
  have h1 : Moves i (b.work q false) (b1.work q false) ∧ b1.core.phase = .opened := by
    rw [← hb1]
    split
    · refine ⟨validActivity_moves hr.live, ?_⟩
      obtain ⟨m, hc⟩ := b.validActivity_core
      rw [hc]
      exact ho
    · exact ⟨.refl, ho⟩
  have hl1 : b1.core.phase.ended = false := by rw [h1.2]; rfl
  refine .after h1.1 ?_
  split
  · refine pauseHook_reaches hl1 (hr.request hreq) (.inl (isBase_code hb)) ?_ (fun _ => .inr h1.2)
    intro hp
    rw [h1.2] at hp
    cases hp
  · exact discard_idle.reaches hl1

omit [BasePackage] in
theorem headerPrecedence_same (j : Input) (h : Header) :
    Input.Same (headerPrecedence j h) j ∧
      ((headerPrecedence j h).error = none → j.error = none) := by
  unfold headerPrecedence
  split
  · split
    · exact ⟨⟨rfl, rfl, rfl⟩, id⟩
    · exact ⟨⟨rfl, rfl, rfl⟩, fun h => by cases h⟩
  · exact ⟨⟨rfl, rfl, rfl⟩, id⟩

theorem activity_moves :
    Moves i (b.work q false) ((b.activity j).work q false) ∧
      (∃ n ts, Retimed b (b.activity j) n ts) ∧ (j.error = none → Armed (b.activity j).core) := by
  unfold activity
  split
  next h =>
    refine ⟨.refl, ⟨_, _, Idle.refl.retimed⟩, fun he hw => ?_⟩
    have ho : b.core.phase = .opened := hw.1
    have hs : b.core.cfg.watchdog = true := hw.2
    simp [ho, hs, he, fatalHeaderError] at h
  next h =>
    simp only [Bool.or_eq_true, not_or, decide_eq_true_eq, not_not, Bool.not_eq_true',
      Bool.not_eq_false, and_assoc] at h
    obtain ⟨n, ts, ht, hr⟩ := watchdogArm_retimed (b := b) (t := j.time) (d := j.interval)
    refine ⟨rearm_moves ⟨h.1, h.2.1⟩ ht hr, ⟨n, ts, ht⟩, fun _ _ hpos => ?_⟩
    rw [ht.core] at hpos ⊢
    rcases hr with ⟨-, d, rfl⟩ | ⟨hd, -, -⟩
    · show (Function.update b.core.timers .watchdog _ .watchdog).token ≠ 0
      rw [Function.update_self]
      exact Nat.succ_ne_zero _
    · exact absurd hpos (Int.not_lt.2 hd)

theorem receiveAdmitted_reaches (hr : Receiving i p b.core q) :
    Reaches i b q (b.receiveAdmitted i p) := by
  unfold receiveAdmitted
  dsimp only
  obtain ⟨hm, ⟨n, ts, ht⟩, harmed⟩ := activity_moves (i := i) (j := i) (q := q) (b := b)
  refine .after hm ?_
  replace hr := hr.retimed ht
  have hl := hr.live
  generalize b.activity i = b1 at hl hr harmed
  split
  · unfold surplusCEA
    refine (discard_amend_idle ?_).reaches hl
    exact fun _ => rfl
  · split
    next h =>
      simp only [Bool.and_eq_true, decide_eq_true_eq, and_assoc] at h
      exact repeatedCER_reaches hr h.1 h.2.1 h.2.2.1
    · split
      · exact messageError_reaches hl hr.grants hr.last
      · split
        · exact discard_idle.reaches hl
        · have hs := headerPrecedence_same i p.header
          exact receiveValid_reaches hr hs.1 (harmed (hs.2 ‹_›))

theorem receivePacket_reaches (hl : b.core.phase.ended = false) (hk : i.kind = .receive)
    (hm : i.message = .packet p) (hq : q = i.message.request)
    (hopen : b.core.phase = .opened → b.core.ready = true)
    (hlatch : b.core.terminal = false) (hhook : b.core.hookToken = 0)
    (hcand : b.core.phase ≠ .preCER → b.core.candidateToken = 0)
    (hclosing : b.core.phase = .closing → Core.closingAllowed i = true) :
    Reaches i b q (b.receivePacket i p) := by
  unfold receivePacket
  dsimp only
  split
  next ha =>
    simp only [Bool.or_eq_true, Bool.and_eq_true, decide_eq_true_eq] at ha
    split
    · exact cea_reaches ha
    · exact fail_reaches hl (by simp)
  next ha =>
    simp only [Bool.or_eq_true, Bool.and_eq_true, decide_eq_true_eq, not_or, not_and] at ha
    split
    · exact fail_reaches hl (by simp)
    rename_i hc
    have hgo : Stage i p b.core → b.core.candidateToken = 0 →
        Reaches i b q (b.receiveAdmitted i p) :=
      fun hs h => receiveAdmitted_reaches ⟨hk, hm, hq, hs, hlatch, hhook, h⟩
    cases hp : b.core.phase with
    | preCER =>
      have hrole : b.core.cfg.role = .responder := by
        have h := ha.2 hp
        revert h
        cases b.core.cfg.role <;> simp
      simp only [hp, decide_true, Bool.true_or, Bool.true_and, Bool.or_eq_true, not_or,
        Bool.not_eq_true', Bool.not_eq_false, Bool.and_eq_true, beq_iff_eq, decide_eq_true_eq,
        not_not] at hc
      exact hgo (.preCER hp hrole hc.1.1 hc.1.2) hc.2
    | waitCEA => exact (ha.1 hp).elim
    | opened => exact hgo (.opened hp (hopen hp)) (hcand (by simp [hp]))
    | closing => exact hgo (.closing hp (hclosing hp)) (hcand (by simp [hp]))
    | closed => rw [hp] at hl; cases hl
    | retired => rw [hp] at hl; cases hl

theorem receiveHeaderless_reaches (hl : b.core.phase.ended = false) :
    Reaches i b q (b.receiveHeaderless j) := by
  unfold receiveHeaderless
  dsimp only
  split
  · split
    · exact .refl
    · exact fail_reaches hl (by simp)
  · split
    · have h1 : Idle b (b.emit { kind := .discard }) := .emit trivial
      exact (h1.trans (notify_idle
        ⟨by simp [externalNotice], by simp [externalNotice]⟩)).reaches hl
    · exact fail_reaches hl (by simp)

theorem receive_reaches (hl : b.core.phase.ended = false) (hk : i.kind = .receive)
    (hcand : b.core.phase ≠ .preCER → b.core.candidateToken = 0) :
    Reaches i b i.message.request (b.receive i) := by
  unfold receive
  dsimp only
  split
  · exact discard_idle.reaches hl
  split
  · exact fail_reaches hl (by simp)
  split
  · exact discard_idle.reaches hl
  rename_i hlatch
  rw [Bool.or_eq_true, not_or, Bool.not_eq_true] at hlatch
  split
  next hgate =>
    refine ⟨none, false, .single ?_⟩
    unfold hold
    rw [emit_work]
    refine .hold ⟨rfl, hl⟩ hlatch.1 ?_ hk rfl rfl rfl
    show b.core.hookToken ≠ 0 ∨ b.core.phase = .opened ∧ b.core.ready = false
    simpa using hgate
  next hgate =>
    simp only [Bool.or_eq_true, decide_eq_true_eq, Bool.and_eq_true, Bool.not_eq_true',
      not_or, not_not, not_and, Bool.not_eq_false] at hgate
    split
    next p hm =>
      refine receivePacket_reaches hl hk hm rfl hgate.2 hlatch.1 hgate.1 hcand ?_
      intro hp
      simpa [hp] using hlatch.2
    · exact receiveHeaderless_reaches hl

end Batch

end Diameter.Protocol
