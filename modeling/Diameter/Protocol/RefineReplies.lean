import Diameter.Protocol.Refine

/-!
# Protocol.RefineReplies

The moves that end a connection with a report, and those of the answers to requests. `Grants` says
that the request at hand may still be answered.
-/

namespace Diameter.Protocol

open Lib BasePackage

variable {k : ErrorKind} {code : UInt32}

variable [BasePackage] {i j : Input} {b b' : Batch} {q : Option Header} {p : Packet}
variable {o : SendOptions} {me : MessageError}

/-- An answer to `p` is one to the request of the permit `q`. -/
def Grants (q : Option Header) (p : Packet) : Prop :=
  ∃ h, q = some h ∧ ∀ {a : Header}, Answers a p.header → Answers a h

omit [BasePackage] in
theorem Grants.self (hp : q = some p.header) : Grants q p := ⟨_, hp, id⟩

namespace Batch

/-! ## Endings -/

omit [BasePackage] in
theorem failing_eq (c : Core) (k : ErrorKind) : ∃ t j o,
    failing c k = { c with lateCERToken := t, lateCER := j, closeOutcome := o } ∧
    (k = .handshakeTimeout ∧ t = c.hookToken ∨ t = c.lateCERToken) ∧ (o = .timedOut ∨ o = c.closeOutcome) := by
  have hkeep : ∃ t j, keepLateCER c k = { c with lateCERToken := t, lateCER := j } ∧
      (k = .handshakeTimeout ∧ t = c.hookToken ∨ t = c.lateCERToken) := by
    unfold keepLateCER
    split
    next h =>
      simp only [Bool.and_eq_true, decide_eq_true_eq] at h
      split
      · split
        · exact ⟨_, _, rfl, .inl ⟨h.1, rfl⟩⟩
        · exact ⟨_, _, rfl, .inr rfl⟩
      · exact ⟨_, _, rfl, .inr rfl⟩
    · exact ⟨_, _, rfl, .inr rfl⟩
  obtain ⟨t, j, hk, ht⟩ := hkeep
  refine ⟨t, j, _, by rw [failing, hk], ht, ?_⟩
  split
  · exact .inl rfl
  · exact .inr rfl

section

variable {f : Phase} {err : ProtocolError} (hl : b.core.phase.ended = false)
include hl

theorem failing_moves (hk : k = .handshakeTimeout → i.HandshakeExpired) :
    Moves i (b.work q false) ((b.update fun c => failing c k).work q false) := by
  obtain ⟨t, j, o, hf, ht, ho⟩ := failing_eq b.core k
  have h1 : Moves i (b.work q false) ((b.update fun c => { c with
      lateCERToken := t, lateCER := j }).work q false) := by
    rcases ht with ⟨htimeout, rfl⟩ | rfl
    · exact .single (.keepCER ⟨rfl, hl⟩ (hk htimeout))
    · exact .refl
  refine h1.trans ?_
  simp only [update, hf]
  rcases ho with rfl | rfl
  · exact .single (.outcome (o := .timedOut) ⟨rfl, hl⟩ rfl)
  · exact .refl

theorem fail_reaches
    (hk : k = .handshakeTimeout → i.HandshakeExpired) : Reaches i b q (b.fail j k code) := by
  have h1 := failing_moves (i := i) (q := q) (k := k) hl hk
  have hl1 : (b.update fun c => failing c k).core.phase.ended = false := by
    obtain ⟨t, j, o, hf, -, -⟩ := failing_eq b.core k
    simp only [update, hf]
    exact hl
  have h2 := terminate_moves (i := i) (p := q) (f := .closed) hl1 rfl
  exact ⟨q, true, (h1.trans h2).trans
    (report_moves (notify_quiet ⟨by simp [failureNotice], by simp [failureNotice]⟩) rfl)⟩

theorem terminate_reaches (hp : f.ended = true) : Reaches i b q (b.terminate f) :=
  ⟨q, true, terminate_moves hl hp⟩

theorem terminate_notify_reaches {n : Notification}
    (hn : Plain n) : Reaches i b q ((b.terminate .closed).notify n) :=
  ⟨q, true, (terminate_moves hl rfl).trans (report_moves (notify_quiet hn) (by
    unfold Core.notify
    rfl))⟩

theorem failedRejection_amend_reaches {f : Notification → Notification}
    (hf : ∀ n, (f n).kind = n.kind) : Reaches i b q ((b.failedRejection p k code err).amend f) := by
  unfold failedRejection notify
  rw [amend_emit]
  refine ⟨q, true, (terminate_moves hl rfl).trans (report_moves ?_ rfl)⟩
  simp [Effect.Quiet, Core.notify, hf]

theorem failedRejection_reaches : Reaches i b q (b.failedRejection p k code err) :=
  terminate_notify_reaches hl ⟨by simp, by simp⟩

end

/-! ## Replies -/

/-- The latch of the last answer is open, and no CER is left undecided. -/
structure Latchable (c : Core) : Prop where
  latch : c.terminal = false
  hook : c.hookToken = 0
  candidate : c.candidateToken = 0

/-- The operation a write is entered as. -/
def SendOptions.operation (o : SendOptions) (m : Packet) : Operation :=
  { control := o.control, message := o.metadata, length := m.message.len, required := o.required,
    closeAfter := o.closeAfter, handshake := o.handshake, notice := o.notice }

/-- The effect that asks for it. -/
def SendOptions.effect (o : SendOptions) (c : Core) (m : Packet) : Effect :=
  { kind := .send, connection := c.cfg.connection, token := c.serial + 1, message := some m,
    notification := o.notice.getD {}, required := o.required, closeAfter := o.closeAfter,
    answerHook := o.answerHook, stage := if c.cfg.queueWrites then .queue else .written }

omit [BasePackage] in
theorem send_work (b : Batch) (m : Packet) (ho : o.control = none)
    (q : Option Header) (σ : Bool) :
    (b.send m o).work q σ = ((b.work q σ).set fun s => { s with
      serial := s.serial + 1
      leases := { s.leases with
        operations := s.leases.operations.insert (s.serial + 1) (o.operation m) } }).emit
      (o.effect b.core m) := by
  unfold send
  rw [emit_work]
  simp only [ho]
  rw [SendOptions.operation, ho]
  rfl

omit [BasePackage] in
theorem latch_eq (b : Batch) (t : Bool) :
    b.latch t = b.update fun c => { c with terminal := c.terminal || t } := by
  cases t <;> simp [latch, update]

section

variable (hl : b.core.phase.ended = false)
include hl

theorem latch_send_reaches {a : Packet} {t : Bool}
    (hg : Grants q p) (ha : Answers a.header p.header)
    (hc : o.control = none) (hn : ∀ n ∈ o.notice, n.kind ≠ .handshake ∧ n.kind ≠ .disconnect)
    (hr : o.required = true) (ht : o.closeAfter = t) (hopen : t = true → Latchable b.core) :
    Reaches i b q ((b.latch t).send a o) := by
  obtain ⟨h, rfl, hg⟩ := hg
  refine ⟨none, false, .single ?_⟩
  subst ht
  rw [latch_eq, send_work _ _ hc]
  have hlast : o.closeAfter = true →
      b.core.terminal = false ∧ b.core.hookToken = 0 ∧ b.core.candidateToken = 0 :=
    fun h => ⟨(hopen h).latch, (hopen h).hook, (hopen h).candidate⟩
  exact .answer (w := b.work (some h) false) (e := o.effect b.core a) ⟨rfl, hl⟩ rfl (hg ha) hc rfl
    hn hlast rfl rfl hr rfl rfl

theorem send_reaches {a : Packet}
    (hg : Grants q p) (ha : Answers a.header p.header) (hc : o.control = none)
    (hn : ∀ n ∈ o.notice, n.kind ≠ .handshake ∧ n.kind ≠ .disconnect)
    (hr : o.required = true) (ht : o.closeAfter = false) : Reaches i b q (b.send a o) :=
  latch_send_reaches hl hg ha hc hn hr ht (by simp)

theorem reject_reaches (hg : Grants q p)
    (hopen : Latchable b.core) : Reaches i b q (b.reject j p k me) := by
  unfold reject
  split
  · refine (discard_amend_idle ?_).reaches hl
    exact fun _ => rfl
  split
  · exact failedRejection_amend_reaches hl fun _ => rfl
  rename_i answer hb
  exact latch_send_reaches hl hg (buildErrorAnswer_answers hb) rfl (by simp) rfl rfl
    fun _ => hopen

theorem requestError_reaches {r : RequestError} {d : String}
    (hg : Grants q p) (hopen : b.core.phase = .preCER → Latchable b.core) :
    Reaches i b q (b.requestError j p r d) := by
  unfold requestError
  split
  · exact discard_idle.reaches hl
  split
  · dsimp only
    split
    · exact failedRejection_reaches hl
    · exact failedRejection_amend_reaches hl fun _ => rfl
  next answer hb =>
    exact latch_send_reaches hl hg (buildErrorAnswer_answers hb) rfl (by simp) rfl rfl
      fun h => hopen (by simpa using h)

theorem unhandledPacket_reaches (hg : p.header.isRequest = true → Grants q p) :
    Reaches i b q (b.unhandledPacket j p) := by
  unfold unhandledPacket
  split
  · exact discard_idle.reaches hl
  rename_i ho
  have hpre : b.core.phase = .preCER → Latchable b.core := fun h => absurd ho (by simp [h])
  split
  · exact discard_idle.reaches hl
  rename_i hr
  have hg := hg (by simpa using hr)
  split
  · exact requestError_reaches hl hg hpre
  · exact requestError_reaches hl hg hpre

theorem externalAnswer_reaches {n : Notification} {failed : List AVP}
    (hg : Grants q p) (hn : n.kind = .protocol)
    (hopen : Latchable b.core) : Reaches i b q (b.externalAnswer p n code failed) := by
  unfold externalAnswer
  split
  · exact failedRejection_amend_reaches hl fun _ => rfl
  rename_i answer hb
  refine latch_send_reaches hl hg (buildErrorAnswer_answers hb) rfl ?_ rfl rfl fun _ => hopen
  have hkind : ∀ t : Bool, (if t = true then
      { n with closing := true, diagnostic := "external-reject-cer" } else n).kind = .protocol := by
    intro t
    cases t <;> exact hn
  intro n' hn'
  rw [Option.mem_some] at hn'
  rw [← hn', hkind]
  simp

theorem externalMessageError_reaches {fatal : Bool}
    (hg : p.header.isRequest = true → Grants q p)
    (hopen : Latchable b.core) : Reaches i b q (b.externalMessageError j p me k fatal) := by
  unfold externalMessageError
  dsimp only
  split
  · have h1 : Idle b (b.emit { kind := .discard }) := .emit trivial
    exact (h1.trans (notify_idle
      ⟨by simp [externalNotice], by simp [externalNotice]⟩)).reaches hl
  next hr =>
    have hg := hg (by
      rw [Bool.or_eq_true, not_or] at hr
      simpa using hr.2)
    split
    · split
      · exact externalAnswer_reaches hl hg rfl hopen
      · exact externalAnswer_reaches hl hg rfl hopen
    · exact externalAnswer_reaches hl hg rfl hopen

theorem messageError_reaches {fatal : Bool}
    (hg : p.header.isRequest = true → Grants q p) (hopen : Latchable b.core) :
    Reaches i b q (b.messageError j p me fatal) := by
  unfold messageError
  dsimp only
  split
  · exact externalMessageError_reaches hl hg hopen
  split
  · refine (discard_amend_idle ?_).reaches hl
    exact fun _ => rfl
  split
  · split
    · refine fail_reaches hl ?_
      split <;> simp
    · exact discard_idle.reaches hl
  next hr =>
    have hg := hg (by simpa using hr)
    split
    · split
      · exact requestError_reaches hl hg fun _ => hopen
      · exact reject_reaches hl hg hopen
    · exact reject_reaches hl hg hopen

end

end Batch

end Diameter.Protocol
