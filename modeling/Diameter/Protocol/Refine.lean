import Diameter.Lib.Slots
import Diameter.Protocol.Moves

/-!
# Protocol.Refine

The handlers of a connection core make only the moves of `Protocol.Moves`.

`Batch.work` is the abstraction: it forgets what `State` leaves out of a core, and which effect
carries the release of the dispatcher. Every function of the model has one lemma here. `Idle` is
for those that only report, `Retimed` for those that change timers, and `Reaches` for those that
end the handling of an input.
-/

namespace Diameter.Protocol

open Lib BasePackage

variable {l : Leases × List Reservation} {k : TimerKind}
variable {es : List Effect} {n : Nat} {ts : Timers} {t d : Int} {j : Input}

/-- An effect without the dispatcher's mark, which is set after the fact. -/
def Effect.bare (e : Effect) : Effect := { e with releaseDispatch := false }

def Batch.work (b : Batch) (permit : Option Header) (sealed : Bool) : Work :=
  ⟨b.core.state, b.effects.map Effect.bare, permit, sealed⟩

theorem Releases.bare {leases : List Reservation} (h : Releases leases es) :
    Releases leases (es.map Effect.bare) := by
  obtain ⟨hk, rfl⟩ := h
  refine ⟨?_, ?_⟩
  · intro e he
    obtain ⟨e', he', rfl⟩ := List.mem_map.1 he
    exact hk e' he'
  · rw [List.map_map]
    rfl

theorem Releases.nil : Releases [] [] := ⟨List.forall_mem_nil _, rfl⟩

theorem Releases.append {l1 l2 : List Reservation} {es1 es2 : List Effect} (h1 : Releases l1 es1)
    (h2 : Releases l2 es2) : Releases (l1 ++ l2) (es1 ++ es2) := by
  refine ⟨?_, ?_⟩
  · intro e he
    rcases List.mem_append.1 he with he | he
    · exact h1.1 e he
    · exact h2.1 e he
  · rw [List.map_append, h1.2, h2.2]

namespace Batch

theorem work_eq {b : Batch} {s : State} (hs : b.core.state = s)
    (he : b.effects.map Effect.bare = es) (p : Option Header) (σ : Bool) :
    b.work p σ = ⟨s, es, p, σ⟩ := by
  rw [work, hs, he]

theorem emit_work (b : Batch) (e : Effect) (p : Option Header) (σ : Bool) :
    (b.emit e).work p σ =
      (b.work p σ).emit { e with connection := b.core.cfg.connection, releaseDispatch := false } := by
  simp [work, emit, Work.emit, Effect.bare]

theorem reserve_work (b : Batch) (cmd : BaseCommand) (p : Option Header) (σ : Bool) :
    (b.reserve cmd).work p σ = ((b.work p σ).set fun s => s.reserve cmd).emit
      { kind := .reserveIDs, command := some cmd, token := b.core.serial + 1
        connection := b.core.cfg.connection } := by
  unfold reserve
  dsimp only
  rw [emit_work]
  rfl

theorem markRelease_work (b : Batch) (n : Nat) (p : Option Header) (σ : Bool) :
    (b.markRelease n).work p σ = b.work p σ := by
  simp only [work, markRelease]
  rw [map_modify_of_eq]
  intro e
  rfl

theorem amend_emit (b : Batch) (e : Effect) (f : Notification → Notification) :
    (b.emit e).amend f = b.emit { e with notification := f e.notification } := by
  simp only [amend, emit, List.length_append, List.length_singleton, Nat.add_sub_cancel,
    modify_length_append]

end Batch

/-! ## Kinds of steps -/

/-- `b'` differs from `b` in quiet effects only. -/
structure Idle (b b' : Batch) : Prop where
  core : b'.core = b.core
  effects : ∃ es, b'.effects = b.effects ++ es ∧ ∀ e ∈ es, e.Quiet

/-- `b'` differs from `b` in its timers, the tokens given to them and quiet effects. -/
structure Retimed (b b' : Batch) (n : Nat) (ts : Timers) : Prop where
  core : b'.core = { b.core with serial := n, timers := ts }
  effects : ∃ es, b'.effects = b.effects ++ es ∧ ∀ e ∈ es, e.Quiet

/-- The machine gets from `b` to `b'`, whatever becomes of the permit. -/
def Reaches [BasePackage] (i : Input) (b : Batch) (p : Option Header) (b' : Batch) : Prop :=
  ∃ p' σ, Moves i (b.work p false) (b'.work p' σ)

section Idle

variable {b b' b'' : Batch}

theorem Idle.refl : Idle b b :=
  ⟨rfl, [], (List.append_nil _).symm, List.forall_mem_nil _⟩

theorem Idle.retimed (h : Idle b b') : Retimed b b' b.core.serial b.core.timers :=
  ⟨h.core, h.effects⟩

theorem Retimed.trans {n' : Nat} {ts' : Timers} (h : Retimed b b' n ts)
    (h' : Retimed b' b'' n' ts') : Retimed b b'' n' ts' := by
  obtain ⟨es, he, hq⟩ := h.effects
  obtain ⟨es', he', hq'⟩ := h'.effects
  refine ⟨by rw [h'.core, h.core], es ++ es', ?_, ?_⟩
  · rw [he', he, List.append_assoc]
  intro e h
  rcases List.mem_append.1 h with h | h
  · exact hq e h
  · exact hq' e h

theorem Idle.trans (h : Idle b b') (h' : Idle b' b'') : Idle b b'' := by
  have hr := h.retimed.trans h'.retimed
  exact ⟨h'.core.trans h.core, hr.effects⟩

theorem Idle.emit {e : Effect} (he : e.Quiet) : Idle b (b.emit e) := by
  refine ⟨rfl, _, rfl, ?_⟩
  intro e' h
  rw [List.mem_singleton.1 h]
  exact he

theorem Idle.live (h : Idle b b') (hl : b.core.phase.ended = false) :
    b'.core.phase.ended = false := by
  rw [h.core]
  exact hl

theorem Retimed.work (h : Retimed b b' n ts) (p : Option Header)
    (σ : Bool) : ∃ es, (∀ e ∈ es, e.Quiet) ∧ b'.work p σ =
      ((b.work p σ).set fun s => { s with serial := n, timers := ts }).emits es := by
  obtain ⟨es, he, hq⟩ := h.effects
  refine ⟨es.map Effect.bare, ?_, ?_⟩
  · intro e h
    obtain ⟨e', h', rfl⟩ := List.mem_map.1 h
    exact hq e' h'
  · simp only [Batch.work, Work.set, Work.emits, he, List.map_append, h.core]
    rfl

end Idle

variable [BasePackage] {i : Input} {b b' b'' : Batch} {p : Option Header}

theorem quiet_moves {w : Work} (hr : w.Running) (es : List Effect) (h : ∀ e ∈ es, e.Quiet) :
    Moves i w (w.emits es) := by
  induction es generalizing w with
  | nil =>
    rw [Work.emits, List.append_nil]
    exact .refl
  | cons e es ih =>
    have htail := ih (w := w.emit e) hr fun e' h' => h e' (List.mem_cons_of_mem _ h')
    have hw : (w.emit e).emits es = w.emits (e :: es) := by
      simp [Work.emit, Work.emits, List.append_assoc]
    rw [hw] at htail
    exact .cons (.quiet (h e List.mem_cons_self) (.inl hr)) htail

/-- Effects that come with a move come before it or after it, as long as they are quiet. -/
theorem Retimed.moves (h : Retimed b b' n ts)
    (hm : Moves i (b.work p false) ((b.work p false).set fun s =>
      { s with serial := n, timers := ts })) (hl : b.core.phase.ended = false) :
    Moves i (b.work p false) (b'.work p false) := by
  obtain ⟨es, hq, hw⟩ := h.work p false
  have hr : ((b.work p false).set fun s => { s with serial := n, timers := ts }).Running :=
    ⟨rfl, hl⟩
  rw [hw]
  exact hm.trans (quiet_moves hr es hq)

theorem Idle.moves (h : Idle b b') (hl : b.core.phase.ended = false) (p : Option Header) :
    Moves i (b.work p false) (b'.work p false) :=
  h.retimed.moves .refl hl

theorem Idle.reaches (h : Idle b b') (hl : b.core.phase.ended = false) : Reaches i b p b' :=
  ⟨p, false, h.moves hl p⟩

theorem Idle.then (h : Idle b b') (hl : b.core.phase.ended = false)
    (h' : b'.core.phase.ended = false → Reaches i b' p b'') : Reaches i b p b'' := by
  obtain ⟨q, σ, hm⟩ := h' (h.live hl)
  exact ⟨q, σ, (h.moves hl p).trans hm⟩

theorem Reaches.refl : Reaches i b p b := ⟨p, false, .refl⟩

theorem Reaches.after {q : Option Header} (hm : Moves i (b.work p false) (b'.work q false))
    (h : Reaches i b' q b'') : Reaches i b p b'' := by
  obtain ⟨q', σ, h⟩ := h
  exact ⟨q', σ, hm.trans h⟩

theorem Reaches.unseen (h : Reaches i b' p b'') (hs : b'.core.state = b.core.state)
    (he : b'.effects = b.effects) : Reaches i b p b'' := by
  unfold Reaches Batch.work at *
  rw [hs, he] at h
  exact h

theorem Reaches.mark (h : Reaches i b p b') : Reaches i b p (b'.markRelease n) := by
  obtain ⟨q, σ, hm⟩ := h
  exact ⟨q, σ, (b'.markRelease_work n q σ).symm ▸ hm⟩

/-! ## Timers and reports -/

namespace Batch

section Quiet

omit [BasePackage]

theorem stop_retimed : Retimed b (b.stop k) b.core.serial (Timers.stop b.core.timers k) := by
  unfold stop Timers.stop
  split
  · exact ⟨rfl, Idle.refl.effects⟩
  refine ⟨rfl, _, rfl, ?_⟩
  intro e h
  rw [List.mem_singleton.1 h]
  trivial

theorem arm_retimed (hd : 0 < d) :
    Retimed b (b.arm k t d) (b.core.serial + 1)
      (Function.update b.core.timers k ⟨b.core.serial + 1, t + d⟩) := by
  unfold arm
  rw [if_neg (Int.not_le.2 hd)]
  refine ⟨rfl, _, rfl, ?_⟩
  intro e h
  rw [List.mem_singleton.1 h]
  trivial

theorem arm_of_nonpos (hd : d ≤ 0) : b.arm k t d = b := if_pos hd

theorem arm_core (b : Batch) (k : TimerKind) (t d : Int) :
    ∃ n ts, (b.arm k t d).core = { b.core with serial := n, timers := ts } := by
  by_cases hd : d ≤ 0
  · rw [arm_of_nonpos hd]
    exact ⟨_, _, rfl⟩
  · exact ⟨_, _, (arm_retimed (Int.not_le.1 hd)).core⟩

theorem watchdogArm_retimed :
    ∃ n ts, Retimed b (b.watchdogArm t d) n ts ∧ b.core.state.Rearms n ts := by
  simp only [watchdogArm]
  generalize hd : (if d ≤ 0 then b.core.cfg.watchdogInterval else d) = d'
  split
  next hd' =>
    refine ⟨_, _, stop_retimed, .inr ⟨?_, rfl, rfl⟩⟩
    show b.core.cfg.watchdogInterval ≤ 0
    split at hd <;> omega
  · refine ⟨b.core.serial + 1, Function.update b.core.timers .watchdog ⟨b.core.serial + 1, t + d'⟩,
      ?_, .inl ⟨rfl, _, rfl⟩⟩
    split
    · refine ⟨rfl, _, rfl, ?_⟩
      intro e h
      rw [List.mem_singleton.1 h]
      trivial
    · refine ⟨rfl, _, List.append_assoc _ _ _, ?_⟩
      intro e h
      rcases List.mem_pair.1 h with rfl | rfl
      · trivial
      · trivial

/-- A notification that reports no completion. -/
def Plain (n : Notification) : Prop :=
  n.kind ≠ .handshake ∧ (n.kind = .disconnect → n.outcome.refusal = true)

theorem notify_quiet {c : Core} {n : Notification} (h : Plain n) : (c.notify n).Quiet := by
  unfold Core.notify
  rw [if_neg h.1]
  exact h

theorem notify_idle {n : Notification} (h : Plain n) : Idle b (b.notify n) :=
  .emit (notify_quiet h)

theorem discard_idle {kind : Option ErrorKind} {code : UInt32} :
    Idle b (b.discard j kind code) := by
  unfold discard
  have h1 : Idle b (b.emit { kind := .discard }) := .emit trivial
  cases kind with
  | none => exact h1
  | some kind => exact h1.trans (notify_idle ⟨by simp, by simp⟩)

theorem discard_amend_idle {kind : ErrorKind} {code : UInt32}
    {f : Notification → Notification} (hf : ∀ n, (f n).kind = n.kind) :
    Idle b ((b.discard j (some kind) code).amend f) := by
  unfold discard notify
  rw [amend_emit]
  have h1 : Idle b (b.emit { kind := .discard }) := .emit trivial
  refine h1.trans (.emit ?_)
  simp [Effect.Quiet, Core.notify, hf]

theorem discardCause_idle {kind : ErrorKind} {err : ProtocolError} :
    Idle b (b.discardCause j kind err) :=
  discard_amend_idle fun _ => rfl

theorem consumed_idle {q : Packet} : Idle b (b.consumed q) := .emit trivial

end Quiet

/-! Timers that are changed by themselves. -/

theorem arm_moves (hl : b.core.phase.ended = false) (ha : b.core.state.Arms i k) :
    Moves i (b.work p false) ((b.arm k t d).work p false) := by
  by_cases hd : d ≤ 0
  · rw [arm_of_nonpos hd]
    exact .refl
  · have hm : Move i (b.work p false) _ := .arm (d := t + d) ⟨rfl, hl⟩ ha
    exact (arm_retimed (Int.not_le.1 hd)).moves (.single hm) hl

theorem rearm_moves (hw : b.core.state.Watched) (h : Retimed b b' n ts)
    (hr : b.core.state.Rearms n ts) : Moves i (b.work p false) (b'.work p false) := by
  have hl : b.core.phase.ended = false := by
    rw [show b.core.phase = .opened from hw.1]
    rfl
  refine h.moves (.single ?_) hl
  rcases hr with ⟨rfl, d, rfl⟩ | ⟨hd, rfl, rfl⟩
  · exact .arm ⟨rfl, hl⟩ hw
  · exact .stop ⟨rfl, hl⟩ fun _ => hd

theorem watchdogArm_moves (hw : b.core.state.Watched) :
    Moves i (b.work p false) ((b.watchdogArm t d).work p false) := by
  obtain ⟨n, ts, h, hr⟩ := watchdogArm_retimed (b := b) (t := t) (d := d)
  exact rearm_moves hw h hr

/-! ## Leases -/

/-- `b'` is `b` after changes to exchanges: the leases it has left, and those it gave back. -/
structure Freed (b b' : Batch) (l : Leases × List Reservation) : Prop where
  core : ∃ h cs, b'.core = { b.core with heap := h, controls := cs }
  leases : b'.core.leases = l.1
  effects : ∃ es, b'.effects = b.effects ++ es ∧ Releases l.2 es

section

omit [BasePackage]

theorem Freed.phase (h : Freed b b' l) : b'.core.phase = b.core.phase := by
  obtain ⟨hp, cs, hc⟩ := h.core
  rw [hc]

theorem Freed.state (h : Freed b b' l) : b'.core.state = { b.core.state with leases := l.1 } := by
  rw [← h.leases]
  obtain ⟨hp, cs, hc⟩ := h.core
  rw [hc]
  rfl

theorem Freed.work (h : Freed b b' l) (p : Option Header) (σ : Bool) : ∃ es, Releases l.2 es ∧
      b'.work p σ = ((b.work p σ).set fun s => { s with leases := l.1 }).emits es := by
  obtain ⟨es, he, hr⟩ := h.effects
  refine ⟨es.map Effect.bare, hr.bare, ?_⟩
  simp only [Batch.work, Work.set, Work.emits, h.state, he, List.map_append]

theorem release_freed (b : Batch) (r : Nat) : Freed b (b.release r) (b.core.leases.release r) := by
  have hheap : b.core.leases.heap[r]? = b.core.control? r := rfl
  unfold release Leases.release
  rw [hheap]
  cases b.core.control? r with
  | none => exact ⟨⟨_, _, rfl⟩, rfl, [], (List.append_nil _).symm, .nil⟩
  | some k =>
    dsimp only
    split
    · exact ⟨⟨_, _, rfl⟩, rfl, [], (List.append_nil _).symm, .nil⟩
    refine ⟨⟨_, _, rfl⟩, rfl, _, rfl, ?_, rfl⟩
    intro e he
    rw [List.mem_singleton.1 he]

theorem drop_freed (b : Batch) (r : Nat) (f : Control → Control) :
    Freed b ((b.update fun c => c.setControl r f).release r) (b.core.leases.drop r f) := by
  have h := release_freed (b.update fun c => c.setControl r f) r
  obtain ⟨hp, cs, hc⟩ := h.core
  exact ⟨⟨hp, cs, hc⟩, h.leases, h.effects⟩

theorem settle_freed (b : Batch) (r : Nat) : Freed b (b.settle r) (b.core.leases.settle r) :=
  drop_freed b r _

theorem abandon_freed (b : Batch) (cmd : BaseCommand) :
    Freed b (match b.core.controls cmd with
      | some r => b.abandon r
      | none => b) (b.core.leases.abandon cmd) := by
  have hcs : b.core.leases.controls cmd = b.core.controls cmd := rfl
  unfold Leases.abandon
  rw [hcs]
  cases b.core.controls cmd with
  | none => exact ⟨⟨_, _, rfl⟩, rfl, [], (List.append_nil _).symm, .nil⟩
  | some r => exact drop_freed b r _

theorem Freed.trans {l l' : Leases × List Reservation} (h : Freed b b' l) (h' : Freed b' b'' l') :
    Freed b b'' (l'.1, l.2 ++ l'.2) := by
  obtain ⟨hp, cs, hc⟩ := h.core
  obtain ⟨hp', cs', hc'⟩ := h'.core
  obtain ⟨es, he, hr⟩ := h.effects
  obtain ⟨es', he', hr'⟩ := h'.effects
  refine ⟨⟨hp', cs', by rw [hc', hc]⟩, h'.leases, es ++ es', ?_, hr.append hr'⟩
  rw [he', he, List.append_assoc]

theorem abandonControls_freed (b : Batch) :
    Freed b b.abandonControls b.core.leases.abandonAll := by
  have h1 := abandon_freed b .capabilitiesExchange
  generalize hb1 : (match b.core.controls .capabilitiesExchange with
    | some r => b.abandon r
    | none => b) = b1 at h1
  have h2 := abandon_freed b1 .deviceWatchdog
  generalize hb2 : (match b1.core.controls .deviceWatchdog with
    | some r => b1.abandon r
    | none => b1) = b2 at h2
  have h3 := abandon_freed b2 .disconnectPeer
  have hb : b.abandonControls = (match b2.core.controls .disconnectPeer with
    | some r => b2.abandon r
    | none => b2) := by
    rw [← hb2, ← hb1]
    rfl
  have h := (h1.trans h2).trans h3
  rw [h2.leases, h1.leases] at h
  rw [hb]
  simpa [Leases.abandonAll, BaseCommand.all] using h

end

/-! ## The end -/

section

omit [BasePackage]

theorem stopTimers_spec (b : Batch) : ∃ es,
    b.stopTimers.core = { b.core with timers := TimerKind.all.foldl Timers.stop b.core.timers } ∧
    b.stopTimers.effects = b.effects ++ es ∧ ∀ e ∈ es, e.kind = .stopTimer := by
  unfold stopTimers
  generalize TimerKind.all = ks
  induction ks generalizing b with
  | nil => exact ⟨[], rfl, (List.append_nil _).symm, List.forall_mem_nil _⟩
  | cons k ks ih =>
    obtain ⟨es, hc, he, hk⟩ := ih (b.stop k)
    have hcore : (b.stop k).core = { b.core with timers := Timers.stop b.core.timers k } :=
      stop_retimed.core
    have hstop : ∃ es', (b.stop k).effects = b.effects ++ es' ∧ ∀ e ∈ es', e.kind = .stopTimer := by
      unfold stop
      split
      · exact ⟨[], (List.append_nil _).symm, List.forall_mem_nil _⟩
      refine ⟨_, rfl, ?_⟩
      intro e he
      rw [List.mem_singleton.1 he]
    obtain ⟨es', he', hk'⟩ := hstop
    refine ⟨es' ++ es, ?_, ?_, ?_⟩
    · rw [List.foldl_cons, hc, hcore]
      rfl
    · rw [List.foldl_cons, he, he', List.append_assoc]
    intro e h
    rcases List.mem_append.1 h with h | h
    · exact hk' e h
    · exact hk e h

theorem cancelSends_spec (b : Batch) : ∃ es, b.cancelSends.core = b.core ∧
    b.cancelSends.effects = b.effects ++ es ∧ ∀ e ∈ es, e.kind = .cancelSend := by
  unfold cancelSends
  generalize b.core.operations.keys.mergeSort _ = ts
  induction ts generalizing b with
  | nil => exact ⟨[], rfl, (List.append_nil _).symm, List.forall_mem_nil _⟩
  | cons t ts ih =>
    obtain ⟨es, hc, he, hk⟩ := ih (b.emit { kind := .cancelSend, token := t })
    refine ⟨{ kind := .cancelSend, token := t, connection := b.core.cfg.connection } :: es, hc,
      ?_, ?_⟩
    · rw [List.foldl_cons, he]
      simp only [emit, List.append_assoc, List.singleton_append]
    intro e h
    rcases List.mem_cons.1 h with h | h
    · rw [h]
    · exact hk e h

theorem completeHandshake_spec (b : Batch) : ∃ es,
    b.completeHandshake.core = { b.core with handshakePending := false } ∧
    b.completeHandshake.effects = b.effects ++ es ∧ (∀ e ∈ es, e.IsHandshakeNotice) ∧
    es.length = if b.core.handshakePending then 1 else 0 := by
  unfold completeHandshake
  cases hp : b.core.handshakePending with
  | true =>
    refine ⟨_, rfl, rfl, ?_, rfl⟩
    intro e he
    rw [List.mem_singleton.1 he]
    exact ⟨rfl, rfl⟩
  | false =>
    refine ⟨[], ?_, (List.append_nil _).symm, List.forall_mem_nil _, rfl⟩
    rw [if_neg (by simp), ← hp]

theorem completeDisconnect_spec (b : Batch) : ∃ es,
    b.completeDisconnect.core = { b.core with disconnectWaiting := false } ∧
    b.completeDisconnect.effects = b.effects ++ es ∧
    (∀ e ∈ es, e.IsDisconnectNotice b.core.disconnectToken b.core.closeOutcome) ∧
    es.length = if b.core.disconnectWaiting then 1 else 0 := by
  unfold completeDisconnect
  cases hp : b.core.disconnectWaiting with
  | true =>
    refine ⟨_, rfl, rfl, ?_, rfl⟩
    intro e he
    rw [List.mem_singleton.1 he]
    exact ⟨rfl, rfl, rfl, rfl⟩
  | false =>
    refine ⟨[], ?_, (List.append_nil _).symm, List.forall_mem_nil _, rfl⟩
    rw [if_neg (by simp), ← hp]

/-- What `terminate` leaves, and the effects it appends in their order. -/
theorem terminate_spec (b : Batch) (ph : Phase) :
    (b.terminate ph).core.state = b.core.state.ended ph ∧
    ∃ es, (b.terminate ph).effects = b.effects ++ es ∧ TerminalEffects b.core.state ph es := by
  obtain ⟨stops, hc1, he1, hk1⟩ := stopTimers_spec (b.update fun c => shutDown c ph)
  generalize hb1 : (b.update fun c => shutDown c ph).stopTimers = b1 at hc1 he1
  have hl1 : b1.core.leases = b.core.leases := by rw [hc1]; rfl
  have h2 := abandonControls_freed b1
  rw [hl1] at h2
  obtain ⟨rels, he2, hr2⟩ := h2.effects
  have hs2 := h2.state
  generalize hb2 : b1.abandonControls = b2 at he2 hs2
  obtain ⟨cancels, hc3, he3, hk3⟩ := cancelSends_spec b2
  generalize hb3 : b2.cancelSends = b3 at hc3 he3
  generalize hb4 : (if ph = .closed then b3.emit { kind := .close } else b3) = b4
  have h4 : b4.core = b3.core ∧ ∃ closes, b4.effects = b3.effects ++ closes ∧
      closes.map Effect.kind = if ph = .closed then [EffectKind.close] else [] := by
    rw [← hb4]
    split
    · exact ⟨rfl, _, rfl, rfl⟩
    · exact ⟨rfl, [], (List.append_nil _).symm, rfl⟩
  obtain ⟨hc4, closes, he4, hk4⟩ := h4
  obtain ⟨hs, hc5, he5, hk5, hl5⟩ := completeHandshake_spec b4
  generalize hb5 : b4.completeHandshake = b5 at hc5 he5
  obtain ⟨ds, hc6, he6, hk6, hl6⟩ := completeDisconnect_spec b5
  have hb : b.terminate ph = b5.completeDisconnect := by
    rw [← hb5, ← hb4, ← hb3, ← hb2, ← hb1]
    rfl
  have hcore : b4.core.state =
      { (shutDown b.core ph).state with
        leases := b.core.leases.abandonAll.1
        timers := TimerKind.all.foldl Timers.stop b.core.timers } := by
    rw [hc4, hc3, hs2, hc1]
    rfl
  have hpending : b4.core.handshakePending = b.core.handshakePending :=
    congrArg State.handshakePending hcore
  have hwaiting : b4.core.disconnectWaiting = b.core.disconnectWaiting :=
    congrArg State.waiting hcore
  have htoken : b4.core.disconnectToken = b.core.disconnectToken :=
    congrArg State.disconnectToken hcore
  have houtcome : b4.core.closeOutcome = b.core.closeOutcome :=
    congrArg State.closeOutcome hcore
  rw [hb]
  refine ⟨?_, stops ++ rels ++ cancels ++ closes ++ hs ++ ds, ?_, ⟨stops, rels, cancels, closes, hs,
    ds, rfl, hk1, hr2, hk3, hk4, hk5, ?_, ?_, ?_⟩⟩
  · rw [hc6, hc5]
    show { b4.core.state with handshakePending := false, waiting := false } = _
    rw [hcore]
    rfl
  · rw [he6, he5, he4, he3, he2, he1]
    simp only [List.append_assoc]
    rfl
  · rw [hl5, hpending]
    rfl
  · rw [hc5] at hk6
    dsimp only at hk6
    rw [htoken, houtcome] at hk6
    exact hk6
  · rw [hl6, hc5]
    dsimp only
    rw [hwaiting]
    rfl

theorem terminate_phase (b : Batch) (f : Phase) : (b.terminate f).core.phase = f := by
  exact congrArg State.phase (terminate_spec b f).1

end

end Batch

omit [BasePackage] in
theorem TerminalEffects.bare {s : State} {ph : Phase}
    (h : TerminalEffects s ph es) : TerminalEffects s ph (es.map Effect.bare) := by
  obtain ⟨stops, rels, cancels, closes, hs, ds, rfl, h1, h2, h3, h4, h5, h6, h7, h8⟩ := h.split
  have hmap : ∀ {P : Effect → Prop} {l : List Effect}, (∀ e, P e → P e.bare) → (∀ e ∈ l, P e) →
      ∀ e ∈ l.map Effect.bare, P e := by
    intro P l hP hl e he
    obtain ⟨e', he', rfl⟩ := List.mem_map.1 he
    exact hP e' (hl e' he')
  refine ⟨⟨stops.map Effect.bare, rels.map Effect.bare, cancels.map Effect.bare,
    closes.map Effect.bare, hs.map Effect.bare, ds.map Effect.bare, by simp only [List.map_append],
    hmap (fun _ h => h) h1, h2.bare, hmap (fun _ h => h) h3, ?_, hmap (fun _ h => h) h5, ?_,
    hmap (fun _ h => h) h7, ?_⟩⟩
  · rw [List.map_map]
    exact h4
  · rw [List.length_map]
    exact h6
  · rw [List.length_map]
    exact h8

namespace Batch

theorem terminate_moves {f : Phase} (hl : b.core.phase.ended = false) (hp : f.ended = true) :
    Moves i (b.work p false) ((b.terminate f).work p true) := by
  obtain ⟨hs, es, he, ht⟩ := terminate_spec b f
  have hw : (b.terminate f).work p true =
      { ((b.work p false).set fun s => s.ended f).emits (es.map Effect.bare) with
        sealed := true } := by
    simp only [work, Work.set, Work.emits, hs, he, List.map_append]
  rw [hw]
  exact .single (.terminate ⟨rfl, hl⟩ hp ht.bare)

theorem report_moves {e : Effect} (he : e.Quiet) (hk : e.kind = .notify) :
    Moves i (b.work p true) ((b.emit e).work p true) := by
  rw [emit_work]
  exact .single (.quiet he (.inr ⟨rfl, hk⟩))

end Batch

end Diameter.Protocol
