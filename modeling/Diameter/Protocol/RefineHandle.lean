import Diameter.Protocol.RefineControl
import Diameter.Protocol.RefineReceive

/-!
# Protocol.RefineHandle

Every input of a connection core is a sequence of moves: `handleInto_reaches`. The code relies on
facts about the states it can be in; they are collected in `State.WF`, which every move keeps.
-/

namespace Diameter.Protocol

open Lib BasePackage

/-! ## Well-formed states -/

/-- Where a saved request comes from: a repeated CER, a DWR, or the CER a responder waits for. -/
def State.Resumable (s : State) (t : Nat) (k : Continuation) : Prop :=
  k.repeatedCER = true ∨ k.packet.header.commandCode = BaseCommand.deviceWatchdog.code ∨
    k.packet.header.commandCode = BaseCommand.capabilitiesExchange.code ∧ s.phase = .preCER ∧
      s.role = .responder ∧ s.candidate = 0 ∧ s.passive = false ∧ s.hook = t ∧ t ≠ 0 ∧
      s.terminal = false

/-- A CER that waits for the peer layer. -/
structure State.Choosing (s : State) : Prop where
  phase : s.phase = .preCER
  role : s.role = .responder
  active : s.passive = false
  hook : s.hook = 0
  latch : s.terminal = false

structure State.WF (s : State) : Prop where
  hooks : ∀ t k, s.continuations.lookup t = some k → s.Resumable t k
  operations : ∀ t op, s.leases.operations.lookup t = some op → Batch.Operation.Sound op
  deferred : ∀ j ∈ s.deferred, j.timer = .watchdog
  cerDeferred : s.cerDeferred = true → s.started = true
  tokens : s.Stamped
  choosing : s.candidate ≠ 0 → s.Choosing

variable [BasePackage] {i j : Input} {b b' : Batch} {q : Option Header} {p : Packet}

section

omit [BasePackage]

theorem sound_insert {ops : GoMap Nat Operation} {t : Nat} {op : Operation}
    (h : ∀ t op, ops.lookup t = some op → Batch.Operation.Sound op) (hop : Batch.Operation.Sound op) :
    ∀ t' op', (ops.insert t op).lookup t' = some op' → Batch.Operation.Sound op' := by
  intro t' op' h'
  rw [GoMap.lookup_insert_eq] at h'
  split at h'
  · cases h'
    exact hop
  · exact h t' op' h'

theorem sound_erase {ops : GoMap Nat Operation} {t : Nat}
    (h : ∀ t op, ops.lookup t = some op → Batch.Operation.Sound op) :
    ∀ t' op', (ops.erase t).lookup t' = some op' → Batch.Operation.Sound op' := by
  intro t' op' h'
  by_cases ht : t' = t
  · rw [ht, AList.lookup_erase] at h'
    cases h'
  · rw [AList.lookup_erase_ne ht] at h'
    exact h t' op' h'

theorem State.WF.hooks_of_busy {s s' : State} (h : s.WF)
    (hb : ¬ (s.phase = .preCER ∧ s.role = .responder ∧ s.candidate = 0 ∧ s.hook ≠ 0))
    (hc : s'.continuations = s.continuations) :
    ∀ t k, s'.continuations.lookup t = some k → s'.Resumable t k := by
  intro t k hk
  rw [hc] at hk
  rcases h.hooks t k hk with hr | hr | ⟨-, hp, hrole, hcand, -, hhook, ht, -⟩
  · exact .inl hr
  · exact .inr (.inl hr)
  · exact (hb ⟨hp, hrole, hcand, hhook ▸ ht⟩).elim

theorem State.WF.ended {s : State} (h : s.WF) (f : Phase) : (s.ended f).WF := by
  refine ⟨?_, ?_, fun _ h => (Option.not_mem_none _ h).elim, h.cerDeferred,
    Timers.foldl_stop_le _ h.tokens, fun h => (h rfl).elim⟩
  · intro t k hk
    rw [show (s.ended f).continuations = ∅ from rfl, GoMap.lookup_empty_eq] at hk
    cases hk
  · rw [show (s.ended f).leases = s.leases.abandonAll.1 from rfl, Leases.abandonAll_operations]
    exact h.operations

end

theorem Move.choosing {w w' : Work} (h : Move i w w')
    (hw : w.state.candidate ≠ 0 → w.state.Choosing) : w'.state.candidate ≠ 0 → w'.state.Choosing := by
  cases h
  case startInitiator hrole _ _ _ =>
    intro hc
    have hr := (hw hc).role
    rw [show w.state.role = .initiator from hrole] at hr
    cases hr
  case latch _ hc => exact fun h => (h hc).elim
  case runHook hpre _ _ _ _ =>
    intro hc
    have hs := hw hc
    exact ((hpre hs.phase).2.2.1 ▸ hc) rfl |>.elim
  case resume =>
    intro hc
    have hs := hw hc
    refine ⟨hs.phase, hs.role, hs.active, ?_, hs.latch⟩
    show (if w.state.hook = i.token then 0 else w.state.hook) = 0
    split
    · rfl
    · exact hs.hook
  case impassive =>
    intro hc
    have hs := hw hc
    exact ⟨hs.phase, hs.role, rfl, hs.hook, hs.latch⟩
  case candidate hphase hrole _ hpass hhook _ _ _ =>
    exact fun _ => ⟨hphase, hrole, hpass, hhook.1, hhook.2⟩
  case answer e _ _ _ _ _ _ _ _ _ hlast _ _ _ _ _ =>
    intro hc
    have hs := hw hc
    have hopen : e.closeAfter = false := Bool.eq_false_iff.2 fun h => hc (hlast h).2.2
    refine ⟨hs.phase, hs.role, hs.active, hs.hook, ?_⟩
    show (w.state.terminal || e.closeAfter) = false
    rw [hs.latch, hopen]
    rfl
  case activate | rejectCandidate => exact fun h => (h rfl).elim
  case admitted hphase _ =>
    intro hc
    have hs := hw hc
    rcases hphase with hp | ⟨-, hr⟩
    · rw [hs.phase] at hp
      cases hp
    · rw [hs.role] at hr
      cases hr
  case beginClosing hphase _ _ _ _ _ _ =>
    intro hc
    have hp := (hw hc).phase
    rw [hphase] at hp
    cases hp
  case terminate | disconnected => exact fun h => (h rfl).elim
  all_goals exact fun hc => ⟨(hw hc).phase, (hw hc).role, (hw hc).active, (hw hc).hook, (hw hc).latch⟩

theorem State.WF.step {w w' : Work} (h : Move i w w') (hw : w.state.WF) : w'.state.WF := by
  have htokens := h.stamped hw.tokens
  have hchoosing := h.choosing hw.choosing
  cases h
  case latch hhook _ =>
    refine ⟨hw.hooks_of_busy ?_ rfl, hw.operations, hw.deferred, hw.cerDeferred, htokens, hchoosing⟩
    simp [hhook]
  case deferred hj _ _ _ _ =>
    refine ⟨hw.hooks, hw.operations, fun j h => ?_, hw.cerDeferred, htokens, hchoosing⟩
    rw [← Option.mem_some.1 h]
    exact hj
  case expired =>
    exact ⟨hw.hooks, hw.operations, fun _ h => (Option.not_mem_none _ h).elim, hw.cerDeferred,
      htokens, hchoosing⟩
  case startResponder => exact ⟨hw.hooks, hw.operations, hw.deferred, fun _ => rfl, htokens, hchoosing⟩
  case startInitiator hrole _ _ _ =>
    refine ⟨hw.hooks_of_busy ?_ rfl, hw.operations, hw.deferred, fun _ => rfl, htokens, hchoosing⟩
    simp [hrole]
  case reserveCER => exact ⟨hw.hooks, hw.operations, hw.deferred, fun h => (by cases h), htokens, hchoosing⟩
  case runHook e k h hr hp hk hcode hpre hrep hce hkind htoken =>
    refine ⟨?_, hw.operations, hw.deferred, hw.cerDeferred, htokens, hchoosing⟩
    intro t k' hk'
    change (w.state.continuations.insert (w.state.serial + 1) k).lookup t = some k' at hk'
    rw [GoMap.lookup_insert_eq] at hk'
    split at hk'
    next ht =>
      cases hk'
      rcases hcode with hcode | hcode
      · rcases hce hcode with hphase | hphase
        · obtain ⟨-, hrole, hcand, -, hopen⟩ := hpre hphase
          refine .inr (.inr ⟨hk ▸ hcode, hphase, hrole, hcand, if_pos hphase, ?_, ?_, hopen⟩)
          · rw [ht]
            exact if_pos hphase
          · rw [ht]
            exact Nat.succ_ne_zero _
        · exact .inl (hrep.2 ⟨hphase, hcode⟩)
      · exact .inr (.inl (hk ▸ hcode))
    · rcases hw.hooks t k' hk' with hr | hr | ⟨hc, hphase, hrole, hcand, -, hhook, ht, -⟩
      · exact .inl hr
      · exact .inr (.inl hr)
      · exact absurd (hpre hphase).2.2.2.1 (hhook ▸ ht)
  case resume =>
    refine ⟨?_, hw.operations, hw.deferred, hw.cerDeferred, htokens, hchoosing⟩
    intro t k' hk'
    change (w.state.continuations.erase i.token).lookup t = some k' at hk'
    by_cases ht : t = i.token
    · rw [ht, AList.lookup_erase] at hk'
      cases hk'
    rw [AList.lookup_erase_ne ht] at hk'
    rcases hw.hooks t k' hk' with hr | hr | ⟨hc, hphase, hrole, hcand, hpass, hhook, ht', hopen⟩
    · exact .inl hr
    · exact .inr (.inl hr)
    · exact .inr (.inr ⟨hc, hphase, hrole, hcand, hpass,
        (if_neg (by rw [hhook]; exact ht)).trans hhook, ht', hopen⟩)
  case impassive =>
    refine ⟨?_, hw.operations, hw.deferred, hw.cerDeferred, htokens, hchoosing⟩
    intro t k hk
    rcases hw.hooks t k hk with hr | hr | ⟨hc, hphase, hrole, hcand, -, hhook, ht, hopen⟩
    · exact .inl hr
    · exact .inr (.inl hr)
    · exact .inr (.inr ⟨hc, hphase, hrole, hcand, rfl, hhook, ht, hopen⟩)
  case candidate hhook _ _ _ =>
    refine ⟨hw.hooks_of_busy ?_ rfl, hw.operations, hw.deferred, hw.cerDeferred, htokens, hchoosing⟩
    simp [hhook.1]
  case answer e _ op _ _ _ _ hc _ hn hlast _ _ _ _ _ =>
    refine ⟨?_, sound_insert hw.operations ⟨fun _ => hc, hn⟩, hw.deferred, hw.cerDeferred, htokens,
      hchoosing⟩
    intro t k hk
    rcases hw.hooks t k hk with hr | hr | ⟨hce, hphase, hrole, hcand, hpass, hhook, ht, hopen⟩
    · exact .inl hr
    · exact .inr (.inl hr)
    refine .inr (.inr ⟨hce, hphase, hrole, hcand, hpass, hhook, ht, ?_⟩)
    have hgoes : e.closeAfter = false :=
      Bool.eq_false_iff.2 fun h => ht (hhook.symm.trans (hlast h).2.1)
    show (w.state.terminal || e.closeAfter) = false
    rw [hopen, hgoes]
    rfl
  case activate hcand _ _ =>
    refine ⟨hw.hooks_of_busy ?_ rfl, hw.operations, hw.deferred, hw.cerDeferred, htokens, hchoosing⟩
    simp [hcand]
  case rejectCandidate hcand _ =>
    refine ⟨hw.hooks_of_busy ?_ rfl, hw.operations, hw.deferred, hw.cerDeferred, htokens, hchoosing⟩
    simp [hcand]
  case admitted hphase _ =>
    refine ⟨hw.hooks_of_busy ?_ rfl, hw.operations, hw.deferred, hw.cerDeferred, htokens, hchoosing⟩
    rcases hphase with hphase | hphase
    · simp [hphase]
    · simp [hphase.2]
  case beginClosing hphase _ _ _ _ _ _ =>
    refine ⟨hw.hooks_of_busy ?_ rfl, hw.operations, hw.deferred, hw.cerDeferred, htokens, hchoosing⟩
    simp [hphase]
  case settleCER | credit | dpaSettled =>
    refine ⟨hw.hooks, ?_, hw.deferred, hw.cerDeferred, htokens, hchoosing⟩
    simp only [Work.set, Work.emits, Leases.settle_operations]
    exact hw.operations
  case terminate | disconnected => exact hw.ended _
  case request hop _ | retransmit hop _ =>
    refine ⟨hw.hooks, sound_insert hw.operations ⟨?_, hop.plain⟩, hw.deferred, hw.cerDeferred,
      htokens, hchoosing⟩
    simp [hop.closeAfter]
  case finishWrite =>
    refine ⟨hw.hooks, ?_, hw.deferred, hw.cerDeferred, htokens, hchoosing⟩
    simp only [Work.set, Work.emits, Leases.writeDone, Leases.finish_operations]
    exact sound_erase hw.operations
  case progress op op' _ _ _ _ hop hc hclose hn _ =>
    refine ⟨hw.hooks, sound_insert hw.operations ?_, hw.deferred, hw.cerDeferred, htokens, hchoosing⟩
    obtain ⟨hlast, hplain⟩ := hw.operations _ op hop
    refine ⟨fun h => hc.trans (hlast (hclose ▸ h)), ?_⟩
    unfold Operation.Plain
    rw [hn]
    exact hplain
  case skipped | skippedProbe =>
    refine ⟨hw.hooks, ?_, hw.deferred, hw.cerDeferred, htokens, hchoosing⟩
    simp only [Work.set, Work.emits, Leases.writeSkipped, Leases.finish_operations]
    exact sound_erase hw.operations
  all_goals exact ⟨hw.hooks, hw.operations, hw.deferred, hw.cerDeferred, htokens, hchoosing⟩

/-! ## Batches that go on after a message -/

/-- An input that ended the connection left no deferred expiry. -/
theorem Moves.sealed_deferred {w w' : Work} (h : Moves i w w')
    (hw : w.sealed = true → w.state.deferred = none) :
    w'.sealed = true → w'.state.deferred = none := by
  refine h.invariant (P := fun w => w.sealed = true → w.state.deferred = none) ?_ hw
  intro w w' hm hw hs
  cases hm
  case terminate | disconnected | expired => rfl
  case deferred hrun _ _ _ _ _ =>
    have h := hrun.1
    rw [show w.sealed = true from hs] at h
    cases h
  all_goals exact hw hs

namespace Batch

theorem received_reaches (hl : b.core.phase.ended = false) (hwf : b.core.state.WF)
    (hk : i.kind = .receive) : Reaches i b i.message.request (b.received i) := by
  unfold received
  dsimp only
  have hcand : b.core.phase ≠ .preCER → b.core.candidateToken = 0 :=
    fun hp => Decidable.byContradiction fun hc => hp (hwf.choosing hc).phase
  obtain ⟨p', σ, hm⟩ := receive_reaches (b := b) hl hk hcand
  have hdeferred := hm.sealed_deferred (fun h => by cases h)
  have hwf' := hm.invariant (P := fun w => w.state.WF) State.WF.step hwf
  generalize b.receive i = b1 at hm hdeferred hwf'
  have hadvance : (∀ j ∈ b1.core.deferredExpiry,
      max b1.core.receivedSequence i.sequence < j.afterReceive) →
      Moves i (b1.work p' σ) ((b1.update fun c => { c with
        receivedSequence := max c.receivedSequence i.sequence }).work p' σ) := fun h =>
    .single (.advance (w := b1.work p' σ) (n := max b1.core.receivedSequence i.sequence)
      (Nat.le_max_left _ _) h)
  split
  · exact ⟨p', σ, hm⟩
  split
  next pending hp =>
    have hp : b1.core.deferredExpiry = some pending := hp
    split
    next hn =>
      cases σ with
      | true =>
        have h : b1.core.deferredExpiry = none := hdeferred rfl
        exact absurd (h.symm.trans hp) (by simp)
      | false =>
        obtain ⟨q, τ, h2⟩ := deferredExpiry_reaches (i := i) (q := p') hp hn
          (hwf'.deferred pending hp) (by simp [hk]) (hwf'.tokens _)
        exact ⟨q, τ, hm.trans h2⟩
    next hn =>
      refine ⟨p', σ, hm.trans (hadvance fun j hj => ?_)⟩
      rw [hp] at hj
      rw [← Option.mem_some.1 hj]
      exact Nat.not_le.1 hn
  next hp =>
    refine ⟨p', σ, hm.trans (hadvance fun j hj => ?_)⟩
    have hp : b1.core.deferredExpiry = none := hp
    rw [hp] at hj
    cases hj

/-! ## Hooks -/

omit [BasePackage] in
theorem sameExchange_answers {h o a : Header} (hs : sameExchange h o = true) (ha : Answers a h) :
    Answers a o := by
  simp only [sameExchange, Bool.and_eq_true, beq_iff_eq] at hs
  obtain ⟨⟨⟨⟨hcode, -⟩, -⟩, hhop⟩, hend⟩ := hs
  exact ⟨ha.isAnswer, ha.commandCode.trans hcode, ha.hopByHopID.trans hhop,
    ha.endToEndID.trans hend⟩

theorem continued_reaches {k : Continuation} (hl : b.core.phase.ended = false)
    (hq : q = some k.packet.header)
    (hk : k.repeatedCER = true ∨ k.packet.header.commandCode = BaseCommand.deviceWatchdog.code ∨
      b.core.phase = .preCER ∧ b.core.cfg.role = .responder ∧ Latchable b.core) :
    Reaches i b q (b.continued j p k) := by
  unfold continued
  dsimp only
  split
  · exact fail_reaches hl (by simp)
  rename_i hs
  have hg : Grants q p := ⟨_, hq, fun ha => sameExchange_answers (by simpa using hs) ha⟩
  split
  · exact discard_idle.reaches hl
  rename_i hrep
  split
  · exact dwr_reaches hl hg
  split
  · split
    next hce =>
      rcases hk with hk | hk | ⟨-, -, hopen⟩
      · exact (hrep hk).elim
      · exact absurd (hce.symm.trans hk) (by decide)
      · exact reject_reaches hl hg hopen
    · exact discard_idle.reaches hl
  · split
    · exact dwr_reaches hl hg
    next hdw =>
      rcases hk with hk | hk | ⟨hp, hr, hopen⟩
      · exact (hrep hk).elim
      · exact (hdw hk).elim
      · exact candidate_reaches hg hp hr hopen

theorem resume_reaches (hl : b.core.phase.ended = false) (hwf : b.core.state.WF)
    (hi : i.kind = .continue) : Reaches i b none (b.resume i) := by
  unfold resume
  split
  · exact .refl
  rename_i k hk
  dsimp only
  generalize hb1 : (b.update fun c => { c with
    continuations := c.continuations.erase i.token
    hookToken := if c.hookToken = i.token then 0 else c.hookToken }) = b1
  have h1 : Moves i (b.work none false) (b1.work (some k.packet.header) false) := by
    rw [← hb1]
    exact .single (.resume ⟨rfl, hl⟩ hi hk rfl)
  have hl1 : b1.core.phase.ended = false := by rw [← hb1]; exact hl
  have hres : k.repeatedCER = true ∨
      k.packet.header.commandCode = BaseCommand.deviceWatchdog.code ∨
      b1.core.phase = .preCER ∧ b1.core.cfg.role = .responder ∧ Latchable b1.core := by
    rcases hwf.hooks i.token k hk with hr | hr | ⟨-, hphase, hrole, hcand, -, hhook, -, hopen⟩
    · exact .inl hr
    · exact .inr (.inl hr)
    · rw [← hb1]
      exact .inr (.inr ⟨hphase, hrole, hopen, if_pos hhook, hcand⟩)
  refine .after h1 ?_
  split
  · exact terminate_reaches hl1 rfl
  split
  · exact continued_reaches hl1 rfl hres
  · exact fail_reaches hl1 (by simp)
  · exact continued_reaches hl1 rfl hres

/-! ## Starting -/

theorem arm_before {f : Core → Core} {k : TimerKind} {t d : Int} (hl : b.core.phase.ended = false)
    (ha : b.core.state.Arms i k)
    (hf : ∀ c n ts, f { c with serial := n, timers := ts } = { f c with serial := n, timers := ts })
    (hc : ∀ c, (f c).cfg = c.cfg) (hs : (f b.core).serial = b.core.serial) :
    ∃ n ts es, Moves i (b.work q false)
        (work ⟨{ b.core with serial := n, timers := ts }, es⟩ q false) ∧
      (b.update f).arm k t d = update ⟨{ b.core with serial := n, timers := ts }, es⟩ f := by
  obtain ⟨n, ts, hcore⟩ := arm_core b k t d
  have hb1 : b.arm k t d = ⟨{ b.core with serial := n, timers := ts }, (b.arm k t d).effects⟩ := by
    rw [← hcore]
  refine ⟨n, ts, _, hb1 ▸ arm_moves hl ha, ?_⟩
  rw [← hb1]
  have hb : f b.core = { f b.core with serial := b.core.serial, timers := b.core.timers } :=
    hf b.core b.core.serial b.core.timers
  have ht : (f b.core).timers = b.core.timers := by rw [hb]
  unfold arm
  split
  · rfl
  show Batch.mk { f b.core with
      serial := (f b.core).serial + 1
      timers := Function.update (f b.core).timers k ⟨(f b.core).serial + 1, t + d⟩ }
    (b.effects ++ [{ kind := .armTimer, timer := k, token := (f b.core).serial + 1
                     deadline := t + d, connection := (f b.core).cfg.connection }]) = _
  rw [ht, hs, hc, ← hf]
  rfl

theorem start_reaches (hi : i.kind = .start) (hwf : b.core.state.WF) :
    Reaches i b q (b.start j) := by
  unfold start
  split
  · exact .refl
  rename_i h
  simp only [Bool.or_eq_true, decide_eq_true_eq, not_or, not_not, Bool.not_eq_true] at h
  obtain ⟨hstart, hp⟩ := h
  have hl : b.core.phase.ended = false := by rw [hp]; rfl
  have hdefer : b.core.cerDeferred = false := by
    cases hd : b.core.cerDeferred with
    | false => rfl
    | true => exact absurd (hwf.cerDeferred hd) (by simp [Core.state, hstart])
  obtain ⟨n, ts, es, hm, hb1⟩ := arm_before (i := i) (q := q) (k := .handshake) (t := j.time)
    (d := b.core.cfg.handshakeTimeout) (f := fun c => { c with started := true }) hl
    ⟨.inl hi, .inl hstart⟩ (fun _ _ _ => rfl) (fun _ => rfl) rfl
  replace hb1 : (b.update fun c => { c with started := true }).arm .handshake j.time
      (b.update fun c => { c with started := true }).core.cfg.handshakeTimeout = _ := hb1
  dsimp only
  rw [hb1]
  generalize hb : Batch.mk { b.core with serial := n, timers := ts } es = b1 at hm
  split
  next hrole =>
    split
    · refine ⟨q, false, .single ?_⟩
      exact .startInitiator ⟨rfl, hl⟩ hrole hp hstart id
    have h1 : Move i (b1.work q false) ((b1.work q false).set fun s => { s with
        started := true, phase := .waitCEA, cerDeferred := true, handshakePending := true }) := by
      rw [← hb]
      exact .startInitiator ⟨rfl, hl⟩ hrole hp hstart fun _ => rfl
    refine ⟨q, false, hm.trans (.cons h1 (.single ?_))⟩
    have hcer : b1.core.cerDeferred = false := by
      rw [← hb]
      exact hdefer
    have hset : (((b1.update fun c => { c with started := true }).update fun c => { c with
        phase := .waitCEA, handshakePending := true }).work q false) =
        (((b1.work q false).set fun s => { s with started := true, phase := .waitCEA
                                                  cerDeferred := true
                                                  handshakePending := true }).set fun s =>
          { s with cerDeferred := false }) := by
      refine work_eq (b := (b1.update _).update _) ?_ rfl q false
      show Core.state { b1.core with started := _, phase := _, handshakePending := _ } = _
      simp only [Core.state, hcer]
      rfl
    rw [reserve_work, hset]
    exact .reserveCER ⟨rfl, rfl⟩ (by simp [hi]) rfl rfl rfl rfl
  next hrole =>
    rw [← hb] at hm ⊢
    exact ⟨q, false, hm.trans (.single (.startResponder ⟨rfl, hl⟩ hrole hp))⟩

theorem beginCER_reaches (hi : i.kind = .beginCER) : Reaches i b q (b.beginCER j) := by
  unfold beginCER
  split
  · exact .refl
  rename_i h
  simp only [Bool.or_eq_true, decide_eq_true_eq, not_or, not_not, Bool.not_eq_true',
    Bool.not_eq_false] at h
  have hl : b.core.phase.ended = false := by rw [h.2]; rfl
  obtain ⟨n, ts, es, hm, hb1⟩ := arm_before (i := i) (q := q) (k := .handshake) (t := j.time)
    (d := b.core.cfg.handshakeTimeout) (f := fun c => { c with cerDeferred := false }) hl
    ⟨.inr hi, .inr h.1⟩ (fun _ _ _ => rfl) (fun _ => rfl) rfl
  rw [hb1]
  refine ⟨q, false, hm.trans (.single ?_)⟩
  rw [reserve_work]
  exact .reserveCER ⟨rfl, hl⟩ (by simp [hi]) h.2 h.1 rfl rfl

theorem stopSupervision_reaches (hl : b.core.phase.ended = false) :
    Reaches i b q b.stopSupervision := by
  have hm : Move i (b.work q false) _ := .unsupervise ⟨rfl, hl⟩
  obtain ⟨es, hes, hq⟩ := (stop_retimed (b := b.update fun c => { c with
    cfg := { c.cfg with watchdog := false }, wd := { c.wd with pending := false }
    wdNext := none }) (k := .watchdog)).work q false
  refine ⟨q, false, ?_⟩
  rw [stopSupervision, hq]
  refine .cons hm (quiet_moves ?_ es hes)
  exact ⟨rfl, hl⟩

/-! ## Admission -/

theorem activate_moves (hi : i.kind = .activate) (hp : b.core.phase = .preCER)
    (hc : b.core.candidateToken ≠ 0) (ht : i.token = b.core.candidateToken) :
    Moves i (b.work none false) ((((b.update (activatePeer i)).stop .handshake).publish).work
      (b.core.cer.map Packet.header) false) := by
  have hl : b.core.phase.ended = false := by rw [hp]; rfl
  rw [stop_update (f := activatePeer i) (fun _ _ => rfl) fun _ => rfl]
  have htimed : Retimed b (b.stop .handshake) _ _ := stop_retimed
  generalize b.stop .handshake = b1 at htimed
  obtain ⟨es, hquiet, hw⟩ := htimed.work none false
  have hm : Move i ((b.work none false).emits es) _ := .activate
    (e := { kind := .publish, token := (b1.update (activatePeer i)).core.admission
            snapshot := some (b1.update (activatePeer i)).core.snapshot
            connection := b1.core.cfg.connection })
    ⟨rfl, hl⟩ hi rfl hp hc ht rfl
  refine (quiet_moves (w := b.work none false) ⟨rfl, hl⟩ es hquiet).trans (.single ?_)
  have hs : (activatePeer i b1.core).state = { b.core.state with
      candidate := 0
      wd := if i.recovery then { b.core.wd with state := .down } else b.core.wd
      phase := .opened, handshakePending := true, serial := b.core.serial + 1
      admission := b.core.serial + 1, timers := Timers.stop b.core.timers .handshake } := by
    rw [htimed.core]
    rfl
  unfold publish
  rw [emit_work, work_eq (b := b1.update (activatePeer i)) hs (congrArg Work.effects hw)]
  exact hm

theorem activate_reaches (hi : i.kind = .activate) : Reaches i b none (b.activate i) := by
  unfold activate
  split
  · exact .refl
  rename_i h
  simp only [Bool.or_eq_true, decide_eq_true_eq, not_or, not_not] at h
  obtain ⟨⟨hp, hc⟩, ht⟩ := h
  dsimp only
  have h1 := activate_moves (b := b) hi hp hc ht
  have hcore : ((b.update (activatePeer i)).stop .handshake).publish.core.cer = b.core.cer ∧
      ((b.update (activatePeer i)).stop .handshake).publish.core.phase = .opened := by
    have hc := stop_core (b.update (activatePeer i)) .handshake
    exact ⟨(congrArg Core.cer hc :), (congrArg Core.phase hc :)⟩
  generalize ((b.update (activatePeer i)).stop .handshake).publish = b1 at h1 hcore
  have hl1 : b1.core.phase.ended = false := by
    rw [hcore.2]
    rfl
  rw [← hcore.1] at h1
  split
  next hcer =>
    rw [hcer] at h1
    exact ⟨none, false, h1⟩
  next cer hcer =>
    rw [hcer] at h1
    refine .after h1 ?_
    split
    · exact fail_reaches hl1 (by simp)
    next answer hb => exact send_reaches hl1 (.self rfl) (buildCEA_answers hb) rfl (by simp) rfl rfl

theorem rejectCandidate_reaches (hwf : b.core.state.WF) (hi : i.kind = .rejectCandidate) :
    Reaches i b none (b.rejectCandidate i) := by
  unfold rejectCandidate
  split
  · exact .refl
  rename_i h
  simp only [Bool.or_eq_true, decide_eq_true_eq, not_or, not_not] at h
  have hchoosing : b.core.state.Choosing := hwf.choosing h.1
  have hl : b.core.phase.ended = false := by
    rw [show b.core.phase = .preCER from hchoosing.phase]
    rfl
  split
  · exact terminate_reaches hl rfl
  dsimp only
  have h1 : Moves i (b.work none false) ((b.update fun c => { c with
      candidateToken := 0 }).work (b.core.cer.map Packet.header) false) :=
    .single (.rejectCandidate ⟨rfl, hl⟩ hi rfl h.1 h.2)
  generalize hb1 : (b.update fun c => { c with candidateToken := 0 }) = b1 at h1
  have hl1 : b1.core.phase.ended = false := by rw [← hb1]; exact hl
  have hcer1 : b1.core.cer = b.core.cer := by rw [← hb1]; rfl
  have hopen : Latchable b1.core := by
    rw [← hb1]
    exact ⟨hchoosing.latch, hchoosing.hook, rfl⟩
  have hlast : (b.update fun c => { c with candidateToken := 0, terminal := true }) =
      b1.latch true := by
    rw [← hb1]
    rfl
  have h2 : Moves i (b1.work (b.core.cer.map Packet.header) false)
      ((b1.latch true).work (b.core.cer.map Packet.header) false) :=
    .single (.latch ⟨rfl, hl1⟩ hopen.hook hopen.candidate)
  rw [hlast]
  refine .after h1 ?_
  split
  · exact ⟨_, false, h2⟩
  rename_i cer hcer
  have hcer : b.core.cer = some cer := hcer1.symm.trans hcer
  rw [hcer] at h2 ⊢
  split
  · exact .after h2 (failedRejection_reaches hl1)
  rename_i answer hb
  exact latch_send_reaches hl1 (.self rfl) (buildCEA_answers hb) rfl (by simp) rfl rfl
    fun _ => hopen

theorem releaseAdmission_reaches (hi : i.kind = .releaseAdmission) :
    Reaches i b q (b.releaseAdmission i) := by
  unfold releaseAdmission
  split
  · exact .refl
  rename_i h
  simp only [Bool.or_eq_true, decide_eq_true_eq, not_or, not_not, Bool.not_eq_true,
    Bool.not_eq_true', Bool.not_eq_false] at h
  obtain ⟨⟨⟨⟨ho, -⟩, -⟩, hready⟩, -⟩ := h
  have hl : b.core.phase.ended = false := by rw [ho]; rfl
  have hrun : (b.work q false).Running := ⟨rfl, hl⟩
  unfold watchdogUp
  split
  next hw =>
    have hw : (!b.core.cfg.watchdog) = true := hw
    have hw : b.core.cfg.watchdog = false := by simpa using hw
    have hmove := Move.releaseAdmission (i := i) (e := { b.core.notify { kind := .handshake } with
      connection := b.core.cfg.connection, releaseDispatch := false }) hrun hi ho hready hw
      ⟨rfl, rfl⟩
    refine ⟨q, false, .single ?_⟩
    convert hmove using 1
    exact work_eq rfl List.map_append q false
  next hw =>
    have hw : ¬ (!b.core.cfg.watchdog) = true := hw
    have hw : b.core.cfg.watchdog = true := by simpa using hw
    dsimp only
    split
    next hsend =>
      have hmove := Move.releaseRecovering (i := i)
        (e := { b.core.notify { kind := .handshake } with
          connection := b.core.cfg.connection, releaseDispatch := false })
        (f := { kind := .reserveIDs, command := some .deviceWatchdog,
                 token := b.core.serial + 1, connection := b.core.cfg.connection })
        hrun hi ho hready hw hsend ⟨rfl, rfl⟩ rfl rfl
      refine ⟨q, false, .single ?_⟩
      convert hmove using 1
      refine work_eq rfl ?_ q false
      exact (congrArg _ (List.append_assoc _ _ _)).trans List.map_append
    next hsend =>
      generalize hb1 : Batch.update (Batch.notify _ _) _ = b1
      have hw1 : b1.work q false = ((b.work q false).set fun s => { s with
          ready := true, handshakePending := false
          wd := (s.wd.step .connectionUp).1 }).emit { b.core.notify { kind := .handshake } with
            connection := b.core.cfg.connection, releaseDispatch := false } := by
        rw [← hb1]
        exact work_eq rfl List.map_append q false
      generalize hb2 : (if (b.core.wd.step .connectionUp).2.reset = true
        then b1.watchdogArm i.time i.interval else b1) = b2
      have htimed : ∃ n ts, Retimed b1 b2 n ts ∧ (if (b.core.wd.step .connectionUp).2.reset
          then b.core.state.Rearms n ts else n = b.core.serial ∧ ts = b.core.timers) := by
        rw [← hb2]
        split
        · obtain ⟨n, ts, ht, hr⟩ := watchdogArm_retimed (b := b1) (t := i.time) (d := i.interval)
          rw [← hb1] at hr
          exact ⟨n, ts, ht, hr⟩
        · refine ⟨_, _, Idle.refl.retimed, ?_⟩
          rw [← hb1]
          exact ⟨rfl, rfl⟩
      obtain ⟨n, ts, ht, hr⟩ := htimed
      obtain ⟨es, hquiet, hw2⟩ := ht.work q false
      have hm : Move i (b.work q false) _ := .releaseSupervised
        (e := { b.core.notify { kind := .handshake } with
          connection := b.core.cfg.connection, releaseDispatch := false })
        hrun hi ho hready hw (Bool.not_eq_true _ ▸ hsend) hr ⟨rfl, rfl⟩
      refine ⟨q, false, ?_⟩
      show Moves i (b.work q false) ((if (b.core.wd.step .connectionUp).2.reset = true
        then b1.watchdogArm i.time i.interval else b1).work q false)
      rw [hb2, hw2, hw1]
      exact .cons hm (quiet_moves (w := ((b.work q false).set fun s => { s with
        ready := true, handshakePending := false, wd := (s.wd.step .connectionUp).1
        serial := n, timers := ts }).emit _) ⟨rfl, hl⟩ es hquiet)

/-! ## Disconnect -/

theorem disconnect_reaches (hl : b.core.phase.ended = false) (hi : i.kind = .disconnect) :
    Reaches i b none (b.disconnect i) := by
  unfold disconnect
  split
  · exact (notify_idle ⟨by simp, fun _ => rfl⟩).reaches hl
  rename_i hwait
  rw [Bool.not_eq_true] at hwait
  split
  next h =>
    simp only [Bool.and_eq_true, decide_eq_true_eq, Bool.not_eq_true'] at h
    obtain ⟨⟨⟨⟨-, hp⟩, hfrozen⟩, hremote⟩, -⟩ := h
    dsimp only
    obtain ⟨n, ts, es, hm, hb1⟩ := arm_before (i := i) (q := none) (k := .receiverDisconnect)
      (t := i.time) (d := i.timeout) (f := fun c => { c with
        disconnectWaiting := true, disconnectToken := i.token, closeCause := i.cause }) hl hi
      (fun _ _ _ => rfl) (fun _ => rfl) rfl
    rw [hb1]
    refine ⟨none, false, hm.trans (.single ?_)⟩
    rw [reserve_work]
    exact .disconnectClosing (w := work ⟨{ b.core with serial := n, timers := ts }, es⟩ none false)
      ⟨rfl, hl⟩ hi hp hfrozen hremote hwait rfl rfl
  · split
    · exact (notify_idle ⟨by simp, fun _ => rfl⟩).reaches hl
    next h =>
      simp only [Bool.or_eq_true, decide_eq_true_eq, not_or, not_not] at h
      exact beginClosing_reaches h.1 ⟨rfl, rfl, rfl⟩ (fun _ => ⟨hi, hwait, rfl⟩) fun h => by cases h

theorem freeze_reaches (hi : i.kind = .frozen) : Reaches i b none (b.freeze i) := by
  unfold freeze
  split
  · exact .refl
  rename_i h
  simp only [Bool.or_eq_true, decide_eq_true_eq, not_or, not_not, Bool.not_eq_true] at h
  obtain ⟨⟨hp, hfrozen⟩, ht⟩ := h
  have hl : b.core.phase.ended = false := by rw [hp]; rfl
  dsimp only
  split
  next hlocal =>
    refine ⟨none, false, .single ?_⟩
    rw [reserve_work]
    exact .frozenLocal ⟨rfl, hl⟩ hi hp hfrozen ht hlocal rfl rfl
  next hlocal =>
    have h1 : Moves i (b.work none false) (((b.update fun c => { c with
        frozen := true, fenceToken := 0 }).update fun c => { c with
          closeRequest := .cleared }).work b.core.closeRequest.message.metadata false) :=
      .single (.frozen ⟨rfl, hl⟩ hi hp hfrozen ht (Bool.not_eq_true _ ▸ hlocal) rfl)
    split
    next p hm =>
      rw [hm] at h1
      exact .after h1 (answerDPR_reaches hl (.self rfl))
    · exact ⟨_, false, h1⟩

theorem unhandled_reaches (hl : b.core.phase.ended = false) :
    Reaches i b i.message.request (b.unhandled i) := by
  unfold unhandled
  split
  next p hm =>
    refine unhandledPacket_reaches hl fun hr => .self ?_
    rw [hm]
    exact if_pos hr
  · exact discard_idle.reaches hl

/-! ## Inputs -/

end Batch

/-- The request an input gives the core the right to answer. -/
def Input.permit (i : Input) : Option Header :=
  if i.kind = .receive ∨ i.kind = .unhandled then i.message.request else none

/-- The continuation of a CER whose handshake has timed out, for a core that is closed. -/
def Core.isLate (c : Core) (i : Input) : Prop :=
  c.phase = .closed ∧ i.kind = .continue ∧ i.token = c.lateCERToken ∧ c.lateCERToken ≠ 0

namespace Batch

theorem handleLive_reaches (hl : b.core.phase.ended = false) (hwf : b.core.state.WF) :
    Reaches i b i.permit (b.handleLive i) := by
  have hpermit : i.kind ≠ .receive → i.kind ≠ .unhandled → i.permit = none := by
    intro h h'
    exact if_neg (by simp [h, h'])
  unfold handleLive
  split
  case h_7 hi =>
    rw [show i.permit = i.message.request from if_pos (.inl hi)]
    exact received_reaches hl hwf hi
  case h_14 hi =>
    rw [show i.permit = i.message.request from if_pos (.inr hi)]
    exact unhandled_reaches hl
  all_goals
    rename_i hi
    rw [hpermit (by simp [hi]) (by simp [hi])]
  · exact start_reaches hi hwf
  · exact beginCER_reaches hi
  · exact stopSupervision_reaches hl
  · exact terminate_reaches hl rfl
  · have h1 : Moves i (b.work none false) ((b.update fun c => { c with
        closeOutcome := .cancelled }).work none false) := .single (.outcome ⟨rfl, hl⟩ rfl)
    exact .after h1 (terminate_reaches hl rfl)
  · split
    · exact .refl
    · exact terminate_reaches hl rfl
  · exact resume_reaches hl hwf hi
  · exact activate_reaches hi
  · exact rejectCandidate_reaches hwf hi
  · exact releaseAdmission_reaches hi
  · exact disconnect_reaches hl hi
  · exact freeze_reaches hi
  · exact expire_reaches hl hi hwf.tokens
  · exact .refl
  · exact .refl

omit [BasePackage] in
theorem refreshAddresses_state (c : Core) (i : Input) : (refreshAddresses c i).state = c.state := by
  unfold refreshAddresses
  split <;> rfl

/-- Whatever an input does, it does by moves; the one exception is a late continuation. -/
theorem handleInto_reaches (hwf : b.core.state.WF)
    (hlate : ¬ (i.connection = b.core.cfg.connection ∧ b.core.isLate i)) :
    Reaches i b i.permit (b.handleInto i) := by
  unfold handleInto
  split
  · exact .refl
  rename_i hconn
  split
  next hi => exact reserved_reaches hi
  split
  next hi => exact writeResult_reaches hi hwf.operations
  split
  next h =>
    simp only [Bool.and_eq_true, decide_eq_true_eq] at h
    exact (hlate ⟨not_not.1 hconn, h.1.1.1, h.1.1.2, h.1.2, h.2⟩).elim
  · split
    · exact .refl
    next hl =>
      rw [Bool.not_eq_true] at hl
      have hs := refreshAddresses_state b.core i
      have hwf' : (b.update fun c => refreshAddresses c i).core.state.WF := hs ▸ hwf
      have hl' : (b.update fun c => refreshAddresses c i).core.phase.ended = false := by
        show (refreshAddresses b.core i).state.phase.ended = false
        rw [hs]
        exact hl
      exact (handleLive_reaches hl' hwf').unseen hs rfl

end Batch

end Diameter.Protocol
