import Diameter.Protocol.Admission

/-!
# Protocol.Latch

The terminal latch. A core that answers a message with the last `Send` of its connection sets
`terminal`, and from then on lets nothing in:

* `Latch.step` — a `Send` with `CloseAfter` finds the latch open and shuts it, so a run has one at
  most.
* `received_latched` — what a latched core does with a message does not depend on the message.
-/

namespace Diameter.Protocol

open Lib BasePackage

variable {c : Core} {i : Input} {es : List Effect}
variable {n : Nat}

/-! ## The last write -/

/-- A write after which the executor closes the transport. -/
def Effect.isLast (e : Effect) : Bool := e.kind = .send && e.closeAfter

/-- The latch accounts for the last write, when `n` were made before. -/
def Latch (n : Nat) (w : Work) : Prop :=
  n + w.effects.countP Effect.isLast ≤ w.state.terminal.toNat

theorem Effect.not_isLast {e : Effect} (h : e.kind ≠ .send) : e.isLast = false := by
  simp [isLast, h]

theorem countP_isLast (h : ∀ x ∈ es, x.kind ≠ .send) : es.countP Effect.isLast = 0 :=
  countP_unrelated fun x hx => Effect.not_isLast (h x hx)

theorem Latch.append {w w' : Work} (hw : Latch n w) (es : List Effect)
    (he : w'.effects = w.effects ++ es) (hes : es.countP Effect.isLast = 0)
    (ht : w.state.terminal = true → w'.state.terminal = true) : Latch n w' := by
  unfold Latch at *
  rw [he, List.countP_append, hes]
  refine Nat.le_trans hw ?_
  cases h : w.state.terminal with
  | false => exact Nat.zero_le _
  | true => rw [ht h]

section

variable [BasePackage]

theorem Latch.step {w w' : Work} (hm : Move i w w') (hw : Latch n w) : Latch n w' := by
  have hone : ∀ {e : Effect} {k : EffectKind}, e.kind = k → k ≠ .send →
      [e].countP Effect.isLast = 0 := fun hk hn => countP_isLast (ne_kind_singleton hk hn)
  have hrel : ∀ {l : List Reservation} {es : List Effect}, Releases l es →
      es.countP Effect.isLast = 0 := fun hr => countP_isLast (hr.ne_kind (by decide))
  have hterm : ∀ {s : State} {f : Phase} {es : List Effect}, TerminalEffects s f es →
      es.countP Effect.isLast = 0 := fun ht => countP_isLast (ht.ne_kind (by decide))
  have hquiet : ∀ {es : List Effect}, (∀ e ∈ es, e.Quiet) → es.countP Effect.isLast = 0 :=
    fun hes => countP_isLast fun x hx => (hes x hx).ne_kind (by decide)
  have hown : ∀ {e : Effect} {t : Nat} {m : Packet}, e.OwnSend t m →
      [e].countP Effect.isLast = 0 := by
    intro e t m he
    simp [Effect.isLast, he.closeAfter]
  cases hm
  case answer e _ _ _ _ _ _ _ _ _ hopen _ hk _ _ _ =>
    show n + (w.effects ++ [e]).countP Effect.isLast ≤ (w.state.terminal || e.closeAfter).toNat
    unfold Latch at hw
    rw [List.countP_append, ← Nat.add_assoc]
    cases hlast : e.closeAfter with
    | false => simpa [Effect.isLast, hlast] using hw
    | true =>
      rw [(hopen hlast).1, Bool.toNat_false, Nat.le_zero] at hw
      rw [hw, Bool.or_true]
      simp [Effect.isLast, hlast, hk]
  case latch => exact hw.append [] (List.append_nil _).symm rfl fun _ => rfl
  case quiet e hq _ => exact hw.append [e] rfl (hquiet (by simpa using hq)) id
  case request he | retransmit he => exact hw.append _ rfl (hown he) id
  case releaseAdmission hn | releaseSupervised hn =>
    exact hw.append _ rfl (hone hn.1 (by decide)) id
  case releaseRecovering hn hk _ =>
    refine hw.append _ rfl (countP_isLast fun x hx => ?_) id
    rcases List.mem_pair.1 hx with rfl | rfl
    · simp [hn.1]
    · simp [hk]
  case settleCER hr | credit hr | dpaSettled hr | finishWrite hr =>
    exact hw.append _ rfl (hrel hr) id
  case skipped hr _ => exact hw.append _ rfl (hrel hr) id
  case skippedProbe hr _ _ _ => exact hw.append _ rfl (hrel hr) id
  case beginClosing e es _ _ _ _ _ _ _ _ hes hk _ =>
    refine hw.append (es ++ [e]) (List.append_assoc _ _ _) ?_ id
    rw [List.countP_append, hquiet hes, hone hk (by decide)]
  case terminate ht => exact hw.append _ rfl (hterm ht) id
  case disconnected es e _ _ ht hn =>
    refine hw.append (es ++ [e]) (List.append_assoc _ _ _) ?_ id
    rw [List.countP_append, hterm ht, hone hn.1 (by decide)]
  all_goals first
    | exact hw.append [] (List.append_nil _).symm rfl id
    | exact hw.append _ rfl (hone (by assumption) (by decide)) id

theorem latch_step {s s' : State} {e : Event} (h : Step s e es s')
    (hn : n ≤ s.terminal.toNat) : n + es.countP Effect.isLast ≤ s'.terminal.toNat := by
  cases h with
  | input hm => exact hm.invariant (P := Latch n) Latch.step hn
  | late _ _ _ _ hlate =>
    rw [countP_isLast fun x hx => ?_]
    · exact hn
    rcases hlate.mem hx with h | h
    · simp [h]
    · simp [h.1]
  | refresh hr =>
    cases hr with
    | ignored | absent | present => exact hn

theorem run_latch (hc : Created c) (events : List Event) :
    (run c events).effects.countP Effect.isLast ≤ (run c events).core.terminal.toNat := by
  refine run_invariant (P := fun r => r.effects.countP Effect.isLast ≤ r.core.terminal.toNat)
    hc (Nat.zero_le _) ?_ events
  intro r e _ hstep ih
  have hnext := latch_step hstep ih
  rw [countP_bare (fun _ => rfl)] at hnext
  rw [Run.effects_next, List.countP_append]
  exact hnext

theorem terminal_step {s s' : State} {e : Event} (h : Step s e es s') (ht : s.terminal = true) :
    s'.terminal = true := by
  have hn := latch_step h (n := 1) (by rw [ht]; decide)
  by_contra hopen
  rw [Bool.not_eq_true] at hopen
  rw [hopen, Bool.toNat_false] at hn
  omega

theorem run_terminal (hc : Created c) (events later : List Event)
    (ht : (run c events).core.terminal = true) :
    (run c (events ++ later)).core.terminal = true := by
  induction later using List.reverseRecOn with
  | nil => rwa [List.append_nil]
  | append_singleton later e ih =>
    rw [← List.append_assoc, run_concat]
    exact terminal_step (apply_step (run_wf hc _) e) ih

end

/-! ## Messages after the latch -/

/-- The effects that pass a message on or act on it. -/
def EffectKind.heeds : EffectKind → Bool
  | .admitMessage | .publish | .validatedCER | .runHook | .send => true
  | _ => false

/-- What a core keeps of the messages it was given: the requests that wait for a hook, for the peer
layer or for the fence, and the answer that came before its request was written. -/
def Core.saved (c : Core) :
    GoMap Nat Continuation × Nat × Nat × Option Packet × Input × Option Input :=
  (c.continuations, c.hookToken, c.candidateToken, c.cer, c.closeRequest, c.earlyDPA)

/-- `b` has heeded no message since `c`. -/
structure Unheeding (c : Core) (b : Batch) : Prop where
  effects : ∀ x ∈ b.effects, x.kind.heeds = false
  saved : b.core.saved = c.saved ∨ b.core.phase.ended = true

namespace Unheeding

variable {b b' : Batch}

theorem mem_append (h : Unheeding c b) (hes : ∀ x ∈ es, x.kind.heeds = false) :
    ∀ x ∈ b.effects ++ es, x.kind.heeds = false := by
  intro x hx
  rcases List.mem_append.1 hx with hx | hx
  · exact h.effects x hx
  · exact hes x hx

theorem emit {e : Effect} (h : Unheeding c b) (he : e.kind.heeds = false) :
    Unheeding c (b.emit e) := by
  refine ⟨h.mem_append fun x hx => ?_, h.saved⟩
  rw [List.mem_singleton.1 hx]
  exact he

theorem update {f : Core → Core} (h : Unheeding c b)
    (hf : ∀ c, (f c).saved = c.saved ∧ (f c).phase = c.phase) : Unheeding c (b.update f) :=
  ⟨h.effects, h.saved.imp (hf b.core).1.trans (by rw [← (hf b.core).2]; exact id)⟩

theorem retimed {ts : Timers} (h : Unheeding c b) (ht : Retimed b b' n ts) :
    Unheeding c b' := by
  obtain ⟨es, he, hquiet⟩ := ht.effects
  refine ⟨?_, by rw [ht.core]; exact h.saved⟩
  rw [he]
  refine h.mem_append fun x hx => ?_
  have hq := hquiet x hx
  unfold Effect.Quiet at hq
  split at hq
  all_goals simp_all [EffectKind.heeds]

theorem watchdogArm {t d : Int} (h : Unheeding c b) : Unheeding c (b.watchdogArm t d) := by
  obtain ⟨n, ts, ht, -⟩ := Batch.watchdogArm_retimed (b := b) (t := t) (d := d)
  exact h.retimed ht

theorem fail {k : ErrorKind} {code : UInt32} (h : Unheeding c b) :
    Unheeding c (b.fail i k code) := by
  obtain ⟨es, he, hterm⟩ := (Batch.terminate_spec (b.update fun c => Batch.failing c k) .closed).2
  refine ⟨?_, .inr ?_⟩
  · show ∀ x ∈ ((b.update fun c => Batch.failing c k).terminate .closed).effects ++ [_], _
    rw [he, List.append_assoc]
    refine h.mem_append fun x hx => ?_
    rcases List.mem_append.1 hx with hx | hx
    · have hne : ∀ bad : EffectKind, bad.heeds = true → x.kind ≠ bad := by
        intro bad hb
        refine hterm.ne_kind ?_ x hx
        revert hb
        cases bad <;> simp [EffectKind.heeds]
      exact Bool.eq_false_iff.2 fun hx => hne _ hx rfl
    · rw [List.mem_singleton.1 hx]
      rfl
  · exact congrArg Phase.ended (Batch.terminate_phase _ .closed)

theorem watchdogExpired (h : Unheeding c b) : Unheeding c (b.watchdogExpired i) := by
  unfold Batch.watchdogExpired
  split
  · exact h
  split
  · exact h.update fun _ => ⟨rfl, rfl⟩
  split
  · exact h.watchdogArm
  dsimp only
  split
  · exact h.fail
  have hstop : Unheeding c (b.stop .watchdog) := h.retimed Batch.stop_retimed
  split
  · have hprobe := hstop.update (f := fun c => { c with
      wdNext := some (b.core.wd.step .expired).1 }) fun _ => ⟨rfl, rfl⟩
    exact .emit (.update hprobe fun _ => ⟨rfl, rfl⟩) rfl
  · have hnext := hstop.update (f := fun c => { c with wd := (b.core.wd.step .expired).1 })
      fun _ => ⟨rfl, rfl⟩
    have hreport : ∀ v : Bool, ∀ n, Unheeding c (if v = true then
        Batch.notify ((b.stop .watchdog).update fun c => { c with
          wd := (b.core.wd.step .expired).1 }) n
        else (b.stop .watchdog).update fun c => { c with
          wd := (b.core.wd.step .expired).1 }) := by
      intro v n
      split
      · exact .emit hnext rfl
      · exact hnext
    split
    · exact (hreport _ _).watchdogArm
    · exact hreport _ _

end Unheeding

namespace Batch

/-- The second half of `received`: the barrier moves on. -/
def passBarrier (b : Batch) (n : Nat) : Batch :=
  let b := b.update fun c => { c with receivedSequence := max c.receivedSequence n }
  match b.core.deferredExpiry with
  | some pending =>
    if pending.afterReceive ≤ b.core.receivedSequence then
      (b.update fun c => { c with deferredExpiry := none }).expire pending
    else b
  | none => b

end Batch

theorem Unheeding.passBarrier {b : Batch} (h : Unheeding c b)
    (hd : ∀ j ∈ b.core.deferredExpiry, j.timer = .watchdog) : Unheeding c (b.passBarrier n) := by
  have hseq : Unheeding c (b.update fun c => { c with
      receivedSequence := max c.receivedSequence n }) := h.update fun _ => ⟨rfl, rfl⟩
  unfold Batch.passBarrier
  dsimp only
  split
  next pending hp =>
    have hw : pending.timer = .watchdog := hd pending hp
    split
    · have hclear := hseq.update (f := fun c => { c with deferredExpiry := none })
        fun _ => ⟨rfl, rfl⟩
      unfold Batch.expire
      rw [hw]
      dsimp only
      split
      · exact hclear
      · exact hclear.watchdogExpired
    · exact hseq
  · exact hseq

variable [BasePackage]

theorem receive_latched (ht : c.terminal = true) :
    Batch.receive { core := c } i = Batch.emit { core := c } { kind := .discard } ∨
      i.message = .absent ∧
        Batch.receive { core := c } i = Batch.fail { core := c } i .malformedMessage 0 := by
  unfold Batch.receive
  dsimp only
  split
  · exact .inl rfl
  split
  next h =>
    simp only [Bool.and_eq_true] at h
    refine .inr ⟨?_, rfl⟩
    cases hm : i.message with
    | absent => rfl
    | _ => simp [hm, Incoming.isNil] at h
  · rw [if_pos (by simp [ht])]
    exact .inl rfl

theorem received_latched (ht : c.terminal = true) (hm : i.message ≠ .absent) :
    Batch.received { core := c } i =
      (Batch.emit { core := c } { kind := .discard }).passBarrier i.sequence := by
  obtain hreceive | ⟨h, -⟩ := receive_latched (i := i) ht
  · unfold Batch.received
    dsimp only
    rw [hreceive, if_neg (by simp [Batch.emit])]
    rfl
  · exact (hm h).elim

theorem received_unheeding (ht : c.terminal = true) (hwf : c.state.WF) :
    Unheeding c (Batch.received { core := c } i) := by
  have hinit : Unheeding c { core := c } := ⟨List.forall_mem_nil _, .inl rfl⟩
  have hreceive : Unheeding c (Batch.receive { core := c } i) ∧
      ∀ j ∈ (Batch.receive { core := c } i).core.deferredExpiry, j.timer = .watchdog := by
    obtain h | ⟨-, h⟩ := receive_latched (i := i) ht
    · rw [h]
      exact ⟨hinit.emit rfl, hwf.deferred⟩
    rw [h]
    refine ⟨hinit.fail, fun j hj => ?_⟩
    have hend := congrArg State.deferred (Batch.terminate_spec
      (Batch.update { core := c } fun c => Batch.failing c .malformedMessage) .closed).1
    cases hend.symm.trans hj
  unfold Batch.received
  dsimp only
  split
  · exact hreceive.1
  · exact hreceive.1.passBarrier hreceive.2

/-- What comes of a message a latched core receives: none of the effects that heed one, then or
later, since the core keeps nothing of it and does not even tell it from another. -/
structure Unheeded (c : Core) (i : Input) : Prop where
  effects : ∀ x ∈ (c.apply (.input i)).2, x.kind.heeds = false
  saved : (c.apply (.input i)).1.saved = c.saved ∨ (c.apply (.input i)).1.phase.ended = true
  blind : i.message ≠ .absent → ∀ m, m ≠ .absent →
    c.apply (.input { i with message := m }) = c.apply (.input i)

theorem unheeded_of_latched (ht : c.terminal = true) (hwf : c.state.WF) (hk : i.kind = .receive) :
    Unheeded c i := by
  by_cases hlive : i.connection = c.cfg.connection ∧ c.phase.ended = false
  · have hstate := Batch.refreshAddresses_state c i
    have hterm : (Batch.refreshAddresses c i).terminal = true :=
      (congrArg State.terminal hstate).trans ht
    have hsaved : (Batch.refreshAddresses c i).saved = c.saved := by
      unfold Batch.refreshAddresses
      split <;> rfl
    have happly := apply_receive hk hlive.1 hlive.2
    have h := received_unheeding (i := i) hterm (hstate ▸ hwf)
    refine ⟨?_, ?_, fun hm m hm' => ?_⟩
    · rw [happly]
      exact h.effects
    · rw [happly]
      exact h.saved.imp_left fun h => h.trans hsaved
    have happly' := apply_receive (i := { i with message := m }) hk hlive.1 hlive.2
    rw [happly, happly', received_latched hterm hm]
    have hrefresh : Batch.refreshAddresses c { i with message := m } =
        Batch.refreshAddresses c i := rfl
    rw [hrefresh, received_latched (i := { i with message := m }) hterm hm']
  · have hnone : ∀ m, c.apply (.input { i with message := m }) = (c, []) := by
      intro m
      have hbatch : Batch.handleInto { core := c } { i with message := m } = { core := c } := by
        unfold Batch.handleInto
        by_cases hconn : i.connection = c.cfg.connection
        · have hended : c.phase.ended = true := by
            rw [← Bool.not_eq_false]
            exact fun h => hlive ⟨hconn, h⟩
          simp [hconn, hk, hended]
        · simp [hconn]
      unfold Core.apply
      dsimp only
      rw [hbatch]
    have hi : c.apply (.input i) = (c, []) := hnone i.message
    refine ⟨?_, .inl ?_, fun _ m _ => (hnone m).trans hi.symm⟩
    · rw [hi]
      exact List.forall_mem_nil _
    · rw [hi]

/-- A run makes one last write at most; and once the core is latched, it heeds no message it
receives. -/
theorem terminal_latch {c : Core} (hc : Created c) (events : List Event) :
    (run c events).effects.countP Effect.isLast ≤ 1 ∧
    ((run c events).core.terminal = true → ∀ later i, i.kind = .receive →
      Unheeded (run c (events ++ later)).core i) := by
  refine ⟨?_, fun ht later i hk => ?_⟩
  · exact Nat.le_trans (run_latch hc events) (Bool.toNat_le _)
  · exact unheeded_of_latched (run_terminal hc events later ht) (run_wf hc _) hk

/-- A CER with a reserved header bit set. -/
def sampleRejected : Input :=
  { sampleInput .receive 0 with
    message := .packet ⟨{ header := ⟨1, 20, 129, 257, 0, 1, 1⟩ }, sampleDictionary⟩
    error := some { resultCode := invalidHDRBits, text := "reserved command flags" } }

omit [BasePackage] in
/-- The sample responder answers it with its last write. -/
theorem terminal_latch_rejected :
    (@run samplePackage (sampleCore false) [.input sampleRejected]).core.terminal = true ∧
    (@run samplePackage (sampleCore false) [.input sampleRejected]).effects.countP
      Effect.isLast ≤ 1 ∧
    @Unheeded samplePackage (@run samplePackage (sampleCore false)
      ([.input sampleRejected] ++ [])).core sampleRejected := by
  have hshut : (@run samplePackage (sampleCore false) [.input sampleRejected]).core.terminal =
      true := by decide +kernel
  have h := @terminal_latch samplePackage _ (sampleCore_created false) [.input sampleRejected]
  exact ⟨hshut, h.1, h.2 hshut [] sampleRejected rfl⟩

end Diameter.Protocol
