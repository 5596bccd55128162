import Diameter.Protocol.Leases

/-!
# Protocol.Completion

The two reports an application waits for: that the handshake is over, and that its `Disconnect`
is. Both follow from an account of the run: the reports made so far and the one that is still due
add up to what the core owes.

* `Handshaking`: an initiator owes one report, a responder one for its `Publish`.
* `Disconnecting`: every accepted `Disconnect` is owed one, and there is at most one.
-/

namespace Diameter.Protocol

open Lib BasePackage

variable {c : Core} {es : List Effect} {s s' : State} {w w' : Work}
variable {e : Effect} {l : List Reservation} {phase : Phase}

/-! ## Handshake -/

def Effect.isHandshakeNotice (e : Effect) : Bool :=
  e.kind = .notify && e.notification.kind = .handshake

def Effect.isPublish (e : Effect) : Bool := e.kind = .publish

/-- The handshake account of a core that has made `h` reports and `p` publications. -/
@[grind cases] structure Handshaking (h p : Nat) (s : State) : Prop where
  initiator : s.role = .initiator → h + s.handshakePending.toNat = 1
  responder : s.role = .responder → h + s.handshakePending.toNat = p ∧ p ≤ 1
  fresh : s.role = .responder → s.phase = .preCER ∨ s.passive = true → p = 0
  waiting : s.role = .initiator → s.phase = .preCER ∨ s.phase = .waitCEA →
    s.handshakePending = true
  opened : s.phase = .opened → s.ready = false → s.handshakePending = true
  waitCEA : s.phase = .waitCEA → s.role = .initiator
  passive : s.passive = true → s.role = .responder
  candidate : s.candidate ≠ 0 → s.role = .responder ∧ s.passive = false
  ended : s.phase.ended = true → s.handshakePending = false

/-- The fields the account looks at. -/
def State.handshake (s : State) : Role × Phase × Bool × Bool × Bool × Nat :=
  (s.role, s.phase, s.ready, s.passive, s.handshakePending, s.candidate)

/-- The account after the effects of an input, on top of earlier ones. -/
def Handshaking.At (h p : Nat) (w : Work) : Prop :=
  Handshaking (h + w.effects.countP Effect.isHandshakeNotice)
    (p + w.effects.countP Effect.isPublish) w.state

/-- An effect that is no part of the account. -/
def Effect.Unrelated (e : Effect) : Prop := e.isHandshakeNotice = false ∧ e.isPublish = false

theorem Effect.unrelated_of_kind {k : EffectKind} (hk : e.kind = k)
    (hn : k ≠ .notify) (hp : k ≠ .publish) : ∀ x ∈ [e], x.Unrelated := by
  intro x hx
  rw [List.mem_singleton.1 hx]
  simp [Effect.Unrelated, Effect.isHandshakeNotice, Effect.isPublish, hk, hn, hp]

theorem Releases.unrelated (hr : Releases l es) : ∀ x ∈ es, x.Unrelated := by
  intro x hx
  simp [Effect.Unrelated, Effect.isHandshakeNotice, Effect.isPublish, hr.1 x hx]

theorem Effect.Quiet.unrelated (hq : e.Quiet) : e.Unrelated := by
  unfold Effect.Quiet at hq
  unfold Effect.Unrelated Effect.isHandshakeNotice Effect.isPublish
  split at hq
  all_goals simp_all

theorem countP_unrelated {f : Effect → Bool} (h : ∀ e ∈ es, f e = false) : es.countP f = 0 :=
  List.countP_eq_zero.2 fun e he => by simp [h e he]

theorem countP_bare {f : Effect → Bool} (hf : ∀ e, f e.bare = f e) (es : List Effect) :
    (es.map Effect.bare).countP f = es.countP f := by
  rw [List.countP_map]
  exact List.countP_congr fun e _ => by simp [hf]

namespace Handshaking

variable {h p : Nat}

theorem congr (hs : Handshaking h p s) (heq : s'.handshake = s.handshake) : Handshaking h p s' := by
  simp only [State.handshake, Prod.mk.injEq] at heq
  obtain ⟨h1, h2, h3, h4, h5, h6⟩ := heq
  obtain ⟨a1, a2, a3, a4, a5, a6, a7, a8, a9⟩ := hs
  constructor
  all_goals simpa only [h1, h2, h3, h4, h5, h6]

theorem At.emit (hw : At h p w) (es : List Effect)
    (he : w'.effects = w.effects ++ es) (hes : ∀ e ∈ es, e.Unrelated)
    (hs : Handshaking (h + w.effects.countP Effect.isHandshakeNotice)
      (p + w.effects.countP Effect.isPublish) w.state →
      Handshaking (h + w.effects.countP Effect.isHandshakeNotice)
        (p + w.effects.countP Effect.isPublish) w'.state) : At h p w' := by
  unfold At
  rw [he, List.countP_append, List.countP_append, countP_unrelated fun e h => (hes e h).1,
    countP_unrelated fun e h => (hes e h).2]
  exact hs hw

theorem At.inert (hw : At h p w) (es : List Effect) (he : w'.effects = w.effects ++ es)
    (hes : ∀ e ∈ es, e.Unrelated) (heq : w'.state.handshake = w.state.handshake) : At h p w' :=
  hw.emit es he hes fun hs => hs.congr heq

theorem At.silent (hw : At h p w)
    (hs : Handshaking (h + w.effects.countP Effect.isHandshakeNotice)
      (p + w.effects.countP Effect.isPublish) w.state →
      Handshaking (h + w.effects.countP Effect.isHandshakeNotice)
        (p + w.effects.countP Effect.isPublish) s) : At h p { w with state := s } := hs hw

section Cases

variable (hs : Handshaking h p s)
include hs

theorem start {v : Bool} (hr : s.role = .initiator) (hp : s.phase = .preCER)
    (hv : s.handshakePending = true → v = true) :
    Handshaking h p { s with phase := .waitCEA, handshakePending := v } := by
  obtain rfl := hv (hs.waiting hr (.inl hp))
  constructor <;> grind [Phase.ended]

theorem impassive {v : Bool} (hv : v = true → s.passive = true) :
    Handshaking h p { s with passive := v } := by
  constructor <;> grind

theorem propose {t : Nat} (hr : s.role = .responder) (hp : s.passive = false) :
    Handshaking h p { s with candidate := t } := by
  constructor <;> grind

theorem decide : Handshaking h p { s with candidate := 0 } := by
  constructor <;> grind

theorem activate (hp : s.phase = .preCER) (hc : s.candidate ≠ 0) : Handshaking h (p + 1)
    { s with candidate := 0, phase := .opened, handshakePending := true } := by
  obtain ⟨hr, hpass⟩ := hs.candidate hc
  have hp0 := hs.fresh hr (.inl hp)
  constructor <;> grind [Phase.ended]

theorem admitted (ha : s.phase = .waitCEA ∨ s.phase = .preCER ∧ s.role = .initiator) :
    Handshaking h (p + 1) { s with phase := .opened, handshakePending := true } := by
  have hr : s.role = .initiator := ha.elim hs.waitCEA And.right
  have hpend := hs.waiting hr (ha.elim .inr fun h => .inl h.1)
  constructor <;> grind [Phase.ended]

theorem release (ho : s.phase = .opened) (hr : s.ready = false) :
    Handshaking (h + 1) p { s with ready := true, handshakePending := false } := by
  have hpend := hs.opened ho hr
  constructor <;> grind

theorem closing : Handshaking h p { s with phase := .closing, ready := false } := by
  constructor <;> grind [Phase.ended]

theorem finish {f : Phase} (hf : f.ended = true) :
    Handshaking (h + s.handshakePending.toNat) p { s with
      phase := f, ready := false, candidate := 0, handshakePending := false } := by
  have hne : f ≠ .preCER ∧ f ≠ .waitCEA ∧ f ≠ .opened := by
    cases f <;> simp_all [Phase.ended]
  constructor <;> grind

theorem refresh (hr : Refresh s s') : Handshaking h p s' := by
  have hlive : s.live → s.phase.ended = false := id
  obtain ⟨a1, a2, a3, a4, a5, a6, a7, a8, a9⟩ := hs
  cases hr with
  | ignored => exact ⟨a1, a2, a3, a4, a5, a6, a7, a8, a9⟩
  | absent hp hl =>
    have hrole := a7 hp
    have hl := hlive hl
    constructor
    all_goals grind [Phase.ended]
  | present hp hl =>
    have hrole := a7 hp
    have hl := hlive hl
    constructor
    all_goals grind [Phase.ended]

end Cases

theorem At.count (he : w'.effects = w.effects ++ es)
    (hs : Handshaking
      (h + w.effects.countP Effect.isHandshakeNotice + es.countP Effect.isHandshakeNotice)
      (p + w.effects.countP Effect.isPublish + es.countP Effect.isPublish) w'.state) :
    At h p w' := by
  unfold At
  rw [he, List.countP_append, List.countP_append, ← Nat.add_assoc, ← Nat.add_assoc]
  exact hs

end Handshaking

theorem TerminalEffects.handshake_count (ht : TerminalEffects s phase es) :
    es.countP Effect.isHandshakeNotice =
      s.handshakePending.toNat ∧ es.countP Effect.isPublish = 0 := by
  obtain ⟨stops, rels, cancels, closes, hs, ds, rfl, h1, h2, h3, h4, h5, hlen, h7, -⟩ := ht.split
  have hkind : ∀ {l : List Effect} {k : EffectKind}, (∀ e ∈ l, e.kind = k) → k ≠ .notify →
      k ≠ .publish → l.countP Effect.isHandshakeNotice = 0 ∧ l.countP Effect.isPublish = 0 := by
    intro l k hl hn hp
    constructor
    all_goals
      refine List.countP_eq_zero.2 fun e he => ?_
      simp [Effect.isHandshakeNotice, Effect.isPublish, hl e he, hn, hp]
  have hcloses := kind_of_closes h4
  have hnotice : hs.countP Effect.isHandshakeNotice = s.handshakePending.toNat ∧
      hs.countP Effect.isPublish = 0 := by
    constructor
    · have hall : hs.countP Effect.isHandshakeNotice = hs.length :=
        List.countP_eq_length.2 fun e he => by
          simp [Effect.isHandshakeNotice, (h5 e he).1, (h5 e he).2]
      rw [hall, hlen]
      cases s.handshakePending <;> rfl
    · refine List.countP_eq_zero.2 fun e he => ?_
      simp [Effect.isPublish, (h5 e he).1]
  have hdisconnect : ds.countP Effect.isHandshakeNotice = 0 ∧ ds.countP Effect.isPublish = 0 := by
    constructor
    all_goals
      refine List.countP_eq_zero.2 fun e he => ?_
      simp [Effect.isHandshakeNotice, Effect.isPublish, (h7 e he).1, (h7 e he).2.1]
  simp [hkind h1, hkind h2.1, hkind h3, hkind hcloses, hnotice, hdisconnect]

section Runs

variable [BasePackage] {i : Input}

theorem Handshaking.At.step {h p : Nat} (hm : Move i w w') (hw : At h p w) : At h p w' := by
  cases hm
  case quiet hq _ =>
    refine hw.inert _ rfl (fun x hx => ?_) rfl
    rw [List.mem_singleton.1 hx]
    exact hq.unrelated
  case settleCER hr | credit hr | dpaSettled hr | finishWrite hr =>
    exact hw.inert _ rfl hr.unrelated rfl
  case skipped hr _ => exact hw.inert _ rfl hr.unrelated rfl
  case skippedProbe hr _ _ _ => exact hw.inert _ rfl hr.unrelated rfl
  case startInitiator hrole hphase _ hp =>
    exact hw.silent fun hs => (hs.start hrole hphase hp).congr rfl
  case runHook hk _ =>
    refine hw.emit _ rfl (Effect.unrelated_of_kind hk (by decide) (by decide)) fun hs => ?_
    refine Handshaking.congr (hs.impassive (v := if w.state.phase = .preCER then false
      else w.state.passive) ?_) rfl
    split
    · exact fun h => by cases h
    · exact id
  case impassive => exact hw.silent fun hs => hs.impassive (v := false) fun h => by cases h
  case candidate hrole _ hpass _ _ hk _ =>
    exact hw.emit _ rfl (Effect.unrelated_of_kind hk (by decide) (by decide))
      fun hs => (hs.propose hrole hpass).congr rfl
  case rejectCandidate => exact hw.silent fun hs => hs.decide.congr rfl
  case activate hphase hc _ hk =>
    refine At.count rfl ?_
    simp only [List.countP_singleton, Effect.isHandshakeNotice, Effect.isPublish, hk]
    exact (Handshaking.activate hw hphase hc).congr rfl
  case admitted ha hk =>
    refine At.count rfl ?_
    simp only [List.countP_singleton, Effect.isHandshakeNotice, Effect.isPublish, hk]
    exact (Handshaking.admitted hw ha).congr rfl
  case releaseAdmission hphase hready _ hk =>
    refine At.count rfl ?_
    simp only [List.countP_singleton, Effect.isHandshakeNotice, Effect.isPublish, hk.1, hk.2]
    exact (Handshaking.release hw hphase hready).congr rfl
  case releaseSupervised hphase hready _ _ _ hk =>
    refine At.count rfl ?_
    simp only [List.countP_singleton, Effect.isHandshakeNotice, Effect.isPublish, hk.1, hk.2]
    exact (Handshaking.release hw hphase hready).congr rfl
  case releaseRecovering e e' _ _ hphase hready _ _ hk hk' _ =>
    refine At.count rfl ?_
    simp only [List.countP_cons, List.countP_nil, Effect.isHandshakeNotice, Effect.isPublish, hk.1,
      hk.2, hk']
    exact (Handshaking.release hw hphase hready).congr rfl
  case beginClosing e es n l _ _ hphase _ _ _ hes hk _ =>
    refine hw.emit (es ++ [e]) (List.append_assoc _ _ _) (fun x hx => ?_)
      fun hs => hs.closing.congr rfl
    rcases List.mem_append.1 hx with hx | hx
    · exact (hes x hx).unrelated
    · exact Effect.unrelated_of_kind hk (by decide) (by decide) x hx
  case terminate hp ht =>
    refine At.count rfl ?_
    rw [ht.handshake_count.1, ht.handshake_count.2]
    exact (Handshaking.finish hw hp).congr rfl
  case disconnected ht hk =>
    refine At.count (List.append_assoc _ _ _) ?_
    simp only [List.countP_append, List.countP_singleton, ht.handshake_count, hk.1, hk.2.1,
      Effect.isHandshakeNotice, Effect.isPublish]
    exact (Handshaking.finish (f := .closed) hw rfl).congr rfl
  all_goals first
    | exact hw.inert [] (List.append_nil _).symm (List.forall_mem_nil _)
        rfl
    | exact hw.inert _ rfl (Effect.unrelated_of_kind (Effect.OwnSend.kind (by assumption))
        (by decide) (by decide)) rfl
    | exact hw.inert _ rfl (Effect.unrelated_of_kind (by assumption) (by decide) (by decide))
        rfl

theorem Handshaking.step {h p : Nat} {e : Event} (hstep : Step s e es s') (hs : Handshaking h p s) :
    Handshaking (h + es.countP Effect.isHandshakeNotice) (p + es.countP Effect.isPublish) s' := by
  cases hstep with
  | input hm => exact hm.invariant (P := At h p) At.step hs
  | @late i _ hp _ _ _ hlate =>
    have hes : ∀ x ∈ es, x.Unrelated := by
      intro x hx
      rcases hlate.mem hx with h | h
      · simp [Effect.Unrelated, Effect.isHandshakeNotice, Effect.isPublish, h]
      · simp [Effect.Unrelated, Effect.isHandshakeNotice, Effect.isPublish, h]
    rw [countP_unrelated fun x hx => (hes x hx).1, countP_unrelated fun x hx => (hes x hx).2]
    exact hs.congr rfl
  | refresh hr => exact hs.refresh hr

theorem Step.role {e : Event} (h : Step s e es s') : s'.role = s.role := by
  cases h with
  | input hm =>
    refine hm.invariant (P := fun w => w.state.role = s.role) ?_ rfl
    intro w w' hm hw
    cases hm
    all_goals exact hw
  | late => rfl
  | refresh h => cases h <;> rfl

theorem Created.handshaking (hc : Created c) : Handshaking 0 0 c.state := by
  have hinit : ∀ cfg, Handshaking 0 0 (Core.init cfg).state := by
    intro cfg
    cases hr : cfg.role
    all_goals
      constructor
      all_goals simp [Core.init, Core.state, Phase.ended, hr]
  rcases hc.cases_init with ⟨cfg, rfl⟩ | ⟨cfg, peer, hr, rfl⟩
  · exact hinit cfg
  refine Handshaking.refresh ?_ (refreshAdmission_refresh _ _)
  obtain ⟨a1, a2, a3, a4, a5, a6, a7, a8, a9⟩ := hinit cfg
  exact ⟨a1, a2, fun _ _ => rfl, a4, a5, a6, fun _ => hr, fun h => (h rfl).elim, a9⟩

theorem handshaking_run (hc : Created c) (events : List Event) :
    Handshaking ((run c events).effects.countP Effect.isHandshakeNotice)
        ((run c events).effects.countP Effect.isPublish) (run c events).core.state ∧
      (run c events).core.state.role = c.cfg.role := by
  refine run_invariant (P := fun r => Handshaking (r.effects.countP Effect.isHandshakeNotice)
    (r.effects.countP Effect.isPublish) r.core.state ∧ r.core.state.role = c.cfg.role)
    hc ⟨hc.handshaking, rfl⟩ ?_ events
  intro r e _ hstep ⟨ih, hrole⟩
  refine ⟨?_, hstep.role.trans hrole⟩
  have hnext := ih.step hstep
  rw [countP_bare (fun _ => rfl), countP_bare (fun _ => rfl)] at hnext
  rw [Run.effects_next, List.countP_append, List.countP_append]
  exact hnext

/-- A core reports the end of its handshake at most once, and when it has ended exactly once if it
is an initiator or has published its peer, and never otherwise. -/
theorem handshake_completion {c : Core} (hc : Created c) (events : List Event) :
    (run c events).effects.countP Effect.isHandshakeNotice ≤ 1 ∧
    ((run c events).core.phase.ended = true →
      (run c events).effects.countP Effect.isHandshakeNotice =
        if c.cfg.role = .initiator ∨ ∃ e ∈ (run c events).effects, e.isPublish = true
        then 1 else 0) := by
  obtain ⟨hs, hrole⟩ := handshaking_run hc events
  cases hr : c.cfg.role with
  | initiator =>
    have hone := hs.initiator (hrole.trans hr)
    refine ⟨by omega, fun hended => ?_⟩
    have hpend : (run c events).core.state.handshakePending = false := hs.ended hended
    rw [hpend] at hone
    rw [if_pos (.inl rfl)]
    exact hone
  | responder =>
    obtain ⟨hsum, hle⟩ := hs.responder (hrole.trans hr)
    refine ⟨by omega, fun hended => ?_⟩
    have hpend : (run c events).core.state.handshakePending = false := hs.ended hended
    rw [hpend, Bool.toNat_false, Nat.add_zero] at hsum
    rw [hsum]
    split
    next h =>
      obtain ⟨e, he, hp⟩ := h.resolve_left (by decide)
      have hpos := List.countP_pos_iff.2 ⟨e, he, hp⟩
      omega
    next h => refine List.countP_eq_zero.2 fun e he hp => h (.inr ⟨e, he, hp⟩)

end Runs

/-- A responder that ends before it has a peer. -/
theorem handshake_completion_aborted :
    (@run samplePackage (sampleCore false)
      [.input (sampleInput .abort 0)]).effects.countP Effect.isHandshakeNotice = 0 := by
  have h := (@handshake_completion samplePackage _ (sampleCore_created false)
    [.input (sampleInput .abort 0)]).2 (by decide +kernel)
  rwa [if_neg (by decide +kernel)] at h

/-! ## Disconnect -/

/-- The report that an accepted `Disconnect` is over, and not the refusal of one. -/
def Effect.isCompletion (e : Effect) : Bool :=
  e.kind = .notify && e.notification.kind = .disconnect && !e.notification.outcome.refusal

/-- The tokens of the `Disconnect` inputs reported as over. -/
def completions (es : List Effect) : List Nat := (es.filter Effect.isCompletion).map Effect.token

/-- The token of the `Disconnect` whose end is still to be reported. -/
def State.owed (s : State) : List Nat := if s.waiting then [s.disconnectToken] else []

/-- The account of a core that accepted `a` and has reported `d` as over. -/
structure Disconnecting (a d : List Nat) (s : State) : Prop where
  account : d ++ s.owed = a
  ended : s.phase.ended = true → s.waiting = false
  done : d ≠ [] → s.phase.ended = true
  outcome : s.closeOutcome.refusal = false
  early : s.live → s.earlyDPA = true → s.waiting = true
  closing : s.live → s.closeLocal = true → s.waiting = true
  exchanging : s.live → s.leases.Exchanging .disconnectPeer → s.waiting = true

theorem completions_append (es es' : List Effect) :
    completions (es ++ es') = completions es ++ completions es' := by
  simp [completions]

theorem completions_eq_nil (h : ∀ e ∈ es, e.isCompletion = false) : completions es = [] := by
  rw [completions, List.filter_eq_nil_iff.2 fun e he => by simp [h e he]]
  rfl

theorem isCompletion_of_kind {k : EffectKind} (hk : e.kind = k) (hn : k ≠ .notify) :
    ∀ x ∈ [e], x.isCompletion = false := by
  intro x hx
  rw [List.mem_singleton.1 hx]
  simp [Effect.isCompletion, hk, hn]

theorem Releases.not_completion (hr : Releases l es) :
    ∀ x ∈ es, x.isCompletion = false := by
  intro x hx
  simp [Effect.isCompletion, hr.1 x hx]

theorem Effect.Quiet.not_completion (hq : e.Quiet) : e.isCompletion = false := by
  unfold Effect.Quiet at hq
  unfold Effect.isCompletion
  split at hq
  all_goals simp_all

theorem TerminalEffects.completions (ht : TerminalEffects s phase es)
    (ho : s.closeOutcome.refusal = false) : completions es = s.owed := by
  obtain ⟨stops, rels, cancels, closes, hs, ds, rfl, h1, h2, h3, h4, h5, -, h7, hlen⟩ := ht.split
  have hkind : ∀ {l : List Effect} {k : EffectKind}, (∀ e ∈ l, e.kind = k) → k ≠ .notify →
      Protocol.completions l = [] := by
    intro l k hl hn
    exact completions_eq_nil fun e he => by simp [Effect.isCompletion, hl e he, hn]
  have hcloses := kind_of_closes h4
  have hhandshake : Protocol.completions hs = [] :=
    completions_eq_nil fun e he => by simp [Effect.isCompletion, (h5 e he).1, (h5 e he).2]
  have hdisconnect : Protocol.completions ds = s.owed := by
    unfold Protocol.completions State.owed
    rw [List.filter_eq_self.2 fun e he => by
      obtain ⟨hk, hd, hout, -⟩ := h7 e he
      simp [Effect.isCompletion, hk, hd, hout, ho]]
    split at hlen
    next hw =>
      obtain ⟨e, rfl⟩ := List.length_eq_one_iff.1 hlen
      rw [List.map_singleton, (h7 e (List.mem_singleton_self e)).2.2.2, if_pos hw]
    next hw =>
      rw [List.length_eq_zero_iff.1 hlen, if_neg hw]
      rfl
  simp only [completions_append, hkind h1 (by decide), hkind h2.1 (by decide),
    hkind h3 (by decide), hkind hcloses (by decide), hhandshake, hdisconnect, List.nil_append]

/-- The fields the account looks at, exchanges apart. -/
def State.disconnect (s : State) : Bool × Bool × Nat × Outcome × Bool × Bool :=
  (s.phase.ended, s.waiting, s.disconnectToken, s.closeOutcome, s.earlyDPA, s.closeLocal)

namespace Disconnecting

variable {a d : List Nat}

theorem congr (hs : Disconnecting a d s) (heq : s'.disconnect = s.disconnect)
    (h7 : s'.leases.Exchanging .disconnectPeer → s.leases.Exchanging .disconnectPeer) :
    Disconnecting a d s' := by
  simp only [State.disconnect, Prod.mk.injEq] at heq
  obtain ⟨h1, h2, h3, h4, h5, h6⟩ := heq
  have howed : s'.owed = s.owed := by rw [State.owed, State.owed, h2, h3]
  have hlive : s'.live → s.live := fun h => h1.symm.trans h
  constructor
  · rw [howed]
    exact hs.account
  · rw [h1, h2]
    exact hs.ended
  · rw [h1]
    exact hs.done
  · rw [h4]
    exact hs.outcome
  · intro hl
    rw [h5, h2]
    exact hs.early (hlive hl)
  · intro hl
    rw [h6, h2]
    exact hs.closing (hlive hl)
  · intro hl he
    rw [h2]
    exact hs.exchanging (hlive hl) (h7 he)

theorem accept {t : Nat} (hs : Disconnecting a d s) (hl : s.live) (hw : s.waiting = false)
    (h1 : s'.phase.ended = false) (h2 : s'.waiting = true) (h3 : s'.disconnectToken = t)
    (h4 : s'.closeOutcome = s.closeOutcome) : a = [] ∧ Disconnecting [t] d s' := by
  have hd : d = [] := by
    by_contra hne
    have hended := hs.done hne
    rw [show s.phase.ended = false from hl] at hended
    cases hended
  have ha := hs.account
  rw [hd, State.owed, hw] at ha
  refine ⟨ha.symm, ?_, ?_, ?_, ?_, fun _ _ => h2, fun _ _ => h2, fun _ _ => h2⟩
  · rw [hd, State.owed, if_pos h2, h3]
    rfl
  · intro h
    rw [h1] at h
    cases h
  · exact fun h => (h hd).elim
  · rw [h4]
    exact hs.outcome

theorem finish (hs : Disconnecting a d s) (hp : phase.ended = true) :
    Disconnecting a (d ++ s.owed) (s.ended phase) := by
  have hl : ¬ (s.ended phase).live := by
    intro h
    rw [show phase.ended = false from h] at hp
    cases hp
  refine ⟨?_, fun _ => rfl, fun _ => hp, hs.outcome, fun h => (hl h).elim, fun h => (hl h).elim,
    fun h => (hl h).elim⟩
  rw [show (s.ended phase).owed = [] from rfl, List.append_nil]
  exact hs.account

/-- The account while the input `i` is handled, which may be a `Disconnect` it accepts. -/
def At (i : Input) (a d : List Nat) (w : Work) : Prop :=
  w.state.leases.Indexed ∧ ∃ a', (a' = a ∨ i.kind = .disconnect ∧ a = [] ∧ a' = [i.token]) ∧
    Disconnecting a' (d ++ completions w.effects) w.state

variable {i : Input}

theorem At.emit (hw : At i a d w) (hx : w'.state.leases.Indexed) (es : List Effect)
    (he : w'.effects = w.effects ++ es) (hes : ∀ e ∈ es, e.isCompletion = false)
    (hs : ∀ {a'}, Disconnecting a' (d ++ completions w.effects) w.state →
      Disconnecting a' (d ++ completions w.effects) w'.state) : At i a d w' := by
  obtain ⟨-, a', ha, hw⟩ := hw
  refine ⟨hx, a', ha, ?_⟩
  rw [he, completions_append, completions_eq_nil hes, List.append_nil]
  exact hs hw

theorem At.accept (hw : At i a d w) (hx : w'.state.leases.Indexed) (hk : i.kind = .disconnect)
    (hl : w.state.live) (hwait : w.state.waiting = false) (es : List Effect)
    (he : w'.effects = w.effects ++ es) (hes : ∀ e ∈ es, e.isCompletion = false)
    (h1 : w'.state.phase.ended = false) (h2 : w'.state.waiting = true)
    (h3 : w'.state.disconnectToken = i.token) (h4 : w'.state.closeOutcome = w.state.closeOutcome) :
    At i a d w' := by
  obtain ⟨-, a', ha, hw⟩ := hw
  obtain ⟨ha', hs⟩ := hw.accept hl hwait h1 h2 h3 h4
  refine ⟨hx, [i.token], ?_, ?_⟩
  · rcases ha with rfl | ⟨-, -, ha⟩
    · exact .inr ⟨hk, ha', rfl⟩
    · rw [ha'] at ha
      cases ha
  · rw [he, completions_append, completions_eq_nil hes, List.append_nil]
    exact hs

theorem At.inert (hw : At i a d w) (hx : w'.state.leases.Indexed) (es : List Effect)
    (he : w'.effects = w.effects ++ es) (hes : ∀ e ∈ es, e.isCompletion = false)
    (h7 : w'.state.leases.Exchanging .disconnectPeer → w.state.leases.Exchanging .disconnectPeer)
    (heq : w'.state.disconnect = w.state.disconnect) : At i a d w' :=
  hw.emit hx es he hes fun hs => hs.congr heq h7

theorem At.finish {f : Phase} (hw : At i a d w) (hx : w'.state.leases.Indexed)
    (hf : f.ended = true) (es : List Effect) (hs : w'.state = w.state.ended f)
    (he : w'.effects = w.effects ++ es)
    (hes : ∀ {a'}, Disconnecting a' (d ++ completions w.effects) w.state →
      completions es = w.state.owed) : At i a d w' := by
  obtain ⟨-, a', ha, hw⟩ := hw
  refine ⟨hx, a', ha, ?_⟩
  rw [he, completions_append, hes hw, hs, ← List.append_assoc]
  exact hw.finish hf

theorem At.step [BasePackage] (hm : Move i w w') (hw : At i a d w) : At i a d w' := by
  have hx := hm.indexed hw.1
  have hnone : ∀ e ∈ ([] : List Effect), e.isCompletion = false :=
    List.forall_mem_nil _
  cases hm
  case quiet hq _ =>
    refine hw.inert hx _ rfl (fun x hx => ?_) id rfl
    rw [List.mem_singleton.1 hx]
    exact hq.not_completion
  case outcome ho =>
    refine hw.emit hx [] (List.append_nil _).symm hnone fun hs => ?_
    exact ⟨hs.account, hs.ended, hs.done, ho, hs.early, hs.closing, hs.exchanging⟩
  case startInitiator hrun _ _ _ _ =>
    exact hw.inert hx [] (List.append_nil _).symm hnone id (Prod.ext hrun.2.symm rfl)
  case activate hrun _ _ _ _ _ hk =>
    exact hw.inert hx _ rfl (isCompletion_of_kind hk (by decide)) id (Prod.ext hrun.2.symm rfl)
  case admitted hrun _ hk =>
    exact hw.inert hx _ rfl (isCompletion_of_kind hk (by decide)) id (Prod.ext hrun.2.symm rfl)
  case reserveCER hk _ | probe hk _ =>
    refine hw.inert hx _ rfl (isCompletion_of_kind hk (by decide)) (fun h => ?_) rfl
    exact h.of_reserve.resolve_left (by decide)
  case releaseAdmission hn | releaseSupervised hn =>
    refine hw.inert hx _ rfl (fun x hx => ?_) id rfl
    rw [List.mem_singleton.1 hx]
    simp [Effect.isCompletion, hn.1, hn.2]
  case releaseRecovering hn hk _ =>
    refine hw.inert hx _ rfl (fun x hx => ?_) (fun h => ?_) rfl
    · rcases List.mem_pair.1 hx with rfl | rfl
      · simp [Effect.isCompletion, hn.1, hn.2]
      · simp [Effect.isCompletion, hk]
    · exact h.of_reserve.resolve_left (by decide)
  case settleCER hr | credit hr => exact hw.inert hx _ rfl hr.not_completion (·.of_settle) rfl
  case consume =>
    exact hw.inert hx [] (List.append_nil _).symm hnone
      (·.of_modify ⟨fun _ => rfl, fun _ => id⟩) rfl
  case beginClosing e es n isLocal _ hrun hphase _ hlocal _ hes hk _ =>
    have hall : ∀ x ∈ es ++ [e], x.isCompletion = false := by
      intro x hx
      rcases List.mem_append.1 hx with hx | hx
      · exact (hes x hx).not_completion
      · exact isCompletion_of_kind hk (by decide) x hx
    cases isLocal with
    | true =>
      obtain ⟨hkind, hwait⟩ := hlocal rfl
      exact hw.accept hx hkind hrun.2 hwait (es ++ [e]) (List.append_assoc _ _ _) hall rfl rfl rfl
        rfl
    | false =>
      refine hw.emit hx (es ++ [e]) (List.append_assoc _ _ _) hall fun hs => ?_
      refine ⟨hs.account, (fun h => by cases h), fun h => ?_, hs.outcome,
        fun _ => hs.early hrun.2, fun _ h => (Bool.false_ne_true h).elim,
        fun _ => hs.exchanging hrun.2⟩
      have hended := hs.done h
      rw [hphase] at hended
      cases hended
  case frozenLocal hrun _ _ _ _ hlocal hk _ =>
    refine hw.emit hx _ rfl (isCompletion_of_kind hk (by decide)) fun hs => ?_
    exact ⟨hs.account, hs.ended, hs.done, hs.outcome, hs.early, hs.closing,
      fun _ _ => hs.closing hrun.2 hlocal⟩
  case disconnectClosing hrun hkind _ _ _ hwait hk _ =>
    exact hw.accept hx hkind hrun.2 hwait _ rfl (isCompletion_of_kind hk (by decide)) hrun.2 rfl rfl
      rfl
  case dpaSettled r k es hrun hctl hheap hlog hr =>
    refine hw.emit hx _ rfl hr.not_completion fun hs => ?_
    have hwait : w.state.waiting = true := by
      refine hs.exchanging hrun.2 (.inr ⟨k, List.mem_of_getElem? hheap, ?_, hlog⟩)
      obtain ⟨k', hk', hcmd⟩ := hw.1 _ _ hctl
      rw [hheap] at hk'
      rw [Option.some.inj hk', hcmd]
    exact ⟨hs.account, hs.ended, hs.done, hs.outcome, fun _ _ => hwait, hs.closing,
      fun _ _ => hwait⟩
  case terminate hp ht => exact hw.finish hx hp _ rfl rfl fun hs => ht.completions hs.outcome
  case disconnected es e hrun hearly ht hk =>
    refine hw.finish (f := .closed) hx rfl (es ++ [e]) rfl (List.append_assoc _ _ _) fun hs => ?_
    have hwait := hs.early hrun.2 hearly
    rw [completions_append, ht.completions hs.outcome, State.owed, State.owed, if_pos hwait]
    simp [completions, Effect.isCompletion, hk.1, hk.2.1, hk.2.2.1, hk.2.2.2, Outcome.refusal]
  case reserveFailed => exact hw.inert hx [] (List.append_nil _).symm hnone (·.of_erase) rfl
  case returned hk _ =>
    exact hw.inert hx _ rfl (isCompletion_of_kind hk (by decide)) (·.of_erase) rfl
  case exchange hres _ _ _ _ =>
    exact hw.inert hx [] (List.append_nil _).symm hnone (·.of_exchange hres) rfl
  case request hres _ _ _ _ _ _ he =>
    refine hw.inert hx _ rfl (isCompletion_of_kind he.kind (by decide)) (fun h => ?_) rfl
    exact (Leases.Exchanging.of_modify h ⟨fun _ => rfl, fun _ => id⟩).of_exchange hres
  case retransmit he =>
    exact hw.inert hx _ rfl (isCompletion_of_kind he.kind (by decide))
      (·.of_modify ⟨fun _ => rfl, fun _ => id⟩) rfl
  case finishWrite hr =>
    exact hw.inert hx _ rfl hr.not_completion (·.of_finish ⟨fun _ => rfl, fun _ => id⟩) rfl
  case skipped hr _ =>
    exact hw.inert hx _ rfl hr.not_completion (·.of_finish Leases.subdues_skipped) rfl
  case skippedProbe hr _ _ _ =>
    exact hw.inert hx _ rfl hr.not_completion (·.of_finish Leases.subdues_skipped) rfl
  all_goals first
    | exact hw.inert hx [] (List.append_nil _).symm hnone id rfl
    | exact hw.inert hx _ rfl (isCompletion_of_kind (by assumption) (by decide)) id rfl

theorem refresh (hs : Disconnecting a d s) (hr : Refresh s s') : Disconnecting a d s' := by
  cases hr with
  | ignored => exact hs
  | absent _ hl =>
    refine hs.congr (Prod.ext ?_ rfl) id
    dsimp only [State.disconnect]
    split
    · exact hl.symm
    · rfl
  | present _ hl =>
    refine hs.congr (Prod.ext ?_ rfl) id
    dsimp only [State.disconnect]
    split
    · exact hl.symm
    · exact hl.symm

theorem step [BasePackage] {e : Event} (h : Step s e es s') (hs : Disconnecting a d s)
    (hx : s.leases.Indexed) :
    s'.leases.Indexed ∧ ∃ a', (a' = a ∨ a = []) ∧ Disconnecting a' (d ++ completions es) s' := by
  cases h with
  | @input i w hm =>
    have hinit : At i a d ⟨s, [], i.permit, false⟩ := by
      refine ⟨hx, a, .inl rfl, ?_⟩
      rw [completions_eq_nil (by simp), List.append_nil]
      exact hs
    obtain ⟨hx', a', ha, hs'⟩ := hm.invariant (P := At i a d) At.step hinit
    exact ⟨hx', a', ha.imp_right fun h => h.2.1, hs'⟩
  | late hp _ _ _ hlate =>
    refine ⟨hx, a, .inl rfl, ?_⟩
    have hes : ∀ x ∈ es, x.isCompletion = false := by
      intro x hx
      rcases hlate.mem hx with h | h
      · simp [Effect.isCompletion, h]
      · simp [Effect.isCompletion, h]
    rw [completions_eq_nil hes, List.append_nil]
    exact hs.congr rfl id
  | refresh hr =>
    rw [completions_eq_nil (by simp), List.append_nil]
    exact ⟨hr.leases ▸ hx, a, .inl rfl, hs.refresh hr⟩

end Disconnecting

theorem completions_bare (es : List Effect) :
    completions (es.map Effect.bare) = completions es := by
  unfold completions
  rw [List.filter_map, List.map_map]
  rfl

theorem Created.disconnecting [BasePackage] (hc : Created c) :
    Disconnecting [] [] c.state ∧ c.state.leases.Indexed := by
  have hinit : ∀ cfg, Disconnecting [] [] (Core.init cfg).state ∧
      (Core.init cfg).state.leases.Indexed := by
    intro cfg
    refine ⟨⟨rfl, fun _ => rfl, fun h => (h rfl).elim, rfl, fun _ h => ?_, fun _ h => ?_,
      fun _ h => ?_⟩, fun _ _ h => ?_⟩
    · cases h
    · cases h
    · rcases h with ⟨t, ht⟩ | ⟨k, hk, -⟩
      · cases (GoMap.lookup_empty_eq t).symm.trans ht
      · cases hk
    · cases h
  rcases hc.cases_init with ⟨cfg, rfl⟩ | ⟨cfg, peer, hr, rfl⟩
  · exact hinit cfg
  obtain ⟨hs, hx⟩ := hinit cfg
  refine ⟨Disconnecting.refresh ?_ (refreshAdmission_refresh _ _), ?_⟩
  · exact hs.congr rfl id
  · rw [(refreshAdmission_refresh _ _).leases]
    exact hx

/-- The refusal of a `Disconnect` input: `NotOpen` or `AlreadyPending`. -/
def Effect.isRefusal (e : Effect) : Bool :=
  e.kind = .notify && e.notification.kind = .disconnect && e.notification.outcome.refusal

/-- `Disconnect` refuses at once, or becomes the one whose end the core owes a report for. -/
theorem disconnect_spec (c : Core) (i : Input) (hl : c.phase.ended = false) :
    (∃ e ∈ (Batch.disconnect { core := c } i).effects, e.isRefusal = true) ∨
    (Batch.disconnect { core := c } i).core.disconnectWaiting = true ∧
      (Batch.disconnect { core := c } i).core.disconnectToken = i.token ∧
      (Batch.disconnect { core := c } i).core.phase.ended = false := by
  unfold Batch.disconnect
  split
  · exact .inl ⟨_, List.mem_singleton_self _, rfl⟩
  split
  · refine .inr ?_
    dsimp only
    obtain ⟨n, ts, hc⟩ := Batch.arm_core (Batch.update { core := c } fun c => { c with
      disconnectWaiting := true, disconnectToken := i.token, closeCause := i.cause })
      .receiverDisconnect i.time i.timeout
    generalize Batch.arm _ TimerKind.receiverDisconnect i.time i.timeout = b at hc
    refine ⟨?_, ?_, ?_⟩
    · show b.core.disconnectWaiting = true
      rw [hc]
      rfl
    · show b.core.disconnectToken = i.token
      rw [hc]
      rfl
    · show b.core.phase.ended = false
      rw [hc]
      exact hl
  · split
    · exact .inl ⟨_, List.mem_singleton_self _, rfl⟩
    · refine .inr ?_
      unfold Batch.beginClosing
      dsimp only
      generalize hb : Batch.stop _ TimerKind.watchdog = b'
      have hc' : b'.core = _ := hb ▸ Batch.stop_core _ .watchdog
      generalize (if i.timeout ≤ 0 then b'.core.cfg.closingTimeout else i.timeout) = d
      obtain ⟨n, ts, hc⟩ := Batch.arm_core b' .closing i.time d
      rw [hc'] at hc
      generalize b'.arm TimerKind.closing i.time d = b at hc
      refine ⟨?_, ?_, ?_⟩
      · show b.core.disconnectWaiting = true
        rw [hc]
        rfl
      · show b.core.disconnectToken = i.token
        rw [hc]
        rfl
      · show b.core.phase.ended = false
        rw [hc]
        rfl

variable [BasePackage]

theorem disconnecting_run (hc : Created c) (events : List Event) :
    (∃ a, Disconnecting a (completions (run c events).effects) (run c events).core.state) ∧
      (run c events).core.state.leases.Indexed := by
  refine run_invariant (P := fun r => (∃ a, Disconnecting a (completions r.effects) r.core.state) ∧
    r.core.state.leases.Indexed) hc ⟨⟨_, hc.disconnecting.1⟩, hc.disconnecting.2⟩ ?_ events
  intro r e _ hstep ⟨⟨a, hs⟩, hx⟩
  obtain ⟨hx', a', -, hs'⟩ := hs.step hstep hx
  rw [completions_bare] at hs'
  rw [Run.effects_next, completions_append]
  exact ⟨⟨a', hs'⟩, hx'⟩

/-- Once a `Disconnect` is accepted, the account is about no other. -/
theorem disconnecting_later (hc : Created c) {a : List Nat} (ha : a ≠ [])
    (events later : List Event)
    (h : Disconnecting a (completions (run c events).effects) (run c events).core.state) :
    Disconnecting a (completions (run c (events ++ later)).effects)
      (run c (events ++ later)).core.state := by
  induction later using List.reverseRecOn with
  | nil =>
    rw [List.append_nil]
    exact h
  | append_singleton later e ih =>
    rw [← List.append_assoc, run_concat]
    have hx := (disconnecting_run hc (events ++ later)).2
    obtain ⟨-, a', ha', hs⟩ := ih.step (apply_step (run_wf hc _) e) hx
    rw [completions_bare] at hs
    rw [Run.effects_next, completions_append]
    obtain rfl := ha'.resolve_right ha
    exact hs

/-- The core takes up this `Disconnect`: it is meant for it, comes before its end, and is not
refused at once. -/
def Core.accepts (c : Core) (i : Input) : Bool :=
  i.kind = .disconnect && i.connection = c.cfg.connection && !c.phase.ended &&
    (c.apply (.input i)).2.all fun e => !e.isRefusal

theorem apply_disconnect {i : Input} (hk : i.kind = .disconnect)
    (hc : i.connection = c.cfg.connection) (hl : c.phase.ended = false) :
    c.apply (.input i) = ((Batch.disconnect { core := Batch.refreshAddresses c i } i).core,
      (Batch.disconnect { core := Batch.refreshAddresses c i } i).effects) := by
  have hb : Batch.handleInto { core := c } i =
      Batch.disconnect { core := Batch.refreshAddresses c i } i := by
    simp [Batch.handleInto, Batch.handleLive, Batch.update, hk, hc, hl]
  rw [← hb]
  rfl

/-- The account right after a `Disconnect` is accepted. -/
theorem disconnecting_accepted (hc : Created c) (before : List Event) {i : Input}
    (ha : (run c before).core.accepts i = true) :
    Disconnecting [i.token] (completions (run c (before ++ [.input i])).effects)
      (run c (before ++ [.input i])).core.state := by
  simp only [Core.accepts, Bool.and_eq_true, decide_eq_true_eq, Bool.not_eq_true',
    List.all_eq_true] at ha
  obtain ⟨⟨⟨hk, hconn⟩, hl⟩, hno⟩ := ha
  have happ := apply_disconnect hk hconn hl
  have hlive : (Batch.refreshAddresses (run c before).core i).phase.ended = false := by
    have hphase := congrArg State.phase (Batch.refreshAddresses_state (run c before).core i)
    exact (congrArg Phase.ended hphase).trans hl
  rcases disconnect_spec _ i hlive with ⟨e, he, hr⟩ | ⟨hwait, htoken, hlive'⟩
  · have hnot := hno e (by rw [happ]; exact he)
    rw [hr] at hnot
    cases hnot
  · obtain ⟨⟨a, hs⟩, -⟩ := disconnecting_run hc (before ++ [.input i])
    have hnext : (run c (before ++ [.input i])).core =
        (Batch.disconnect { core := Batch.refreshAddresses (run c before).core i } i).core := by
      rw [run_concat]
      exact congrArg Prod.fst happ
    rw [← hnext] at hwait htoken hlive'
    have hd : completions (run c (before ++ [.input i])).effects = [] := by
      by_contra hne
      have hended := hs.done hne
      exact Bool.false_ne_true (hlive'.symm.trans hended)
    have howed : (run c (before ++ [.input i])).core.state.owed = [i.token] := by
      rw [← htoken]
      exact if_pos hwait
    have hacc := hs.account
    rw [hd, howed, List.nil_append] at hacc
    rw [hacc]
    exact hs

/-- A `Disconnect` that is not taken up is refused at once, or ignored by a core it is not meant for
or that has ended. One that is taken up is reported as over exactly once, under its token, by the
call that ends the core. -/
theorem disconnect_completion {c : Core} (hc : Created c) (before after : List Event) (i : Input)
    (hk : i.kind = .disconnect) :
    ((run c before).core.accepts i = false →
      (∃ e ∈ ((run c before).core.apply (.input i)).2, e.isRefusal = true) ∨
      (run c before).core.apply (.input i) = ((run c before).core, []) ∧
        (i.connection ≠ (run c before).core.cfg.connection ∨
          (run c before).core.phase.ended = true)) ∧
    ((run c before).core.accepts i = true →
      completions (run c (before ++ .input i :: after)).effects =
        if (run c (before ++ .input i :: after)).core.phase.ended then [i.token] else []) := by
  refine ⟨fun ha => ?_, fun ha => ?_⟩
  · generalize (run c before).core = c0 at ha ⊢
    by_cases hconn : i.connection = c0.cfg.connection
    · cases hl : c0.phase.ended with
      | true =>
        refine .inr ⟨?_, .inr rfl⟩
        simp [Core.apply, Batch.handleInto, hk, hconn, hl]
      | false =>
        refine .inl ?_
        simpa [Core.accepts, hk, hconn, hl] using ha
    · refine .inr ⟨?_, .inl hconn⟩
      simp [Core.apply, Batch.handleInto, hconn]
  · have hs := disconnecting_later hc (List.cons_ne_nil _ _) _ after
      (disconnecting_accepted hc before ha)
    rw [List.append_assoc, List.singleton_append] at hs
    have hacc := hs.account
    split
    next hended =>
      rw [State.owed, hs.ended hended] at hacc
      simpa using hacc
    next hended =>
      by_contra hne
      exact hended (hs.done hne)

omit [BasePackage] in
/-- An admitted core whose `Disconnect` is cut short. -/
theorem disconnect_completion_aborted :
    completions (@run samplePackage sampleAdmitted
      [.input (sampleInput .disconnect 7), .input (sampleInput .abort 0)]).effects = [7] := by
  have h := (@disconnect_completion samplePackage _ sampleAdmitted_created []
    [.input (sampleInput .abort 0)] (sampleInput .disconnect 7) rfl).2 rfl
  rwa [if_pos (by decide +kernel)] at h

omit [BasePackage] in
/-- A `Disconnect` for a core that has ended is neither refused nor reported. -/
theorem ended_disconnect_ignored :
    (@run samplePackage (sampleCore false) [.input (sampleInput .abort 0)]).core.phase = .closed ∧
    (@Core.apply samplePackage (@run samplePackage (sampleCore false)
      [.input (sampleInput .abort 0)]).core (.input (sampleInput .disconnect 7))).2.isEmpty = true ∧
    completions (@run samplePackage (sampleCore false)
      [.input (sampleInput .abort 0), .input (sampleInput .disconnect 7)]).effects = [] := by
  decide +kernel

end Diameter.Protocol
