import Diameter.Protocol.Completion

/-!
# Protocol.Admission

The admission gate of an active core, one that was not created for a peer admitted elsewhere.

* `admits_gated`: a message reaches the application only through an open gate, or as an answer
  somebody owns while the connection is closing.
* `receive_held`: while the gate of an open core is shut, or a hook decides about a CER, what is
  received is held.
-/

namespace Diameter.Protocol

open Lib BasePackage

variable {c : Core} {i : Input}
variable {s' s : State} {w w' : Work}

/-- The gate of an active core that has made `h` handshake reports. -/
structure Gated (h : Nat) (s : State) : Prop where
  active : s.passive = false
  ready : s.ready = true → s.phase = .opened ∧ 0 < h
  hook : s.hook ≠ 0 → s.phase = .preCER ∧ s.role = .responder
  candidate : s.candidate ≠ 0 → s.hook = 0

/-- The gate lets the message of `i` through in state `s`. -/
def Admits (s : State) (i : Input) (e : Effect) : Prop :=
  ∃ p, i.kind = .receive ∧ i.message = .packet p ∧ e.message = some p ∧
    (s.phase = .opened ∧ s.ready = true ∨
      s.phase = .closing ∧ p.header.isRequest = false ∧ i.ownership ≠ 0 ∧
        p.header.isBase .capabilitiesExchange = false ∧ p.header.isBase .deviceWatchdog = false)

namespace Gated

variable {h : Nat}

theorem mono {h' : Nat} (hs : Gated h s) (hle : h ≤ h') : Gated h' s :=
  ⟨hs.active, fun hr => ⟨(hs.ready hr).1, Nat.lt_of_lt_of_le (hs.ready hr).2 hle⟩, hs.hook,
    hs.candidate⟩

theorem congr (hs : Gated h s) (h1 : s'.role = s.role) (h2 : s'.phase = s.phase)
    (h3 : s'.ready = s.ready) (h4 : s'.passive = s.passive) (h5 : s'.hook = s.hook)
    (h6 : s'.candidate = s.candidate) : Gated h s' := by
  obtain ⟨a1, a2, a3, a4⟩ := hs
  constructor
  all_goals simpa only [h1, h2, h3, h4, h5, h6]

theorem shut (hs : Gated h s) (h1 : s'.passive = s.passive) (h2 : s'.ready = false)
    (h3 : s'.hook = 0) : Gated h s' := by
  refine ⟨h1.trans hs.active, fun hr => ?_, fun hk => (hk h3).elim, fun _ => h3⟩
  rw [h2] at hr
  cases hr

theorem not_ready (hs : Gated h s) (hp : s.phase ≠ .opened) : s.ready = false := by
  by_contra hr
  exact hp (hs.ready (Bool.not_eq_false _ ▸ hr)).1

theorem no_hook (hs : Gated h s) (hp : s.phase ≠ .preCER ∨ s.role = .initiator) : s.hook = 0 := by
  by_contra hk
  obtain ⟨hphase, hrole⟩ := hs.hook hk
  rcases hp with hp | hp
  · exact hp hphase
  · rw [hp] at hrole
    cases hrole

end Gated

theorem Effect.IsHandshakeNotice.is {e : Effect} (hn : e.IsHandshakeNotice) :
    e.isHandshakeNotice = true := by
  simp [Effect.isHandshakeNotice, hn.1, hn.2]

/-- The gate while `i` is handled by a core whose state was `s`. -/
structure Gate (s : State) (i : Input) (h : Nat) (w : Work) : Prop where
  gated : Gated (h + w.effects.countP Effect.isHandshakeNotice) w.state
  admits : ∀ e ∈ w.effects, e.kind = .admitMessage → Admits s i e
  opened : i.kind = .receive → w.state.ready = true → s.phase = .opened ∧ s.ready = true
  closing : i.kind = .receive → w.state.phase = .closing →
    s.phase = .closing ∨ w.permit = none ∧ i.message.request.isSome = true

namespace Gate

variable {h : Nat}

theorem emit (hw : Gate s i h w) (es : List Effect)
    (he : w'.effects = w.effects ++ es) (hes : ∀ e ∈ es, e.kind ≠ .admitMessage)
    (hg : Gated (h + w.effects.countP Effect.isHandshakeNotice +
      es.countP Effect.isHandshakeNotice) w'.state)
    (ho : i.kind = .receive → w'.state.ready = true → w.state.ready = true)
    (hc : i.kind = .receive → w'.state.phase = .closing →
      w.state.phase = .closing ∧ (w'.permit = w.permit ∨ w'.permit = none) ∨
        w'.permit = none ∧ i.message.request.isSome = true) : Gate s i h w' := by
  refine ⟨?_, ?_, fun hk hr => hw.opened hk (ho hk hr), fun hk hp => ?_⟩
  · rw [he, List.countP_append, ← Nat.add_assoc]
    exact hg
  · intro e hmem hadm
    rw [he] at hmem
    rcases List.mem_append.1 hmem with hmem | hmem
    · exact hw.admits e hmem hadm
    · exact (hes e hmem hadm).elim
  · rcases hc hk hp with ⟨hp, hq⟩ | hc
    · refine (hw.closing hk hp).imp id fun ⟨hnone, hreq⟩ => ⟨?_, hreq⟩
      rcases hq with hq | hq
      · exact hq.trans hnone
      · exact hq
    · exact .inr hc

theorem inert (hw : Gate s i h w) (es : List Effect)
    (he : w'.effects = w.effects ++ es) (hes : ∀ e ∈ es, e.kind ≠ .admitMessage)
    (h1 : w'.state.role = w.state.role) (h2 : w'.state.phase = w.state.phase)
    (h3 : w'.state.ready = w.state.ready) (h4 : w'.state.passive = w.state.passive)
    (h5 : w'.state.hook = w.state.hook) (h6 : w'.state.candidate = w.state.candidate)
    (hq : w'.permit = w.permit ∨ w'.permit = none ∨ i.kind ≠ .receive) : Gate s i h w' := by
  refine hw.emit es he hes ?_ (fun _ hr => h3 ▸ hr) fun hk hp => .inl ⟨h2 ▸ hp, ?_⟩
  · exact (hw.gated.congr h1 h2 h3 h4 h5 h6).mono (Nat.le_add_right _ _)
  rcases hq with hq | hq | hq
  · exact .inl hq
  · exact .inr hq
  · exact (hq hk).elim

theorem release (hw : Gate s i h w) (hk : i.kind = .releaseAdmission)
    (hp : w.state.phase = .opened) (es : List Effect) (he : w'.effects = w.effects ++ es)
    (hes : ∀ e ∈ es, e.kind ≠ .admitMessage) (hn : ∃ e ∈ es, e.isHandshakeNotice = true)
    (h1 : w'.state.role = w.state.role) (h2 : w'.state.phase = w.state.phase)
    (h4 : w'.state.passive = w.state.passive) (h5 : w'.state.hook = w.state.hook)
    (h6 : w'.state.candidate = w.state.candidate) : Gate s i h w' := by
  have hne : i.kind ≠ .receive := by simp [hk]
  refine hw.emit es he hes ?_ (fun h => (hne h).elim) fun h => (hne h).elim
  refine ⟨h4.trans hw.gated.active, fun _ => ⟨h2.trans hp, ?_⟩, ?_, ?_⟩
  · have hpos := List.countP_pos_iff.2 hn
    omega
  · rw [h1, h2, h5]
    exact hw.gated.hook
  · rw [h5, h6]
    exact hw.gated.candidate

end Gate

variable [BasePackage]

theorem Gate.step {h : Nat} (hm : Move i w w') (hw : Gate s i h w) :
    Gate s i h w' := by
  have hnone : ∀ e ∈ ([] : List Effect), e.kind ≠ .admitMessage :=
    List.forall_mem_nil _
  cases hm
  case quiet hq _ =>
    refine hw.inert _ rfl (fun x hx => ?_) rfl rfl rfl rfl rfl rfl (.inl rfl)
    rw [List.mem_singleton.1 hx]
    exact hq.ne_kind (by decide)
  case settleCER hr | credit hr | dpaSettled hr | finishWrite hr =>
    exact hw.inert _ rfl (hr.ne_kind (by decide)) rfl rfl rfl rfl rfl rfl (.inl rfl)
  case skipped hr _ =>
    exact hw.inert _ rfl (hr.ne_kind (by decide)) rfl rfl rfl rfl rfl rfl (.inl rfl)
  case skippedProbe hr _ _ _ =>
    exact hw.inert _ rfl (hr.ne_kind (by decide)) rfl rfl rfl rfl rfl rfl (.inl rfl)
  case startInitiator hrole hphase _ _ =>
    refine hw.emit [] (List.append_nil _).symm hnone ?_ (fun _ => id) (fun _ h => by cases h)
    refine hw.gated.shut rfl (hw.gated.not_ready (by simp [hphase])) (hw.gated.no_hook (.inr hrole))
  case hold hk _ _ =>
    exact hw.inert _ rfl (ne_kind_singleton hk (by decide)) rfl rfl rfl rfl rfl rfl (.inr (.inl rfl))
  case admitMessage e p hrun hkind hmsg hk hem hgate _ hperm =>
    have hadm : Admits s i e := by
      refine ⟨p, hkind, hmsg, hem, ?_⟩
      rcases hgate with ⟨hp, hr⟩ | ⟨hp, hans, hrest⟩
      · exact .inl (hw.opened hkind hr)
      refine .inr ⟨?_, hans, hrest⟩
      refine (hw.closing hkind hp).resolve_right fun ⟨_, hreq⟩ => ?_
      rw [hmsg] at hreq
      simp [Incoming.request, hans] at hreq
    refine ⟨?_, ?_, hw.opened, fun hk hp => (hw.closing hk hp).imp id fun h => ⟨rfl, h.2⟩⟩
    · refine hw.gated.mono ?_
      rw [show (Work.emit w e).effects = w.effects ++ [e] from rfl, List.countP_append]
      omega
    · intro x hx _
      rcases List.mem_append.1 hx with hx | hx
      · exact hw.admits x hx ‹_›
      · rw [List.mem_singleton.1 hx]
        exact hadm
  case runHook e k hd _ _ _ _ hpre _ _ hk _ =>
    refine hw.emit _ rfl (ne_kind_singleton hk (by decide)) ?_ (fun _ => id) fun _ hp =>
      .inl ⟨hp, .inr rfl⟩
    refine Gated.mono ?_ (Nat.le_add_right _ _)
    refine ⟨?_, hw.gated.ready, ?_, ?_⟩
    · show (if w.state.phase = .preCER then false else w.state.passive) = false
      rw [hw.gated.active, ite_self]
    · show (if w.state.phase = .preCER then w.state.serial + 1 else w.state.hook) ≠ 0 → _
      split
      next hp => exact fun _ => ⟨hp, (hpre hp).2.1⟩
      · exact hw.gated.hook
    · show _ → (if w.state.phase = .preCER then w.state.serial + 1 else w.state.hook) = 0
      split
      next hp => exact fun hc => (hc (hpre hp).2.2.1).elim
      · exact hw.gated.candidate
  case resume hkind _ _ =>
    refine hw.emit [] (List.append_nil _).symm hnone ?_ (fun _ => id)
      fun hk => absurd (hk.symm.trans hkind) (by decide)
    refine ⟨hw.gated.active, hw.gated.ready, ?_, ?_⟩
    · show (if w.state.hook = i.token then 0 else w.state.hook) ≠ 0 → _
      split
      · exact fun h => (h rfl).elim
      · exact hw.gated.hook
    · show _ → (if w.state.hook = i.token then 0 else w.state.hook) = 0
      split
      · exact fun _ => rfl
      · exact hw.gated.candidate
  case impassive =>
    refine hw.emit [] (List.append_nil _).symm hnone ?_ (fun _ => id) fun _ hp => .inl ⟨hp, .inl rfl⟩
    exact ⟨rfl, hw.gated.ready, hw.gated.hook, hw.gated.candidate⟩
  case candidate hhook _ hk _ =>
    refine hw.emit _ rfl (ne_kind_singleton hk (by decide)) ?_ (fun _ => id) fun _ hp =>
      .inl ⟨hp, .inr rfl⟩
    refine Gated.mono ?_ (Nat.le_add_right _ _)
    exact ⟨hw.gated.active, hw.gated.ready, hw.gated.hook, fun _ => hhook.1⟩
  case answer hk _ _ _ =>
    exact hw.inert _ rfl (ne_kind_singleton hk (by decide)) rfl rfl rfl rfl rfl rfl (.inr (.inl rfl))
  case activate hkind _ hphase hcand _ hk =>
    refine hw.emit _ rfl (ne_kind_singleton hk (by decide)) ?_ (fun _ => id)
      fun hk => absurd (hk.symm.trans hkind) (by decide)
    refine Gated.mono ?_ (Nat.le_add_right _ _)
    exact hw.gated.shut rfl (hw.gated.not_ready (by simp [hphase])) (hw.gated.candidate hcand)
  case rejectCandidate hkind _ _ _ =>
    refine hw.emit [] (List.append_nil _).symm hnone ?_ (fun _ => id)
      fun hk => absurd (hk.symm.trans hkind) (by decide)
    exact ⟨hw.gated.active, hw.gated.ready, hw.gated.hook, fun h => (h rfl).elim⟩
  case admitted ha hk =>
    refine hw.emit _ rfl (ne_kind_singleton hk (by decide)) ?_ (fun _ => id) (fun _ h => by cases h)
    refine Gated.mono ?_ (Nat.le_add_right _ _)
    refine hw.gated.shut rfl (hw.gated.not_ready ?_) (hw.gated.no_hook ?_)
    · rcases ha with h | h <;> simp [h]
    · exact ha.imp (fun h => by simp [h]) And.right
  case releaseAdmission hkind hphase _ _ hn =>
    exact hw.release hkind hphase _ rfl (ne_kind_singleton hn.1 (by decide))
      ⟨_, List.mem_singleton_self _, hn.is⟩ rfl rfl rfl rfl rfl
  case releaseSupervised hkind hphase _ _ _ _ hn =>
    exact hw.release hkind hphase _ rfl (ne_kind_singleton hn.1 (by decide))
      ⟨_, List.mem_singleton_self _, hn.is⟩ rfl rfl rfl rfl rfl
  case releaseRecovering hkind hphase _ _ _ hn hk _ =>
    refine hw.release hkind hphase _ rfl (fun x hx => ?_) ⟨_, List.mem_cons_self .., hn.is⟩
      rfl rfl rfl rfl rfl
    rcases List.mem_pair.1 hx with rfl | rfl
    · rw [hn.1]
      decide
    · rw [hk]
      decide
  case beginClosing e es n isLocal _ hrun hphase _ hlocal hpeer hes hk _ =>
    refine hw.emit (es ++ [e]) (List.append_assoc _ _ _) (fun x hx => ?_) ?_
      (fun _ h => (Bool.false_ne_true h).elim) fun hkind _ => .inr ⟨rfl, ?_⟩
    · rcases List.mem_append.1 hx with hx | hx
      · exact (hes x hx).ne_kind (by decide)
      · exact ne_kind_singleton hk (by decide) x hx
    · refine Gated.mono ?_ (Nat.le_add_right _ _)
      exact hw.gated.shut rfl rfl (hw.gated.no_hook (.inl (by simp [hphase])))
    · cases isLocal with
      | true => exact absurd ((hlocal rfl).1.symm.trans hkind) (by decide)
      | false =>
        obtain ⟨hq, hsome⟩ := hpeer rfl
        rw [← hq]
        exact hsome
  case frozen hkind _ _ _ _ _ =>
    exact hw.inert [] (List.append_nil _).symm hnone rfl rfl rfl rfl rfl rfl
      (.inr (.inr (by simp [hkind])))
  case terminate phase es _ hp ht =>
    refine hw.emit _ rfl (ht.ne_kind (by decide)) ?_ (fun _ h => (Bool.false_ne_true h).elim)
      fun _ h => ?_
    · refine Gated.mono ?_ (Nat.le_add_right _ _)
      exact hw.gated.shut rfl rfl rfl
    · rw [show phase = .closing from h] at hp
      cases hp
  case disconnected es e _ _ ht hn =>
    refine hw.emit (es ++ [e]) (List.append_assoc _ _ _) (fun x hx => ?_) ?_
      (fun _ h => (Bool.false_ne_true h).elim) fun _ h => by cases h
    · rcases List.mem_append.1 hx with hx | hx
      · exact ht.ne_kind (by decide) x hx
      · exact ne_kind_singleton hn.1 (by decide) x hx
    · refine Gated.mono ?_ (Nat.le_add_right _ _)
      exact hw.gated.shut rfl rfl rfl
  all_goals first
    | exact hw.inert [] (List.append_nil _).symm hnone rfl rfl rfl rfl rfl rfl (.inl rfl)
    | exact hw.inert _ rfl (ne_kind_singleton (Effect.OwnSend.kind (by assumption)) (by decide))
        rfl rfl rfl rfl rfl rfl (.inl rfl)
    | exact hw.inert _ rfl (ne_kind_singleton (by assumption) (by decide)) rfl rfl rfl rfl rfl rfl
        (.inl rfl)

theorem gated_step {h : Nat} {e : Event} {es : List Effect} (hstep : Step s e es s')
    (hs : Gated h s) : Gated (h + es.countP Effect.isHandshakeNotice) s' ∧
      ∀ x ∈ es, x.kind = .admitMessage → ∃ i, e = .input i ∧ Admits s i x := by
  cases hstep with
  | @input i w hm =>
    have hinit : Gate s i h ⟨s, [], i.permit, false⟩ :=
      ⟨hs, List.forall_mem_nil _, fun _ hr => ⟨(hs.ready hr).1, hr⟩,
        fun _ hp => .inl hp⟩
    have hw := hm.invariant (P := Gate s i h) Gate.step hinit
    exact ⟨hw.gated, fun x hx hk => ⟨i, rfl, hw.admits x hx hk⟩⟩
  | late _ _ _ _ hlate =>
    refine ⟨Gated.mono ?_ (Nat.le_add_right _ _), fun x hx hk => ?_⟩
    · exact hs.congr rfl rfl rfl rfl rfl rfl
    rcases hlate.mem hx with h | h
    · rw [hk] at h
      cases h
    · rw [hk] at h
      cases h.1
  | refresh hr =>
    refine ⟨?_, List.forall_mem_nil _⟩
    have hne : ¬ s.passive = true := by rw [hs.active]; decide
    cases hr with
    | ignored => exact hs
    | absent hp => exact (hne hp).elim
    | present hp => exact (hne hp).elim

theorem init_gated (cfg : Config) : Gated 0 (Core.init cfg).state :=
  ⟨rfl, (fun h => by cases h), fun h => (h rfl).elim, fun _ => rfl⟩

theorem gated_run {cfg : Config} (hc : new cfg = .ok c) (events : List Event) :
    Gated ((run c events).effects.countP Effect.isHandshakeNotice) (run c events).core.state := by
  refine run_invariant (P := fun r =>
    Gated (r.effects.countP Effect.isHandshakeNotice) r.core.state) (.new hc) ?_ ?_ events
  · rw [new_eq hc]
    exact init_gated cfg
  intro r e _ hstep ih
  have hnext := (gated_step hstep ih).1
  rw [countP_bare (fun _ => rfl)] at hnext
  rw [Run.effects_next, List.countP_append]
  exact hnext

/-! ## Held and discarded messages -/

theorem Moves.effects_append (h : Moves i w w') :
    ∃ es, w'.effects = w.effects ++ es := by
  refine h.invariant (P := fun w' => ∃ es, w'.effects = w.effects ++ es) ?_
    ⟨[], (List.append_nil _).symm⟩
  intro w1 w2 hm ⟨es, he⟩
  obtain ⟨es', he', -⟩ := hm.emits
  exact ⟨es ++ es', by rw [he', he, List.append_assoc]⟩

/-- A latched core holds nothing any more. -/
structure Latched (w : Work) : Prop where
  terminal : w.state.terminal = true
  holds : ∀ x ∈ w.effects, x.kind ≠ .hold

theorem Latched.step (hm : Move i w w') (hw : Latched w) : Latched w' := by
  obtain ⟨es, he, hes⟩ := hm.emits
  refine ⟨?_, fun x hx hk => ?_⟩
  · cases hm
    case answer e _ _ _ _ _ _ _ _ _ _ _ _ _ _ _ =>
      show (w.state.terminal || e.closeAfter) = true
      rw [hw.terminal, Bool.true_or]
    all_goals first
      | exact hw.terminal
      | rfl
  · rw [he] at hx
    rcases List.mem_append.1 hx with hx | hx
    · exact hw.holds x hx hk
    have hguard := hes x hx
    rw [Work.Emits, hk] at hguard
    exact Bool.false_ne_true (hguard.symm.trans hw.terminal)

theorem latched_step {es : List Effect} (h : Step s (.input i) es s')
    (ht : s.terminal = true) : ∀ x ∈ es, x.kind ≠ .hold := by
  cases h with
  | input hm =>
    exact (hm.invariant (P := Latched) Latched.step
      ⟨ht, List.forall_mem_nil _⟩).holds
  | late _ _ _ _ hlate =>
    intro x hx hk
    rcases hlate.mem hx with h | h
    · rw [hk] at h
      cases h
    · rw [hk] at h
      cases h.1

/-- The message was read from the peer. -/
def Incoming.Received (m : Incoming) : Prop :=
  ∀ p, m = .packet p → ∃ stream, (readMessage stream p.dictionary).1 = some p.message

omit [BasePackage] in
theorem Incoming.Received.copy_eq {m : Incoming} (hm : m.Received) : m.copy = m := by
  cases m with
  | packet p =>
    obtain ⟨stream, hread⟩ := hm p rfl
    exact congrArg Incoming.packet (readMessage_copy hread)
  | _ => rfl

theorem apply_receive (hk : i.kind = .receive) (hc : i.connection = c.cfg.connection)
    (hl : c.phase.ended = false) :
    c.apply (.input i) = ((Batch.received { core := Batch.refreshAddresses c i } i).core,
      (Batch.received { core := Batch.refreshAddresses c i } i).effects) := by
  have hb : Batch.handleInto { core := c } i =
      Batch.received { core := Batch.refreshAddresses c i } i := by
    simp [Batch.handleInto, Batch.handleLive, Batch.update, hk, hc, hl]
  rw [← hb]
  rfl

/-- A core with a shut gate holds what it receives. -/
theorem receive_held (hp : c.passiveResponder = false) (ht : c.terminal = false)
    (hc : c.phase ≠ .closing) (hg : c.hookToken ≠ 0 ∨ c.phase = .opened ∧ c.ready = false) :
    (Batch.received { core := c } i).effects = [{ kind := .hold, connection := c.cfg.connection
                                                  input := some { i with message := i.message.copy } }] := by
  have hhold : Batch.receive { core := c } i = Batch.hold { core := c } i := by
    simp only [Batch.receive, hp, ht, hc]
    simp [hg]
  simp [Batch.received, hhold, Batch.hold, Batch.emit]

/-- A latched core discards what it receives. -/
theorem receive_discarded (hp : c.passiveResponder = false) (ht : c.terminal = true)
    (hk : i.kind = .receive) (hwf : c.state.WF) :
    ∃ e es, (Batch.received { core := c } i).effects = e :: es ∧
      e.kind = .discard := by
  have hdiscard : Batch.receive { core := c } i = Batch.discard { core := c } i none 0 := by
    simp only [Batch.receive, hp, ht]
    simp
  unfold Batch.received
  rw [hdiscard]
  dsimp only
  split
  · exact ⟨_, [], rfl, rfl⟩
  split
  next pending hpending =>
    split
    next hn =>
      -- An expiry that waited for this message is handled after it.
      generalize hb : Batch.discard { core := c } i none 0 = b at hpending hn ⊢
      have heffects : b.effects = [{ kind := .discard, connection := c.cfg.connection }] := by
        rw [← hb]
        rfl
      have hcore : b.core = c := by
        rw [← hb]
        rfl
      obtain ⟨q, σ, hm⟩ := Batch.deferredExpiry_reaches (i := i) (q := none) (b := b) hpending hn
        (hwf.deferred pending (hcore ▸ hpending)) (by simp [hk]) (hcore ▸ hwf.tokens _)
      obtain ⟨es, he⟩ := hm.effects_append
      rw [show (b.work none false).effects = b.effects.map Effect.bare from rfl, heffects] at he
      obtain ⟨e, rest, heq, hbare, -⟩ := List.map_eq_cons_iff.1 he
      exact ⟨e, rest, heq, congrArg Effect.kind hbare⟩
    · exact ⟨_, [], rfl, rfl⟩
  · exact ⟨_, [], rfl, rfl⟩

/-- The gate of `s` is shut for what is received. -/
structure Shut (s : State) : Prop where
  active : s.passive = false
  live : s.phase.ended = false
  notClosing : s.phase ≠ .closing
  gate : s.hook ≠ 0 ∨ s.phase = .opened ∧ s.ready = false

omit [BasePackage] in
theorem Gated.shut_of {h : Nat} (hs : Gated h s)
    (hg : s.hook ≠ 0 ∨ s.phase = .opened ∧ s.ready = false) : Shut s := by
  rcases hg with hk | ⟨hp, hr⟩
  · have hp := (hs.hook hk).1
    exact ⟨hs.active, by rw [hp]; rfl, by simp [hp], .inl hk⟩
  · exact ⟨hs.active, by rw [hp]; rfl, by simp [hp], .inr ⟨hp, hr⟩⟩

omit [BasePackage] in
theorem Shut.not_admits {e : Effect} (hs : Shut s) (hg : Gated h s) :
    ¬ Admits s i e := by
  rintro ⟨p, -, -, -, ⟨hp, hr⟩ | ⟨hp, -⟩⟩
  · rcases hs.gate with hk | ⟨-, hr'⟩
    · rw [(hg.hook hk).1] at hp
      cases hp
    · rw [hr'] at hr
      cases hr
  · exact hs.notClosing hp

theorem shut_receive (hs : Shut c.state) (hwf : c.state.WF) (hk : i.kind = .receive)
    (hconn : i.connection = c.cfg.connection) :
    if c.terminal then ∃ e es, (c.apply (.input i)).2 = e :: es ∧ e.kind = .discard
    else ∃ e, (c.apply (.input i)).2 = [e] ∧ e.kind = .hold ∧
      e.input = some { i with message := i.message.copy } := by
  have hstate := Batch.refreshAddresses_state c i
  rw [apply_receive hk hconn hs.live]
  rw [← hstate] at hs hwf
  have hterm : (Batch.refreshAddresses c i).terminal = c.terminal := congrArg State.terminal hstate
  split
  next ht => exact receive_discarded hs.active (hterm.trans ht) hk hwf
  rename_i ht
  rw [Bool.not_eq_true] at ht
  exact ⟨_, receive_held hs.active (hterm.trans ht) hs.notClosing hs.gate, rfl, rfl⟩

/-- Published, not yet released, and still open. -/
def Run.AwaitsRelease (r : Run) : Prop :=
  (∃ e ∈ r.effects, e.isPublish = true) ∧ (∀ e ∈ r.effects, e.isHandshakeNotice = false) ∧
    r.core.phase = .opened

omit [BasePackage] in
theorem Run.AwaitsRelease.not_ready {r : Run} (hr : r.AwaitsRelease)
    (hg : Gated (r.effects.countP Effect.isHandshakeNotice) r.core.state) :
    r.core.state.ready = false := by
  by_contra hready
  have hpos := (hg.ready (Bool.not_eq_false _ ▸ hready)).2
  rw [countP_unrelated hr.2.1] at hpos
  exact Nat.lt_irrefl _ hpos

/-- An active core passes a message on only while it is open and its admission is released, or, when
it is closing, if the message is an answer somebody owns. Between publication and release of an open
core, and while a hook decides about its CER, every message is held, or discarded once the core is
latched. -/
theorem admission_gate {cfg : Config} {c : Core} (hc : new cfg = .ok c) (events : List Event) :
    (∀ i, ∀ e ∈ ((run c events).core.apply (.input i)).2, e.kind = .admitMessage →
      Admits (run c events).core.state i e) ∧
    (∀ i, i.kind = .receive → i.connection = (run c events).core.cfg.connection →
      (run c events).AwaitsRelease ∨ (run c events).core.hookToken ≠ 0 →
      if (run c events).core.terminal then
        ∃ e es, ((run c events).core.apply (.input i)).2 = e :: es ∧ e.kind = .discard ∧
          ∀ x ∈ es, x.kind ≠ .hold ∧ x.kind ≠ .admitMessage
      else
        ∃ e, ((run c events).core.apply (.input i)).2 = [e] ∧ e.kind = .hold ∧
          e.input = some { i with message := i.message.copy } ∧
          (i.message.Received → e.input = some i)) := by
  have hg := gated_run hc events
  have hwf := run_wf (.new hc) events
  have hadmits : ∀ i, ∀ e ∈ ((run c events).core.apply (.input i)).2, e.kind = .admitMessage →
      Admits (run c events).core.state i e := by
    intro i e he hk
    obtain ⟨j, hj, hadm⟩ := (gated_step (apply_step hwf (.input i)) hg).2 e.bare
      (List.mem_map_of_mem he) hk
    cases hj
    exact hadm
  refine ⟨hadmits, fun i hk hconn hshut => ?_⟩
  have hs : Shut (run c events).core.state := by
    refine hg.shut_of ?_
    rcases hshut with hw | hh
    · exact .inr ⟨hw.2.2, hw.not_ready hg⟩
    · exact .inl hh
  have hreceive := shut_receive hs hwf hk hconn
  split
  next ht =>
    rw [if_pos ht] at hreceive
    obtain ⟨e, es, he, hd⟩ := hreceive
    refine ⟨e, es, he, hd, fun x hx => ⟨?_, fun hadm => ?_⟩⟩
    · have hstep := apply_step hwf (.input i)
      rw [he] at hstep
      exact latched_step hstep ht x.bare (List.mem_map_of_mem (List.mem_cons_of_mem _ hx))
    · exact hs.not_admits hg (hadmits i x (he ▸ List.mem_cons_of_mem _ hx) hadm)
  next ht =>
    rw [if_neg ht] at hreceive
    obtain ⟨e, he, hh, hin⟩ := hreceive
    refine ⟨e, he, hh, hin, fun hrec => ?_⟩
    rw [hin, hrec.copy_eq]

section Sample

omit [BasePackage]

/-- The sample responder receives the CER of a node with its own settings, which is accepted. -/
def sampleOpening : List Event :=
  [.input { sampleInput .receive 0 with message := .packet ⟨(Base.buildCER ⟨1, 2⟩ sampleDictionary
      (Base.configuredSettings 10415 [])).toOption.getD (newRequest ⟨1, 2⟩ 0 0 sampleDictionary),
        sampleDictionary⟩ },
    .input (sampleInput .activate 1)]

/-- The sample responder, published but not released, holds what it receives. -/
theorem admission_gate_published : ∃ events,
    (@run samplePackage (sampleCore false) events).AwaitsRelease ∧
    ∃ e, (@Core.apply samplePackage (@run samplePackage (sampleCore false) events).core
      (.input (sampleInput .receive 0))).2 = [e] ∧ e.kind = .hold := by
  obtain ⟨events, hawaits, hlatch, hconn⟩ : ∃ events,
      (@run samplePackage (sampleCore false) events).AwaitsRelease ∧
      (@run samplePackage (sampleCore false) events).core.terminal = false ∧
      (@run samplePackage (sampleCore false) events).core.cfg.connection = ⟨1, 1⟩ := by
    unfold Run.AwaitsRelease
    exact ⟨sampleOpening, by decide +kernel⟩
  have hgate := (@admission_gate samplePackage _ _ (sampleCore_new false) events).2
    (sampleInput .receive 0) rfl hconn.symm (.inl hawaits)
  rw [hlatch, if_neg Bool.false_ne_true] at hgate
  obtain ⟨e, he, hk, -⟩ := hgate
  exact ⟨events, hawaits, e, he, hk⟩

/-- A `Disconnect` before the release ends the holding: the next message is dropped, though the
peer is published, its admission never released and the core not latched. -/
theorem not_held_after_disconnect : ∃ events e,
    (∃ x ∈ (@run samplePackage (sampleCore false) events).effects, x.isPublish = true) ∧
    (∀ x ∈ (@run samplePackage (sampleCore false) events).effects, x.isHandshakeNotice = false) ∧
    (@run samplePackage (sampleCore false) events).core.phase.ended = false ∧
    (@run samplePackage (sampleCore false) events).core.terminal = false ∧
    (@Core.apply samplePackage (@run samplePackage (sampleCore false) events).core
      (.input (sampleInput .receive 0))).2 = [e] ∧ e.kind = .discard := by
  obtain ⟨events, h1, h2, h3, h4, hkinds⟩ : ∃ events,
      (∃ x ∈ (@run samplePackage (sampleCore false) events).effects, x.isPublish = true) ∧
      (∀ x ∈ (@run samplePackage (sampleCore false) events).effects,
        x.isHandshakeNotice = false) ∧
      (@run samplePackage (sampleCore false) events).core.phase.ended = false ∧
      (@run samplePackage (sampleCore false) events).core.terminal = false ∧
      (@Core.apply samplePackage (@run samplePackage (sampleCore false) events).core
        (.input (sampleInput .receive 0))).2.map Effect.kind = [.discard] :=
    ⟨sampleOpening ++ [.input (sampleInput .disconnect 7)], by decide +kernel⟩
  obtain ⟨e, he, hk⟩ := List.map_eq_singleton_iff.1 hkinds
  exact ⟨events, e, h1, h2, h3, h4, he, hk⟩

end Sample

end Diameter.Protocol
