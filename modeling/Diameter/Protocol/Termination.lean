import Diameter.Protocol.Runs

/-!
# Protocol.Termination

The end of a connection is final. `ended_step`: a core that is closed or retired stays so, and
gives back identifiers only, except when the hook of a timed-out CER continues. `closing_batch`:
the input that closes a core emits one `Close`, and after it only reports.
-/

namespace Diameter.Protocol

open Lib BasePackage

variable {es : List Effect}

variable [BasePackage] {i : Input}
variable {w' : Work} {s s' : State} {e : Event}

/-! ## After the end -/

theorem Move.ended {w : Work} (h : Move i w w') (hn : ¬ w.Running) (hs : w.sealed = false) :
    w'.sealed = false ∧ w'.state.phase = w.state.phase ∧ w'.state.lateCER = w.state.lateCER ∧
      ∃ es, w'.effects = w.effects ++ es ∧ ∀ e ∈ es, e.kind = .releaseIDs := by
  have hnil : ∃ es, w.effects = w.effects ++ es ∧ ∀ e ∈ es, e.kind = .releaseIDs :=
    ⟨[], (List.append_nil _).symm, List.forall_mem_nil _⟩
  cases h
  case quiet hr =>
    rcases hr with hr | hr
    · exact (hn hr).elim
    · rw [hs] at hr
      cases hr.1
  case advance | expired | reserveFailed | progress => exact ⟨hs, rfl, rfl, hnil⟩
  case returned hk _ =>
    refine ⟨hs, rfl, rfl, _, rfl, ?_⟩
    intro e he
    rw [List.mem_singleton.1 he]
    exact hk
  case finishWrite hr => exact ⟨hs, rfl, rfl, _, rfl, hr.1⟩
  case skipped hr _ => exact ⟨hs, rfl, rfl, _, rfl, hr.1⟩
  case skippedProbe hr _ _ _ => exact ⟨hs, rfl, rfl, _, rfl, hr.1⟩
  all_goals exact absurd ‹w.Running› hn

theorem Moves.ended {w : Work} (h : Moves i w w') (hp : w.state.phase.ended = true)
    (hs : w.sealed = false) :
    w'.state.phase = w.state.phase ∧ w'.state.lateCER = w.state.lateCER ∧
      ∃ es, w'.effects = w.effects ++ es ∧ ∀ e ∈ es, e.kind = .releaseIDs := by
  induction h with
  | refl => exact ⟨rfl, rfl, [], (List.append_nil _).symm, List.forall_mem_nil _⟩
  | @cons w w1 w2 hm _ ih =>
    have hn : ¬ w.Running := by
      intro hr
      have hl : w.state.phase.ended = false := hr.2
      rw [hp] at hl
      cases hl
    obtain ⟨hs1, hp1, ht1, es1, he1, hk1⟩ := hm.ended hn hs
    obtain ⟨hp2, ht2, es2, he2, hk2⟩ := ih (hp1 ▸ hp) hs1
    refine ⟨hp2.trans hp1, ht2.trans ht1, es1 ++ es2, ?_, ?_⟩
    · rw [he2, he1, List.append_assoc]
    intro e he
    rcases List.mem_append.1 he with he | he
    · exact hk1 e he
    · exact hk2 e he

theorem ended_step (h : Step s e es s') (hp : s.phase.ended = true) :
    s'.phase = s.phase ∧
    ((∀ x ∈ es, x.kind = .releaseIDs) ∧ s'.lateCER = s.lateCER ∨
      s.phase = .closed ∧ s.lateCER ≠ 0 ∧ s'.lateCER = 0 ∧ ∃ i, e = .input i ∧
        i.kind = .continue ∧ i.token = s.lateCER ∧ LateEffects i es) := by
  cases h with
  | input hm =>
    obtain ⟨h1, h2, es, he, hk⟩ := hm.ended hp rfl
    refine ⟨h1, .inl ⟨?_, h2⟩⟩
    rw [he]
    exact hk
  | late hc hk ht h0 hl => exact ⟨rfl, .inr ⟨hc, h0, rfl, _, rfl, hk, ht, hl⟩⟩
  | refresh h =>
    have hlive : ¬ s.live := by
      intro hl
      have hl : s.phase.ended = false := hl
      rw [hp] at hl
      cases hl
    cases h with
    | ignored => exact ⟨rfl, .inl ⟨List.forall_mem_nil _, rfl⟩⟩
    | absent _ hl => exact (hlive hl).elim
    | present _ hl => exact (hlive hl).elim

/-! ## The batch that closes -/

/-- One `Close`, and after it only reports. -/
def ClosedOnce (es : List Effect) : Prop :=
  ∃ before close after, es = before ++ close :: after ∧ (∀ e ∈ before, e.kind ≠ .close) ∧
    close.kind = .close ∧ ∀ e ∈ after, e.kind = .notify

section

omit [BasePackage]

theorem ClosedOnce.prepend {es es' : List Effect} (h : ClosedOnce es')
    (hes : ∀ e ∈ es, e.kind ≠ .close) : ClosedOnce (es ++ es') := by
  obtain ⟨before, close, after, rfl, hb, hc, ha⟩ := h
  refine ⟨es ++ before, close, after, by rw [List.append_assoc], ?_, hc, ha⟩
  intro e he
  rcases List.mem_append.1 he with he | he
  · exact hes e he
  · exact hb e he

theorem ClosedOnce.report {e : Effect} (h : ClosedOnce es) (he : e.kind = .notify) :
    ClosedOnce (es ++ [e]) := by
  obtain ⟨before, close, after, rfl, hb, hc, ha⟩ := h
  refine ⟨before, close, after ++ [e], by simp, hb, hc, ?_⟩
  intro x hx
  rcases List.mem_append.1 hx with hx | hx
  · exact ha x hx
  · rw [List.mem_singleton.1 hx]
    exact he

theorem TerminalEffects.closedOnce (h : TerminalEffects s .closed es) :
    ClosedOnce es := by
  obtain ⟨stops, rels, cancels, closes, hs, ds, rfl, h1, h2, h3, h4, h5, -, h7, -⟩ := h.split
  rw [if_pos rfl] at h4
  obtain ⟨close, rfl, hclose⟩ := List.map_eq_singleton_iff.1 h4
  refine ⟨stops ++ rels ++ cancels, close, hs ++ ds, by simp, ?_, hclose, ?_⟩
  · intro e he
    rcases List.mem_append.1 he with he | he
    · rcases List.mem_append.1 he with he | he
      · rw [h1 e he]
        simp
      · rw [h2.1 e he]
        simp
    · rw [h3 e he]
      simp
  · intro e he
    rcases List.mem_append.1 he with he | he
    · exact (h5 e he).1
    · exact (h7 e he).1

theorem Effect.Quiet.not_close {e : Effect} (h : e.Quiet) : e.kind ≠ .close := by
  intro hk
  simp [Effect.Quiet, hk] at h

end

/-- What is known of an input while its moves are made: nothing is closed before the end, and the
end closes once. -/
structure Closing (w : Work) : Prop where
  before : w.sealed = false → w.state.live ∧ ∀ e ∈ w.effects, e.kind ≠ .close
  after : w.sealed = true → w.state.phase = .closed → ClosedOnce w.effects

theorem Closing.step {w : Work} (h : Move i w w') (hw : Closing w) : Closing w' := by
  by_cases hs : w.sealed = true
  · have hn : ¬ w.Running := fun h => by
      have h := h.1
      rw [hs] at h
      cases h
    cases h
    case quiet hr =>
      refine ⟨fun h => ?_, fun _ hp => ?_⟩
      · rw [show w.sealed = false from h] at hs
        cases hs
      rcases hr with hr | hr
      · exact (hn hr).elim
      · exact (hw.after hs hp).report hr.2
    case advance | expired => exact ⟨hw.before, hw.after⟩
    all_goals first
      | exact absurd ‹w.Running› hn
      | exact absurd (hs.symm.trans ‹w.sealed = false›) (by simp)
  · rw [Bool.not_eq_true] at hs
    obtain ⟨hl, he⟩ := hw.before hs
    have hmany : ∀ {w1 : Work} (es : List Effect), w1.sealed = false → w1.state.live →
        w1.effects = w.effects ++ es → (∀ e ∈ es, e.kind ≠ .close) → Closing w1 := by
      intro w1 es hs1 hl1 he1 hes
      refine ⟨fun _ => ⟨hl1, ?_⟩, fun h => ?_⟩
      · intro e h
        rw [he1] at h
        rcases List.mem_append.1 h with h | h
        · exact he e h
        · exact hes e h
      · rw [hs1] at h
        cases h
    have hone : ∀ {w1 : Work} {e : Effect} {k : EffectKind}, w1.sealed = false → w1.state.live →
        w1.effects = w.effects ++ [e] → e.kind = k → k ≠ .close → Closing w1 := by
      intro w1 e k hs1 hl1 he1 hk hne
      refine hmany [e] hs1 hl1 he1 fun x hx => ?_
      rw [List.mem_singleton.1 hx, hk]
      exact hne
    have hrel : ∀ {w1 : Work} {es : List Effect} {l : List Reservation}, w1.sealed = false →
        w1.state.live → w1.effects = w.effects ++ es → Releases l es → Closing w1 := by
      intro w1 es l hs1 hl1 he1 hr
      refine hmany es hs1 hl1 he1 fun x hx => ?_
      rw [hr.1 x hx]
      simp
    cases h
    case terminate phase es _ hp ht =>
      refine ⟨(fun h => by cases h), fun _ hph => ?_⟩
      obtain rfl : phase = .closed := hph
      exact ht.closedOnce.prepend he
    case disconnected ht hn =>
      refine ⟨(fun h => by cases h), fun _ _ => ?_⟩
      exact (ht.closedOnce.prepend he).report hn.1
    case quiet hq _ => exact hone hs hl rfl rfl hq.not_close
    case beginClosing e es n l _ _ _ _ _ _ hes hk _ =>
      refine hmany (es ++ [e]) hs rfl (List.append_assoc _ _ _) fun x hx => ?_
      rcases List.mem_append.1 hx with hx | hx
      · exact (hes x hx).not_close
      · rw [List.mem_singleton.1 hx, hk]
        simp
    case releaseAdmission hn | releaseSupervised hn => exact hone hs hl rfl hn.1 (by decide)
    case releaseRecovering hn hk _ =>
      refine hmany _ hs hl rfl fun x hx => ?_
      rcases List.mem_pair.1 hx with rfl | rfl
      · rw [hn.1]
        decide
      · rw [hk]
        decide
    case credit hr | settleCER hr | dpaSettled hr | finishWrite hr => exact hrel hs hl rfl hr
    case skipped hr _ => exact hrel hs hl rfl hr
    case skippedProbe hr _ _ _ => exact hrel hs hl rfl hr
    case startInitiator | activate | admitted =>
      first
        | exact hmany [] hs rfl (List.append_nil _).symm (List.forall_mem_nil _)
        | exact hone hs rfl rfl (by assumption) (by decide)
    case request he | retransmit he => exact hone hs hl rfl he.kind (by decide)
    all_goals first
      | exact hmany [] hs hl (List.append_nil _).symm (List.forall_mem_nil _)
      | exact hone hs hl rfl (by assumption) (by decide)

theorem closing_batch (h : Step s e es s') (hl : s.live)
    (hp : s'.phase = .closed) : ClosedOnce es := by
  cases h with
  | input hm =>
    have hw := hm.invariant Closing.step
      ⟨fun _ => ⟨hl, List.forall_mem_nil _⟩, fun h => by cases h⟩
    refine hw.after ?_ hp
    by_contra hs
    have hlive : Phase.ended _ = false := (hw.before (by simpa using hs)).1
    rw [hp] at hlive
    cases hlive
  | late hc =>
    have hl : s.phase.ended = false := hl
    rw [hc] at hl
    cases hl
  | refresh h =>
    exfalso
    have hl : s.phase.ended = false := hl
    cases h with
    | ignored =>
      rw [hp] at hl
      cases hl
    | absent =>
      dsimp only at hp
      split at hp
      · cases hp
      · rw [hp] at hl
        cases hl
    | present =>
      dsimp only at hp
      split at hp <;> cases hp

/-! ## The guarantee -/

/-- The connection ended because its handshake timed out: the token of the saved CER is one whose
handshake expired. -/
theorem late_of_timeout (h : Step s e es s') (h0 : s.lateCER = 0)
    (h' : s'.lateCER ≠ 0) : ∃ i, e = .input i ∧ i.HandshakeExpired := by
  cases h with
  | @input i w hm =>
    refine ⟨i, rfl, ?_⟩
    by_contra hne
    refine h' (hm.invariant (P := fun w => w.state.lateCER = 0) ?_ h0)
    intro w w' hm hw
    cases hm
    case keepCER hexp => exact (hne hexp).elim
    all_goals exact hw
  | late => exact (h' rfl).elim
  | refresh h => cases h <;> exact (h' h0).elim

omit [BasePackage] in
theorem ClosedOnce.of_bare (h : ClosedOnce (es.map Effect.bare)) : ClosedOnce es := by
  obtain ⟨before, close, after, he, hb, hc, ha⟩ := h
  obtain ⟨before', rest, rfl, rfl, hrest⟩ := List.map_eq_append_iff.1 he
  obtain ⟨close', after', rfl, rfl, rfl⟩ := List.map_eq_cons_iff.1 hrest
  refine ⟨before', close', after', rfl, ?_, hc, ?_⟩
  · intro e he
    exact hb e.bare (List.mem_map_of_mem he)
  · intro e he
    exact ha e.bare (List.mem_map_of_mem he)

/-- A batch that only gives identifiers back. -/
def OnlyReleases (b : Event × List Effect) : Prop := ∀ e ∈ b.2, e.kind = .releaseIDs

/-- The one other batch of an ended core: the hook of the saved CER `t` continues. -/
def LateContinuation (t : Nat) (b : Event × List Effect) : Prop :=
  ∃ i, b.1 = .input i ∧ i.kind = .continue ∧ i.token = t ∧ t ≠ 0 ∧
    b.2.map Effect.kind = [.close, .notify]

/-- The batches of a core that ended with the late token `t`, up to a state whose token is `t'`. -/
def Aftermath (t t' : Nat) (log : List (Event × List Effect)) : Prop :=
  (∀ b ∈ log, OnlyReleases b) ∧ (t' = t ∨ t' = 0) ∨
    t' = 0 ∧ ∃ pre b post, log = pre ++ b :: post ∧ (∀ b ∈ pre ++ post, OnlyReleases b) ∧
      LateContinuation t b

theorem Aftermath.next {r : Run} {log : List (Event × List Effect)} {t : Nat}
    (h : Aftermath t r.core.lateCERToken log) (hwf : r.core.state.WF)
    (hp : r.core.phase.ended = true) : (r.next e).core.phase = r.core.phase ∧
      Aftermath t (r.next e).core.lateCERToken (log ++ [(e, (r.core.apply e).2)]) := by
  obtain ⟨hphase, hstep⟩ := ended_step (apply_step hwf e) hp
  refine ⟨hphase, ?_⟩
  have hbare : (∀ x ∈ (r.core.apply e).2.map Effect.bare, x.kind = .releaseIDs) →
      OnlyReleases (e, (r.core.apply e).2) :=
    fun hk x hx => hk x.bare (List.mem_map_of_mem hx)
  rcases hstep with ⟨hk, ht⟩ | ⟨hclosed, h0, ht, i, he, hk, htok, hlate⟩
  · have ht : (r.next e).core.lateCERToken = r.core.lateCERToken := ht
    rw [ht]
    rcases h with ⟨hall, ht'⟩ | ⟨ht', pre, b, post, rfl, hall, hb⟩
    · refine .inl ⟨?_, ht'⟩
      intro b hb
      rcases List.mem_append.1 hb with hb | hb
      · exact hall b hb
      · rw [List.mem_singleton.1 hb]
        exact hbare hk
    · refine .inr ⟨ht', pre, b, post ++ [(e, (r.core.apply e).2)], by simp, ?_, hb⟩
      intro b hb
      rw [← List.append_assoc] at hb
      rcases List.mem_append.1 hb with hb | hb
      · exact hall b hb
      · rw [List.mem_singleton.1 hb]
        exact hbare hk
  · have ht : (r.next e).core.lateCERToken = 0 := ht
    have h0 : r.core.lateCERToken ≠ 0 := h0
    rw [ht]
    rcases h with ⟨hall, ht'⟩ | ⟨ht', -⟩
    · have ht' : r.core.lateCERToken = t := ht'.resolve_right h0
      unfold LateEffects at hlate
      split at hlate
      · refine .inl ⟨?_, .inr rfl⟩
        intro b hb
        rcases List.mem_append.1 hb with hb | hb
        · exact hall b hb
        rw [List.mem_singleton.1 hb]
        refine hbare ?_
        rw [hlate]
        exact List.forall_mem_nil _
      · obtain ⟨close, notice, hes, hc, hn, -, -⟩ := hlate
        refine .inr ⟨rfl, log, (e, (r.core.apply e).2), [], rfl, ?_, i, he, hk, ?_, ht' ▸ h0, ?_⟩
        · rw [List.append_nil]
          exact hall
        · rw [← ht']
          exact htok
        have hkinds := congrArg (List.map Effect.kind) hes
        rw [List.map_map] at hkinds
        refine Eq.trans ?_ (hkinds.trans (by simp [hc, hn]))
        rfl
    · exact (h0 ht').elim

theorem late_run {c : Core} (hc : Created c) (events : List Event) :
    (run c events).core.lateCERToken ≠ 0 →
      ∃ j es, (Event.input j, es) ∈ (run c events).log ∧ j.HandshakeExpired := by
  refine run_invariant (P := fun r => r.core.lateCERToken ≠ 0 →
    ∃ j es, (Event.input j, es) ∈ r.log ∧ j.HandshakeExpired) hc ?_ ?_ events
  · intro h
    rcases hc.cases_init with ⟨cfg, rfl⟩ | ⟨cfg, peer, -, rfl⟩
    · exact (h rfl).elim
    refine (h ?_).elim
    unfold Core.refreshAdmission
    dsimp only
    split <;> rfl
  · intro r e _ hstep ih h
    by_cases h0 : r.core.lateCERToken = 0
    · obtain ⟨i, rfl, hexp⟩ := late_of_timeout hstep h0 h
      exact ⟨i, _, List.mem_append_right _ (List.mem_singleton_self _), hexp⟩
    · obtain ⟨j, es, hmem, hexp⟩ := ih h0
      exact ⟨j, es, List.mem_append_left _ hmem, hexp⟩

theorem aftermath_run {c : Core} (hc : Created c) (events later : List Event)
    (hp : (run c events).core.phase.ended = true) :
    (run c (events ++ later)).core.phase = (run c events).core.phase ∧
      ∃ log, (run c (events ++ later)).log = (run c events).log ++ log ∧
        Aftermath (run c events).core.lateCERToken (run c (events ++ later)).core.lateCERToken
          log := by
  induction later using List.reverseRecOn with
  | nil =>
    rw [List.append_nil]
    exact ⟨rfl, [], (List.append_nil _).symm,
      .inl ⟨List.forall_mem_nil _, .inl rfl⟩⟩
  | append_singleton later e ih =>
    obtain ⟨hphase, log, hlog, hafter⟩ := ih
    rw [← List.append_assoc, run_concat]
    have hnext := hafter.next (e := e) (run_wf hc _) (hphase ▸ hp)
    refine ⟨hnext.1.trans hphase, _, ?_, hnext.2⟩
    rw [Run.next, hlog, List.append_assoc]

/-- A core that has ended stays as it is and gives back identifiers only, except that the hook of a
CER whose handshake timed out may continue once. The batch that closes a core holds one `Close`,
and after it only reports. -/
theorem termination_absorbing {c : Core} (hc : Created c) (events : List Event) :
    ((run c events).core.phase.ended = true → ∀ later : List Event,
      (run c (events ++ later)).core.phase = (run c events).core.phase ∧
      ∃ log, (run c (events ++ later)).log = (run c events).log ++ log ∧
        ((∀ b ∈ log, OnlyReleases b) ∨
          (∃ j es, (Event.input j, es) ∈ (run c events).log ∧ j.HandshakeExpired) ∧
            ∃ pre b post, log = pre ++ b :: post ∧ (∀ b ∈ pre ++ post, OnlyReleases b) ∧
              LateContinuation (run c events).core.lateCERToken b)) ∧
    (∀ e : Event, (run c events).core.phase.ended = false →
      (run c (events ++ [e])).core.phase = .closed →
        ClosedOnce ((run c events).core.apply e).2) := by
  refine ⟨fun hp later => ?_, fun e hl hp => ?_⟩
  · obtain ⟨hphase, log, hlog, hafter⟩ := aftermath_run hc events later hp
    refine ⟨hphase, log, hlog, ?_⟩
    rcases hafter with ⟨hall, -⟩ | ⟨-, pre, b, post, hsplit, hall, hlate⟩
    · exact .inl hall
    · obtain ⟨i, hi, hk, ht, h0, hes⟩ := hlate
      exact .inr ⟨late_run hc events h0, pre, b, post, hsplit, hall, i, hi, hk, ht, h0, hes⟩
  · rw [run_concat] at hp
    exact ClosedOnce.of_bare (closing_batch (apply_step (run_wf hc events) e) hl hp)

omit [BasePackage] in
/-- A core that was told to abort before its handshake. -/
theorem termination_absorbing_aborted :
    (@run samplePackage (sampleCore false)
      ([.input (sampleInput .abort 0)] ++ [.input (sampleInput .start 0)])).core.phase =
      .closed := by
  have hclosed : (@run samplePackage (sampleCore false)
      [.input (sampleInput .abort 0)]).core.phase = .closed := by decide +kernel
  have h := (@termination_absorbing samplePackage _ (sampleCore_created false)
    [.input (sampleInput .abort 0)]).1 (by rw [hclosed]; rfl) [.input (sampleInput .start 0)]
  exact h.1.trans hclosed

end Diameter.Protocol
