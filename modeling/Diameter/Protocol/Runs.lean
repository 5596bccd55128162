import Diameter.Base.Acceptable
import Diameter.Base.Package
import Diameter.Protocol.RefineHandle

/-!
# Protocol.Runs

Runs of a connection core over its abstract states. `Step` says what one call can do: the moves of
an input, the late continuation of a core that is already closed, or `RefreshAdmission`.
`run_invariant` is the induction rule every guarantee over runs is proved with.
-/

namespace Diameter.Protocol

open Lib BasePackage

variable {c : Core}

/-! ## Steps -/

/-- What a late continuation emits, unless its transport is gone. -/
def LateEffects (i : Input) (es : List Effect) : Prop :=
  if i.transportClosed then es = []
  else ∃ close notice, es = [close, notice] ∧ close.kind = .close ∧ notice.kind = .notify ∧
    notice.notification.kind = .protocol ∧ notice.notification.diagnostic = "late-cer"

theorem LateEffects.mem {i : Input} {es : List Effect} (h : LateEffects i es) {x : Effect}
    (hx : x ∈ es) : x.kind = .close ∨ x.kind = .notify ∧ x.notification.kind = .protocol := by
  unfold LateEffects at h
  split at h
  · rw [h] at hx
    exact (List.not_mem_nil hx).elim
  obtain ⟨close, notice, rfl, hc, hn, hk, -⟩ := h
  rcases List.mem_pair.1 hx with rfl | rfl
  · exact .inl hc
  · exact .inr ⟨hn, hk⟩

/-- `RefreshAdmission`, which only a passive responder that has not ended looks at. -/
inductive Refresh (s : State) : State → Prop where
  | ignored : Refresh s s
  | absent {v : Bool} : s.passive = true → s.live →
      (v = true → s.supervised = true ∨ s.passiveWatchdog = true) → Refresh s { s with
      phase := if s.phase = .opened then .preCER else s.phase
      ready := if s.phase = .opened then false else s.ready
      host := [], realm := [], supervised := v }
  | present {h r : Bytes} : s.passive = true → s.live → Refresh s { s with
      phase := if s.phase = .closing then .closing else .opened
      ready := if s.phase = .closing then s.ready else true
      supervised := if s.phase = .closing then s.supervised else false
      host := h, realm := r }

variable [BasePackage]

inductive Step (s : State) : Event → List Effect → State → Prop where
  | input {i : Input} {w : Work} : Moves i ⟨s, [], i.permit, false⟩ w →
      Step s (.input i) w.effects w.state
  | late {i : Input} {es : List Effect} : s.phase = .closed → i.kind = .continue →
      i.token = s.lateCER → s.lateCER ≠ 0 → LateEffects i es →
      Step s (.input i) es { s with lateCER := 0 }
  | refresh {peer : Option PeerClaims} {s' : State} : Refresh s s' → Step s (.refresh peer) [] s'

theorem refreshAdmission_refresh (c : Core) (peer : Option PeerClaims) :
    Refresh c.state (c.refreshAdmission peer).state := by
  unfold Core.refreshAdmission
  cases peer with
  | none =>
    dsimp only
    split
    · exact .ignored
    rename_i h
    simp only [Bool.or_eq_true, Bool.not_eq_true', not_or, Bool.not_eq_false,
      Bool.not_eq_true] at h
    -- The configuration depends on the phase, but only in its watchdog.
    generalize (decide (c.phase = .opened) || decide (c.phase = .preCER)) = pre
    cases pre with
    | true => exact Refresh.absent (s := c.state) h.1 h.2 .inr
    | false => exact Refresh.absent (s := c.state) h.1 h.2 .inl
  | some peer =>
    dsimp only
    split
    · exact .ignored
    rename_i h
    simp only [Bool.or_eq_true, Bool.not_eq_true', not_or, Bool.not_eq_false,
      Bool.not_eq_true] at h
    have hr := Refresh.present (s := c.state) (h := peer.host) (r := peer.realm) h.1
      h.2
    have hs : c.state.phase = c.phase := rfl
    rw [hs] at hr
    split at hr
    next hp =>
      simp only [hp, if_true]
      exact hr
    next hp =>
      simp only [hp, if_false]
      exact hr

omit [BasePackage] in
theorem lateContinue_spec (c : Core) (i : Input) :
    (Batch.lateContinue { core := c } i).core.state = { c.state with lateCER := 0 } ∧
    LateEffects i (Batch.lateContinue { core := c } i).effects := by
  unfold Batch.lateContinue LateEffects
  dsimp only
  split
  · exact ⟨rfl, rfl⟩
  · exact ⟨rfl, _, _, rfl, rfl, rfl, rfl, rfl⟩

omit [BasePackage] in
theorem LateEffects.bare {i : Input} {es : List Effect} (h : LateEffects i es) :
    LateEffects i (es.map Effect.bare) := by
  unfold LateEffects at *
  split at h
  next hc =>
    rw [if_pos hc, h]
    rfl
  next hc =>
    obtain ⟨close, notice, rfl, h1, h2, h3, h4⟩ := h
    rw [if_neg hc]
    exact ⟨_, _, rfl, h1, h2, h3, h4⟩

theorem apply_step (hwf : c.state.WF) (e : Event) :
    Step c.state e ((c.apply e).2.map Effect.bare) (c.apply e).1.state := by
  cases e with
  | refresh peer => exact .refresh (refreshAdmission_refresh c peer)
  | input i =>
    by_cases hlate : i.connection = c.cfg.connection ∧ c.isLate i
    · obtain ⟨hconn, hp, hk, ht, h0⟩ := hlate
      have hb : Batch.handleInto { core := c } i = Batch.lateContinue { core := c } i := by
        unfold Batch.handleInto
        rw [if_neg (by simp [hconn]), if_neg (by simp [hk]), if_neg (by simp [hk]),
          if_pos (by simpa only [Bool.and_eq_true, decide_eq_true_eq] using ⟨⟨⟨hp, hk⟩, ht⟩, h0⟩)]
      show Step c.state (.input i) ((Batch.handleInto { core := c } i).effects.map Effect.bare)
        (Batch.handleInto { core := c } i).core.state
      rw [hb, (lateContinue_spec c i).1]
      exact .late hp hk ht h0 (lateContinue_spec c i).2.bare
    · obtain ⟨q, σ, hm⟩ := Batch.handleInto_reaches (b := { core := c }) hwf hlate
      exact .input (w := Batch.work _ q σ) hm

/-! ## Reachable cores -/

omit [BasePackage] in
theorem State.WF.refresh {s s' : State} (h : Refresh s s') (hs : s.WF) : s'.WF := by
  -- A saved CER makes its core an active responder.
  have hooks : s.passive = true → ∀ t k, s.continuations.lookup t = some k →
      k.repeatedCER = true ∨ k.packet.header.commandCode = BaseCommand.deviceWatchdog.code := by
    intro hp t k hk
    rcases hs.hooks t k hk with hr | hr | ⟨-, -, -, -, hpass, -⟩
    · exact .inl hr
    · exact .inr hr
    · rw [hp] at hpass
      cases hpass
  -- So does one that waits for the peer layer.
  have active : s.passive = true → ¬ s.candidate ≠ 0 := fun hp hc =>
    absurd (hs.choosing hc).active (by simp [hp])
  cases h with
  | ignored => exact hs
  | absent hp _ _ =>
    refine ⟨fun t k hk => ?_, hs.operations, hs.deferred, hs.cerDeferred, hs.tokens,
      fun hc => (active hp hc).elim⟩
    exact (hooks hp t k hk).elim .inl fun h => .inr (.inl h)
  | present hp _ =>
    refine ⟨fun t k hk => ?_, hs.operations, hs.deferred, hs.cerDeferred, hs.tokens,
      fun hc => (active hp hc).elim⟩
    exact (hooks hp t k hk).elim .inl fun h => .inr (.inl h)

theorem Step.wf {s s' : State} {e : Event} {es : List Effect} (h : Step s e es s') (hs : s.WF) :
    s'.WF := by
  cases h with
  | input hm => exact hm.invariant (P := fun w => w.state.WF) State.WF.step hs
  | late =>
    refine ⟨hs.hooks, hs.operations, hs.deferred, hs.cerDeferred, hs.tokens, fun hc => ?_⟩
    have hchoosing := hs.choosing hc
    exact ⟨hchoosing.phase, hchoosing.role, hchoosing.active, hchoosing.hook, hchoosing.latch⟩
  | refresh h => exact hs.refresh h

theorem init_wf (cfg : Config) : (Core.init cfg).state.WF := by
  refine ⟨?_, ?_, ?_, ?_, fun _ => Nat.le_refl _, fun h => (h rfl).elim⟩
  · intro t k h
    cases (GoMap.lookup_empty_eq t).symm.trans h
  · intro t op h
    cases (GoMap.lookup_empty_eq t).symm.trans h
  · intro j h
    cases h
  · intro h
    cases h

theorem new_eq {cfg : Config} (h : new cfg = .ok c) : c = Core.init cfg := by
  unfold new at h
  repeat' split at h
  all_goals cases h
  rfl

theorem Created.cases_init (h : Created c) :
    (∃ cfg, c = Core.init cfg) ∨ ∃ cfg peer, cfg.role = .responder ∧ c = { Core.init cfg with
      passiveResponder := true, passiveWatchdog := cfg.watchdog
      started := true }.refreshAdmission (some peer) := by
  cases h with
  | new h => exact .inl ⟨_, new_eq h⟩
  | @admitted cfg peer _ h =>
    unfold newAdmitted at h
    split at h
    · cases h
    rename_i c' hc
    cases h
    rw [new_eq hc]
    exact .inr ⟨{ cfg with role := .responder }, peer, rfl, rfl⟩

theorem Created.wf (h : Created c) : c.state.WF := by
  rcases h.cases_init with ⟨cfg, rfl⟩ | ⟨cfg, peer, -, rfl⟩
  · exact init_wf cfg
  refine State.WF.refresh (refreshAdmission_refresh _ _) ?_
  have h := init_wf cfg
  refine ⟨?_, h.operations, h.deferred, fun _ => rfl, h.tokens, fun hc => (hc rfl).elim⟩
  intro t k hk
  cases (GoMap.lookup_empty_eq t).symm.trans hk

/-! ## Runs -/

theorem run_concat (c : Core) (events : List Event) (e : Event) :
    run c (events ++ [e]) = (run c events).next e := by
  simp [run]

theorem Run.effects_next (r : Run) (e : Event) :
    (r.next e).effects = r.effects ++ (r.core.apply e).2 := by
  simp [Run.effects, Run.next]

theorem run_wf (hc : Created c) (events : List Event) : (run c events).core.state.WF := by
  induction events using List.reverseRecOn with
  | nil => exact hc.wf
  | append_singleton events e ih =>
    rw [run_concat]
    exact (apply_step ih e).wf ih

theorem run_invariant {P : Run → Prop} (hc : Created c) (h0 : P { core := c })
    (step : ∀ r e, r.core.state.WF →
      Step r.core.state e ((r.core.apply e).2.map Effect.bare) (r.next e).core.state →
      P r → P (r.next e)) (events : List Event) : P (run c events) := by
  induction events using List.reverseRecOn with
  | nil => exact h0
  | append_singleton events e ih =>
    have hwf := run_wf hc events
    rw [run_concat]
    exact step _ e hwf (apply_step hwf e) ih

/-! ## A sample responder -/

section Sample

open Base Dict

omit [BasePackage]

/-- The definitions a CER is read with. -/
def sampleFile : File :=
  { app := [{ id := 0, avp := definitions.filter fun a =>
      ["Host-IP-Address", "Origin-Host", "Origin-Realm", "Origin-State-Id", "Inband-Security-Id",
       "Acct-Application-Id", "Auth-Application-Id", "Vendor-Specific-Application-Id",
       "Vendor-Id"].contains a.name }] }

def sampleDictionary : Dict.Snapshot :=
  (Snapshot.load RangeOrder.insertionOrder emptySnapshot [sampleFile]).toOption.getD emptySnapshot

/-- A responder with one application; `recovery` makes it watch a peer it lost. -/
def sampleConfig (recovery : Bool) : Config where
  connection := ⟨1, 1⟩
  role := .responder
  dictionary := sampleDictionary
  localSettings := configuredSettings 10415 []
  watchdog := recovery
  watchdogInterval := if recovery then minimumTw else 0
  recovery := recovery

@[reducible] def samplePackage : BasePackage := package ⟨1, 2⟩

def sampleCore (recovery : Bool) : Core := @Core.init samplePackage (sampleConfig recovery)

theorem sampleCore_new (recovery : Bool) :
    @new samplePackage (sampleConfig recovery) = .ok (sampleCore recovery) := by
  cases recovery <;> rfl

/-- The input of this kind for the sample connection. -/
def sampleInput (kind : InputKind) (token : Nat) : Input :=
  { kind := kind, connection := ⟨1, 1⟩, token := token }

/-- A core of the same node for a peer that was admitted elsewhere. -/
def sampleAdmitted : Core :=
  @Core.refreshAdmission samplePackage
    { sampleCore false with passiveResponder := true, started := true } (some {})

theorem sampleCore_created (recovery : Bool) : @Created samplePackage (sampleCore recovery) :=
  @Created.new samplePackage _ _ (sampleCore_new recovery)

theorem sampleAdmitted_created : @Created samplePackage sampleAdmitted :=
  @Created.admitted samplePackage (sampleConfig false) {} _ rfl

end Sample

end Diameter.Protocol
