import Diameter.Protocol.Runs
import Diameter.Protocol.Order

/-!
# Protocol.Timing

The timers of a core as its executor keeps them. An executor starts a timer on each ArmTimer and
cancels it on the StopTimer that names it, or when it has delivered the expiry and the core has
cleared its record. The timers it has are those the core has on record:

* `Agree live ts`  — the live timers `live` are the records of `ts` that are armed, one for each.
* `Agree.step`     — one act of the core and the executor's part in it keep them so.
* `supervise`      — a run of a core with its executor.
-/

namespace Diameter.Protocol

open Lib

structure LiveTimer where
  kind : TimerKind
  token : Nat
  deadline : Int
deriving DecidableEq, Repr

namespace LiveTimer

/-- The executor cancels a timer. -/
def cancel (live : List LiveTimer) (k : TimerKind) (token : Nat) : List LiveTimer :=
  live.filter fun x => !(x.kind = k && x.token = token)

/-- What the executor does on an effect. -/
def execute (live : List LiveTimer) (e : Effect) : List LiveTimer :=
  match e.kind with
  | .armTimer => ⟨e.timer, e.token, e.deadline⟩ :: live
  | .stopTimer => cancel live e.timer e.token
  | _ => live

/-- A delivered expiry, after which the core `c` may have cleared its record. -/
def delivered (live : List LiveTimer) (c : Core) : Event → List LiveTimer
  | .input i =>
    if i.kind = .timerExpired ∧ (c.timers i.timer).token ≠ i.token
    then cancel live i.timer i.token else live
  | .refresh _ => live

end LiveTimer

/-- A core with its executor's timers. -/
structure Supervised where
  core : Core
  live : List LiveTimer := []

/-- Each kind of timer is live at most once. -/
def Exclusive (live : List LiveTimer) : Prop := (live.map LiveTimer.kind).Nodup

/-- The live timers are those on record. -/
structure Agree (live : List LiveTimer) (ts : Timers) : Prop where
  exclusive : Exclusive live
  recorded : ∀ x, x ∈ live ↔ x.token ≠ 0 ∧ ts x.kind = ⟨x.token, x.deadline⟩

namespace Agree

variable {live : List LiveTimer} {ts : Timers}

theorem cancel_eq (h : Agree live ts) {k : TimerKind} {token : Nat} (ht : (ts k).token ≠ token) :
    LiveTimer.cancel live k token = live := by
  refine List.filter_eq_self.2 fun x hx => ?_
  have hrec := ((h.recorded x).1 hx).2
  simp only [Bool.not_eq_true', Bool.and_eq_false_imp, decide_eq_true_eq, decide_eq_false_iff_not]
  rintro rfl
  rw [hrec] at ht
  exact ht

theorem arm (h : Agree live ts) {k : TimerKind} (hk : (ts k).token = 0) {t : Nat} (ht : t ≠ 0)
    (d : Int) : Agree (⟨k, t, d⟩ :: live) (Function.update ts k ⟨t, d⟩) := by
  have hnew : ∀ x ∈ live, x.kind ≠ k := by
    rintro x hx rfl
    obtain ⟨h0, hrec⟩ := (h.recorded x).1 hx
    rw [hrec] at hk
    exact h0 hk
  refine ⟨List.nodup_cons.2 ⟨?_, h.exclusive⟩, fun x => ?_⟩
  · rintro hmem
    obtain ⟨x, hx, hxk⟩ := List.mem_map.1 hmem
    exact hnew x hx hxk
  · rw [List.mem_cons]
    by_cases hxk : x.kind = k
    · subst hxk
      rw [Function.update_self]
      refine ⟨?_, ?_⟩
      · rintro (hx | hx)
        · rw [hx]
          exact ⟨ht, rfl⟩
        · exact (hnew x hx rfl).elim
      · rintro ⟨-, hrec⟩
        obtain ⟨rfl, rfl⟩ : t = x.token ∧ d = x.deadline := by simpa using hrec
        exact .inl rfl
    · rw [Function.update_of_ne hxk, ← h.recorded]
      refine ⟨?_, .inr⟩
      rintro (hx | hx)
      · exact (hxk (congrArg LiveTimer.kind hx)).elim
      · exact hx

theorem stop (h : Agree live ts) (k : TimerKind) :
    Agree (LiveTimer.cancel live k (ts k).token) (Function.update ts k {}) := by
  refine ⟨h.exclusive.sublist (List.filter_sublist.map _), fun x => ?_⟩
  rw [LiveTimer.cancel, List.mem_filter, h.recorded]
  by_cases hxk : x.kind = k
  · subst hxk
    rw [Function.update_self]
    refine ⟨?_, ?_⟩
    · rintro ⟨⟨-, hrec⟩, hne⟩
      simp [hrec] at hne
    · rintro ⟨h0, hrec⟩
      exact (h0 (congrArg TimerSnapshot.token hrec).symm).elim
  · rw [Function.update_of_ne hxk]
    simp [hxk]

end Agree

/-! ## One call -/

namespace LiveTimer

theorem execute_other {e : Effect} (h1 : e.kind ≠ .armTimer) (h2 : e.kind ≠ .stopTimer)
    (live : List LiveTimer) : execute live e = live := by
  unfold execute
  split
  · exact (h1 ‹_›).elim
  · exact (h2 ‹_›).elim
  · rfl

theorem foldl_execute_bare (es : List Effect) (live : List LiveTimer) :
    (es.map Effect.bare).foldl execute live = es.foldl execute live := by
  rw [List.foldl_map]
  rfl

end LiveTimer

/-- The executor has followed the effects on the desk, from the timers `live`. -/
structure Desk.Timed (live : List LiveTimer) (d : Desk) : Prop where
  agree : Agree (d.effects.foldl LiveTimer.execute live) d.timers
  always : ∀ es, es <+: d.effects → Exclusive (es.foldl LiveTimer.execute live)

namespace Desk.Timed

open LiveTimer

variable {i : Input} {live : List LiveTimer} {d d' : Desk}

theorem emit (h : d.Timed live) {e : Effect} {ts : Timers} (hd : d'.effects = d.effects ++ [e])
    (ht : d'.timers = ts)
    (ha : Agree (execute (d.effects.foldl execute live) e) ts) : d'.Timed live := by
  have hfold : d'.effects.foldl execute live = execute (d.effects.foldl execute live) e := by
    rw [hd, List.foldl_append, List.foldl_cons, List.foldl_nil]
  refine ⟨by rwa [hfold, ht], fun es hes => ?_⟩
  rw [hd, List.prefix_concat_iff] at hes
  rcases hes with rfl | hes
  · rw [← hd, hfold]
    exact ha.exclusive
  · exact h.always es hes

theorem quiet (h : d.Timed live) {e : Effect} (hd : d'.effects = d.effects ++ [e])
    (ht : d'.timers = d.timers) (h1 : e.kind ≠ .armTimer) (h2 : e.kind ≠ .stopTimer) :
    d'.Timed live := by
  refine h.emit hd ht ?_
  rw [execute_other h1 h2]
  exact h.agree

theorem step (ha : Act i d d') (h : d.Timed live) : d'.Timed live := by
  cases ha with
  | inert he => refine h.quiet rfl rfl ?_ ?_ <;> intro hk <;> simp [Effect.Inert, hk] at he
  | issue he _ => refine h.quiet rfl rfl ?_ ?_ <;> intro hk <;> simp [EffectKind.issues, hk] at he
  | @arm k _ e hv hk htimer htoken hdead =>
    subst htimer hdead
    refine h.emit rfl rfl ?_
    simp only [execute, hk, htoken]
    exact h.agree.arm hv (Nat.succ_ne_zero _) _
  | @stop k e hv hk htimer htoken =>
    subst htimer
    refine h.emit rfl rfl ?_
    simp only [execute, hk, htoken]
    exact h.agree.stop _
  | send he _ | select he => refine h.quiet rfl rfl ?_ ?_ <;> rw [he.kind] <;> decide
  | announce _ hk _ _ | decide _ _ hk => refine h.quiet rfl rfl ?_ ?_ <;> rw [hk] <;> decide
  | take | finish | queue | note | closing | freeze => exact ⟨h.agree, h.always⟩

end Desk.Timed

/-! ## Runs -/

variable [BasePackage]

/-- One call, the executor's work on its effects, and what it makes of a delivered expiry. -/
def Supervised.next (s : Supervised) (e : Event) : Supervised where
  core := (s.core.apply e).1
  live := LiveTimer.delivered ((s.core.apply e).2.foldl LiveTimer.execute s.live)
    (s.core.apply e).1 e

def supervise (c : Core) (events : List Event) : Supervised :=
  events.foldl Supervised.next { core := c }

theorem supervise_concat (c : Core) (events : List Event) (e : Event) :
    supervise c (events ++ [e]) = (supervise c events).next e := by
  simp [supervise]

theorem supervise_core (c : Core) (events : List Event) :
    (supervise c events).core = (run c events).core := by
  induction events using List.reverseRecOn with
  | nil => rfl
  | append_singleton events e ih =>
    rw [supervise_concat, run_concat]
    show ((supervise c events).core.apply e).1 = ((run c events).core.apply e).1
    rw [ih]

/-- A core that has ended has no timers. -/
def Stilled (s : State) : Prop := s.phase.ended = true → ∀ k, (s.timers k).token = 0

namespace Stilled

theorem step {i : Input} {w w' : Work} (hm : Move i w w') (hw : Stilled w.state) :
    Stilled w'.state := by
  have hlive : ∀ {s : State}, w.Running → s.phase = w.state.phase → Stilled s := by
    intro s hr hp he
    rw [hp] at he
    exact (Bool.false_ne_true (hr.2.symm.trans he)).elim
  cases hm
  case arm hr _ | stop hr _ | candidate hr _ _ _ _ _ _ _ _ _ | releaseSupervised hr _ _ _ _ _ _ _
    | probe hr _ _ _ _ _ _ _ | published hr _ _ _ | retransmit hr _ _ _ _ _ _ _
    | unsupervise hr =>
    exact hlive hr rfl
  case startInitiator | activate | admitted | beginClosing => nofun
  case terminate | disconnected => exact fun _ => Timers.all_off _
  all_goals exact hw

theorem of_step {s s' : State} {e : Event} {es : List Effect} (h : Step s e es s')
    (hs : Stilled s) : Stilled s' := by
  cases h with
  | input hm => exact hm.invariant (P := fun w => Stilled w.state) step hs
  | late => exact hs
  | refresh hr =>
    cases hr with
    | ignored => exact hs
    | absent _ hl _ =>
      intro he
      dsimp only at he
      split at he
      · cases he
      · exact (Bool.false_ne_true (hl.symm.trans he)).elim
    | present _ hl =>
      intro he
      dsimp only at he
      split at he <;> cases he

end Stilled

theorem run_stilled {c : Core} (hc : Created c) (events : List Event) :
    Stilled (run c events).core.state := by
  have h0 : Stilled c.state := by
    intro he
    rcases hc.cases_init with ⟨cfg, rfl⟩ | ⟨cfg, peer, -, rfl⟩
    · cases he
    · cases he
  exact run_invariant (P := fun r => Stilled r.core.state) hc h0
    (fun _ _ _ hstep hs => hs.of_step hstep) events

theorem supervised_apply {c : Core} (ho : c.InOrder) (hwf : c.state.WF) {live : List LiveTimer}
    (hlive : Agree live c.timers) (e : Event) :
    Agree ((c.apply e).2.foldl LiveTimer.execute live) (c.apply e).1.timers ∧
      ∀ es, es <+: (c.apply e).2 → Exclusive (es.foldl LiveTimer.execute live) := by
  cases e with
  | refresh peer =>
    have ht : (c.apply (.refresh peer)).1.timers = c.timers := by
      show (c.refreshAdmission peer).timers = c.timers
      unfold Core.refreshAdmission
      split <;> split <;> rfl
    refine ⟨by rw [ht]; exact hlive, fun es hes => ?_⟩
    rw [List.prefix_nil.1 hes]
    exact hlive.exclusive
  | input i =>
    obtain ⟨u, hacts⟩ := Batch.handleInto_handles (i := i) (b := { core := c }) ho.orderly hwf []
    have h0 : (Batch.desk { core := c } [] none).Timed live := by
      refine ⟨hlive, fun es hes => ?_⟩
      rw [List.prefix_nil.1 hes]
      exact hlive.exclusive
    have h := hacts.invariant Desk.Timed.step h0
    refine ⟨?_, fun es hes => ?_⟩
    · rw [← LiveTimer.foldl_execute_bare]
      exact h.agree
    · rw [← LiveTimer.foldl_execute_bare]
      exact h.always _ (hes.map _)

theorem supervise_agree {c : Core} (hc : Created c) (events : List Event) :
    Agree (supervise c events).live (supervise c events).core.timers := by
  induction events using List.reverseRecOn with
  | nil =>
    have h0 : ∀ k, (c.timers k).token = 0 := by
      intro k
      rcases hc.cases_init with ⟨cfg, rfl⟩ | ⟨cfg, peer, -, rfl⟩
      · rfl
      · rfl
    refine ⟨List.nodup_nil, fun x => ⟨nofun, ?_⟩⟩
    rintro ⟨hx, hrec⟩
    exact (hx ((congrArg TimerSnapshot.token hrec).symm.trans (h0 _))).elim
  | append_singleton events e ih =>
    rw [supervise_concat]
    have ho := run_inOrder hc events
    have hwf := run_wf hc events
    rw [← supervise_core] at ho hwf
    have h := (supervised_apply ho hwf ih e).1
    cases e with
    | refresh peer => exact h
    | input i =>
      show Agree (LiveTimer.delivered _ _ (.input i)) _
      unfold LiveTimer.delivered
      dsimp only
      split
      next hi =>
        rw [h.cancel_eq hi.2]
        exact h
      · exact h

/-- The timers of a core and those of its executor, in every run: no kind is ever live twice, also
not between two effects of a call; the live timers are those the core has on record; and a core that
has ended has none. -/
theorem timer_accounting {c : Core} (hc : Created c) (events : List Event) :
    (supervise c events).core = (run c events).core ∧
    Exclusive (supervise c events).live ∧
    (∀ e es, es <+: ((supervise c events).core.apply e).2 →
      Exclusive (es.foldl LiveTimer.execute (supervise c events).live)) ∧
    (∀ x : LiveTimer, x ∈ (supervise c events).live ↔
      x.token ≠ 0 ∧ (supervise c events).core.timers x.kind = ⟨x.token, x.deadline⟩) ∧
    ((supervise c events).core.phase.ended = true → (supervise c events).live = []) := by
  have hagree := supervise_agree hc events
  have ho := run_inOrder hc events
  have hwf := run_wf hc events
  have hstill := run_stilled hc events
  rw [← supervise_core] at ho hwf hstill
  refine ⟨supervise_core c events, hagree.exclusive,
    fun e => (supervised_apply ho hwf hagree e).2, hagree.recorded, fun he => ?_⟩
  refine List.eq_nil_iff_forall_not_mem.2 fun x hx => ?_
  obtain ⟨h0, hrec⟩ := (hagree.recorded x).1 hx
  exact h0 ((congrArg TimerSnapshot.token hrec).symm.trans (hstill he x.kind))

/-- A responder with a handshake timeout. -/
def timedCore : Core :=
  @Core.init samplePackage { sampleConfig false with handshakeTimeout := 5 }

omit [BasePackage] in
theorem timedCore_created : @Created samplePackage timedCore :=
  @Created.new samplePackage { sampleConfig false with handshakeTimeout := 5 } _ rfl

omit [BasePackage] in
/-- A core that has been started has the timer of its handshake. -/
theorem timer_accounting_started :
    (@supervise samplePackage timedCore [.input (sampleInput .start 0)]).live =
      [⟨.handshake, 1, 5⟩] ∧
    (@supervise samplePackage timedCore [.input (sampleInput .start 0)]).core.timers .handshake =
      ⟨1, 5⟩ := by
  have hlive : (@supervise samplePackage timedCore [.input (sampleInput .start 0)]).live =
      [⟨.handshake, 1, 5⟩] := by decide +kernel
  have h := (@timer_accounting samplePackage _ timedCore_created
    [.input (sampleInput .start 0)]).2.2.2.1 ⟨.handshake, 1, 5⟩
  rw [hlive] at h
  exact ⟨hlive, (h.1 (List.mem_singleton.2 rfl)).2⟩

end Diameter.Protocol
