import Diameter.Protocol.ActsHandle
import Diameter.Protocol.Exchanges
import Diameter.Protocol.Results

/-!
# Protocol.Order

Every core that a run reaches is in order (`Core.Orderly`), so that everything it does is an act
(`run_handles`).

* `Vacant` — the timers of the handshake and of a disconnect do not run before they are armed.
* `Retries` — nor does the retry timer while the write it is armed for is not reported: there is
  one such write at most.
-/

namespace Diameter.Protocol

open Lib BasePackage

variable {s : State} {k : TimerKind} {ts : Timers} {i : Input}
variable {n : Nat} {w' : Work} {c : Core} {s' : State} {es : List Effect} {peer : Option PeerClaims}

/-! ## Timers that do not run yet -/

theorem Timers.stop_off (h : (ts k).token = 0) (k' : TimerKind) : ((ts.stop k') k).token = 0 := by
  by_cases hk : k = k'
  · rw [hk, Timers.stop_token]
  · rwa [Timers.stop_of_ne _ hk]

theorem Timers.update_off (h : (ts k).token = 0) {k' : TimerKind} (hk : k ≠ k') (v : TimerSnapshot)
    : (Function.update ts k' v k).token = 0 := by
  rwa [Function.update_of_ne hk]

theorem Timers.foldl_stop_off {ks : List TimerKind} (h : (ts k).token = 0 ∨ k ∈ ks) :
    ((ks.foldl Timers.stop ts) k).token = 0 := by
  induction ks generalizing ts with
  | nil => exact h.resolve_right List.not_mem_nil
  | cons k' ks ih =>
    refine ih ?_
    rcases h with h | h
    · exact .inl (Timers.stop_off h k')
    rcases List.mem_cons.1 h with rfl | h
    · exact .inl (Timers.stop_token _ _)
    · exact .inr h

theorem Timers.all_off (ts : Timers) (k : TimerKind) :
    ((TimerKind.all.foldl Timers.stop ts) k).token = 0 :=
  Timers.foldl_stop_off (.inr (by cases k <;> decide))

theorem State.Rearms.other (h : s.Rearms n ts) (hk : k ≠ .watchdog) :
    ts k = s.timers k := by
  rcases h with ⟨-, d, rfl⟩ | ⟨-, -, rfl⟩
  · rw [Function.update_of_ne hk]
  · rw [Timers.stop_of_ne _ hk]

theorem State.Rearms.off (h : s.Rearms n ts) (hk : k ≠ .watchdog)
    (hoff : (s.timers k).token = 0) : (ts k).token = 0 := by
  rw [h.other hk, hoff]

/-- The timers that are off, while the input `i` is handled. An input that arms one has yet to say
what for. -/
structure Vacant (i : Input) (s : State) : Prop where
  handshake : ¬ (i.kind = .start ∨ i.kind = .beginCER) →
    s.started = false ∨ s.cerDeferred = true → (s.timers .handshake).token = 0
  closing : s.phase ≠ .closing → (s.timers .closing).token = 0
  receiver : i.kind ≠ .disconnect → s.waiting = false → (s.timers .receiverDisconnect).token = 0

namespace Vacant

theorem keep (hs : Vacant i s)
    (ht : ∀ k, k ≠ .watchdog → (s.timers k).token = 0 → (s'.timers k).token = 0)
    (h1 : s'.started = false ∨ s'.cerDeferred = true → s.started = false ∨ s.cerDeferred = true)
    (h2 : s'.phase ≠ .closing → s.phase ≠ .closing) (h3 : s'.waiting = false → s.waiting = false) :
    Vacant i s' :=
  ⟨fun hi h => ht _ (by decide) (hs.handshake hi (h1 h)),
    fun h => ht _ (by decide) (hs.closing (h2 h)),
    fun hi h => ht _ (by decide) (hs.receiver hi (h3 h))⟩

theorem off (h : ∀ k, (s.timers k).token = 0) : Vacant i s :=
  ⟨fun _ _ => h _, fun _ => h _, fun _ _ => h _⟩

theorem step [BasePackage] {w : Work} (hm : Move i w w') (hw : Vacant i w.state) :
    Vacant i w'.state := by
  have hsame : ∀ k : TimerKind, k ≠ .watchdog → (w.state.timers k).token = 0 →
      (w.state.timers k).token = 0 := fun _ _ => id
  have hstop : ∀ k' k : TimerKind, k ≠ .watchdog → (w.state.timers k).token = 0 →
      ((w.state.timers.stop k') k).token = 0 := fun k' k _ h => Timers.stop_off h k'
  cases hm
  case arm k d _ ha =>
    refine ⟨fun hi h => ?_, fun h => ?_, fun hi h => ?_⟩
    · refine Timers.update_off (hw.handshake hi h) ?_ _
      rintro rfl
      exact hi ha.1
    · refine Timers.update_off (hw.closing h) ?_ _
      rintro rfl
      exact ha
    · refine Timers.update_off (hw.receiver hi h) ?_ _
      rintro rfl
      exact hi ha
  case stop k _ _ => exact hw.keep (hstop k) id id id
  case startResponder => exact hw.keep hsame (fun h => .inr (h.resolve_left nofun)) id id
  case startInitiator hp hs _ =>
    refine hw.keep hsame (fun _ => .inl hs) (fun _ => ?_) id
    rw [hp]
    decide
  case reserveCER => exact hw.keep hsame (fun h => .inl (h.resolve_right nofun)) id id
  case candidate =>
    refine hw.keep (fun k hk h => ?_) id id id
    show ((if w.state.policy.peerOwnsDeadline then w.state.timers.stop .handshake
      else w.state.timers) k).token = 0
    split
    · exact Timers.stop_off h _
    · exact h
  case activate hp _ _ _ => exact hw.keep (hstop .handshake) id (fun _ => by rw [hp]; decide) id
  case admitted hp _ =>
    refine hw.keep (fun k hk h => Timers.stop_off (hstop .handshake k hk h) _) id (fun _ => ?_) id
    rcases hp with hp | ⟨hp, -⟩ <;> rw [hp] <;> decide
  case releaseSupervised hr _ =>
    refine hw.keep (fun k hk h => ?_) id id id
    split at hr
    · exact hr.off hk h
    · obtain ⟨-, rfl⟩ := hr
      exact h
  case probe | unsupervise => exact hw.keep (hstop .watchdog) id id id
  case published hr => exact hw.keep (fun k hk h => hr.off hk h) id id id
  case beginClosing isLocal _ _ hp hc hl _ _ _ _ =>
    refine ⟨fun hi h => ?_, fun h => (h rfl).elim, fun hi h => ?_⟩
    · exact (congrArg TimerSnapshot.token (hc.other .handshake (by decide) (by decide))).trans
        (hw.handshake hi h)
    have hwait : w.state.waiting = false := by
      revert h
      show (if isLocal then true else w.state.waiting) = false → _
      split
      · exact nofun
      · exact id
    exact (congrArg TimerSnapshot.token (hc.other .receiverDisconnect (by decide)
      (by decide))).trans (hw.receiver hi hwait)
  case disconnectClosing => exact hw.keep hsame id id nofun
  case terminate | disconnected => exact .off (Timers.all_off _)
  case retransmit => exact hw.keep (hstop .retry) id id id
  all_goals exact hw.keep hsame id id id

end Vacant

/-! ### Inputs that arm one of them -/

namespace Batch

variable {b : Batch}

theorem start_handshake (hdefer : b.core.cerDeferred = true → b.core.started = true)
    (hoff : b.core.started = false → (b.core.timers .handshake).token = 0)
    (hkeep : b.core.cerDeferred = true → (b.core.timers .handshake).token = 0) :
    (b.start i).core.started = false ∨ (b.start i).core.cerDeferred = true →
      ((b.start i).core.timers .handshake).token = 0 := by
  unfold start
  split
  · exact fun h => h.elim hoff hkeep
  rename_i hs
  simp only [Bool.or_eq_true, not_or, Bool.not_eq_true] at hs
  have hcer : b.core.cerDeferred = false := by
    cases h : b.core.cerDeferred with
    | false => rfl
    | true => exact absurd (hdefer h) (by simp [hs.1])
  dsimp only
  obtain ⟨n, ts, harm⟩ := arm_core (b.update fun c => { c with started := true }) .handshake
    i.time b.core.cfg.handshakeTimeout
  have harmed : ∀ c : Core, c.started = true → c.cerDeferred = false →
      c.started = false ∨ c.cerDeferred = true → (c.timers .handshake).token = 0 := by
    intro c h1 h2
    simp [h1, h2]
  split
  · split
    · exact fun _ => hoff hs.1
    · refine harmed _ ?_ ?_
      · exact congrArg Core.started harm
      · exact (congrArg Core.cerDeferred harm).trans hcer
  · refine harmed _ ?_ ?_
    · exact congrArg Core.started harm
    · exact (congrArg Core.cerDeferred harm).trans hcer

theorem beginCER_handshake (hdefer : b.core.cerDeferred = true → b.core.started = true)
    (hkeep : b.core.started = false ∨ b.core.cerDeferred = true →
      (b.core.timers .handshake).token = 0) :
    (b.beginCER i).core.started = false ∨ (b.beginCER i).core.cerDeferred = true →
      ((b.beginCER i).core.timers .handshake).token = 0 := by
  unfold beginCER
  split
  · exact hkeep
  rename_i hd
  simp only [Bool.or_eq_true, not_or, Bool.not_eq_true', Bool.not_eq_false] at hd
  obtain ⟨n, ts, harm⟩ := arm_core (b.update fun c => { c with cerDeferred := false }) .handshake
    i.time b.core.cfg.handshakeTimeout
  intro h
  rcases h with h | h
  · have hst := (congrArg Core.started harm).trans (hdefer hd.1)
    exact (Bool.false_ne_true (h.symm.trans hst)).elim
  · exact (Bool.false_ne_true ((congrArg Core.cerDeferred harm).symm.trans h)).elim

theorem beginClosing_waiting : (b.beginClosing i true).core.disconnectWaiting = true := by
  unfold beginClosing
  dsimp only
  generalize hb : (b.update fun c => { c with
    phase := .closing, ready := false, closeLocal := true, closeRequest := i,
    closeCause := i.cause, serial := b.core.serial + 1, fenceToken := b.core.serial + 1
    disconnectWaiting := if true = true then true else c.disconnectWaiting
    disconnectToken := if true = true then i.token else c.disconnectToken }) = b1
  obtain ⟨n, ts, harm⟩ := arm_core (b1.stop .watchdog) .closing i.time
    (if i.timeout ≤ 0 then (b1.stop .watchdog).core.cfg.closingTimeout else i.timeout)
  have hstop := congrArg Core.disconnectWaiting (stop_core b1 .watchdog)
  refine (congrArg Core.disconnectWaiting harm).trans (hstop.trans ?_)
  rw [← hb]
  rfl

theorem disconnect_receiver (hkeep : b.core.disconnectWaiting = false →
    (b.core.timers .receiverDisconnect).token = 0) :
    (b.disconnect i).core.disconnectWaiting = false →
      ((b.disconnect i).core.timers .receiverDisconnect).token = 0 := by
  unfold disconnect
  split
  · exact hkeep
  split
  · obtain ⟨n, ts, harm⟩ := arm_core (b.update fun c => { c with
      disconnectWaiting := true, disconnectToken := i.token, closeCause := i.cause })
      .receiverDisconnect i.time i.timeout
    intro h
    exact (Bool.false_ne_true (h.symm.trans (congrArg Core.disconnectWaiting harm))).elim
  · split
    · exact hkeep
    · intro h
      exact (Bool.false_ne_true (h.symm.trans beginClosing_waiting)).elim

theorem handleInto_cases [BasePackage] (h1 : i.kind ≠ .reserveResult) (h2 : i.kind ≠ .writeResult)
    (h3 : i.kind ≠ .continue) : b.handleInto i = b ∨
      b.core.phase.ended = false ∧
        b.handleInto i = (b.update fun c => refreshAddresses c i).handleLive i := by
  unfold handleInto
  split
  · exact .inl rfl
  rw [if_neg (by simp [h3])]
  split
  · exact .inl rfl
  next hl => exact .inr ⟨Bool.not_eq_true _ ▸ hl, rfl⟩

end Batch

/-! ## The retry timer -/

namespace Leases

variable {l l' : Leases} {t : Nat}

theorem settle_commands (l : Leases) (r : Nat) : (l.settle r).1.commands = l.commands :=
  drop_commands l r fun _ => rfl

theorem abandonAll_commands (l : Leases) : l.abandonAll.1.commands = l.commands := by
  refine abandonAll_induct (P := fun l' => l'.commands = l.commands) rfl fun l' cmd h => ?_
  unfold abandon
  split
  · refine Eq.trans (drop_commands l' _ ?_) h
    exact fun _ => rfl
  · exact h

theorem exchange_commands (l : Leases) (t : Nat) (k : Control) :
    (l.exchange t k).commands = l.commands ++ [k.command] :=
  List.map_append

theorem send_commands (l : Leases) (t r : Nat) (op : Operation) :
    (l.send t r op).commands = l.commands :=
  map_modify_of_eq (f := fun k : Control => { k with
    writers := k.writers + 1, attempts := k.attempts + 1 }) (fun _ => rfl) l.heap r

/-- A write of a CER that is not reported yet. -/
def Unreported (l : Leases) (t : Nat) : Prop :=
  ∃ op r, l.operations.lookup t = some op ∧ op.reported = false ∧ op.control = some r ∧
    l.commands[r]? = some .capabilitiesExchange

theorem Unreported.congr (h : l'.Unreported t) (hops : l'.operations = l.operations)
    (hcmds : l'.commands = l.commands) : l.Unreported t := by
  unfold Unreported at *
  rwa [hops, hcmds] at h

theorem Unreported.of_append {cmds : List BaseCommand} (h : l'.Unreported t) (hl : l.Balanced)
    (hops : l'.operations = l.operations) (hcmds : l'.commands = l.commands ++ cmds) :
    l.Unreported t := by
  obtain ⟨op, r, hop, hrep, hr, hcmd⟩ := h
  rw [hops] at hop
  refine ⟨op, r, hop, hrep, hr, ?_⟩
  have hlt : r < l.commands.length := by
    unfold commands
    rw [List.length_map]
    exact hl.known t op hop r hr
  rwa [hcmds, List.getElem?_append_left hlt] at hcmd

theorem Unreported.of_insert {op : Operation} (h : l'.Unreported t)
    (hops : l'.operations = l.operations.insert n op) (hcmds : l'.commands = l.commands) :
    t = n ∧ (∃ r, op.control = some r ∧ l.commands[r]? = some .capabilitiesExchange) ∨
      l.Unreported t := by
  obtain ⟨op', r, hop, hrep, hr, hcmd⟩ := h
  rw [hops, GoMap.lookup_insert_eq] at hop
  rw [hcmds] at hcmd
  split at hop
  next ht =>
    cases hop
    exact .inl ⟨ht, r, hr, hcmd⟩
  · exact .inr ⟨op', r, hop, hrep, hr, hcmd⟩

end Leases

/-- The core has not made its CER yet. -/
def State.BeforeCER (s : State) : Prop :=
  (∃ t, s.leases.reservations.lookup t = some .capabilitiesExchange) ∨ s.cerDeferred = true ∨
    s.started = false

structure Retries (s : State) : Prop where
  vacant : ∀ t, s.leases.Unreported t → (s.timers .retry).token = 0
  single : ∀ t t', s.leases.Unreported t → s.leases.Unreported t' → t = t'
  before : s.BeforeCER → (s.timers .retry).token = 0 ∧ ∀ t, ¬ s.leases.Unreported t

namespace Retries

theorem keep (hs : Retries s) (hops : ∀ t, s'.leases.Unreported t → s.leases.Unreported t)
    (ht : (s.timers .retry).token = 0 → (s'.timers .retry).token = 0)
    (hb : s'.BeforeCER → s.BeforeCER) : Retries s' :=
  ⟨fun t h => ht (hs.vacant t (hops t h)), fun t t' h h' => hs.single t t' (hops t h) (hops t' h'),
    fun h => ⟨ht (hs.before (hb h)).1, fun t hu => (hs.before (hb h)).2 t (hops t hu)⟩⟩

theorem of_before (hs : Retries s) (hb : s.BeforeCER)
    (hops : ∀ t, s'.leases.Unreported t → s.leases.Unreported t)
    (ht : (s.timers .retry).token = 0 → (s'.timers .retry).token = 0) : Retries s' := by
  obtain ⟨hoff, hnone⟩ := hs.before hb
  exact ⟨fun _ _ => ht hoff, fun t _ h => (hnone t (hops t h)).elim,
    fun _ => ⟨ht hoff, fun t h => hnone t (hops t h)⟩⟩

theorem of_new (hops : ∀ t, s'.leases.Unreported t → t = n)
    (ht : (s'.timers .retry).token = 0) (hb : ¬ s'.BeforeCER) : Retries s' :=
  ⟨fun _ _ => ht, fun t t' h h' => (hops t h).trans (hops t' h').symm, fun h => (hb h).elim⟩

theorem beforeCER_reserve {cmd : BaseCommand} (hcmd : cmd ≠ .capabilitiesExchange)
    (h : (s.reserve cmd).BeforeCER) : s.BeforeCER := by
  refine h.imp_left fun ⟨t, ht⟩ => ?_
  change (s.leases.reservations.insert (s.serial + 1) cmd).lookup t = _ at ht
  rw [GoMap.lookup_insert_eq] at ht
  split at ht
  · exact (hcmd (Option.some.inj ht)).elim
  · exact ⟨t, ht⟩

theorem beforeCER_same (hres : s'.leases.reservations = s.leases.reservations)
    (h1 : s'.cerDeferred = s.cerDeferred) (h2 : s'.started = s.started) (h : s'.BeforeCER) :
    s.BeforeCER := by
  unfold State.BeforeCER at *
  rwa [hres, h1, h2] at h

theorem beforeCER_erase {t : Nat}
    (hcmds : s'.leases.reservations = s.leases.reservations.erase t)
    (h1 : s'.cerDeferred = s.cerDeferred) (h2 : s'.started = s.started) (h : s'.BeforeCER) :
    s.BeforeCER := by
  unfold State.BeforeCER at *
  rw [hcmds, h1, h2] at h
  refine h.imp_left fun ⟨t', ht'⟩ => ?_
  rw [GoMap.lookup_erase_eq] at ht'
  split at ht'
  · cases ht'
  · exact ⟨t', ht'⟩

theorem not_beforeCER (hx : Exchanges s) {t : Nat}
    (ht : s.leases.reservations.lookup t = some .capabilitiesExchange)
    (hcmds : s'.leases.reservations = s.leases.reservations.erase t)
    (h1 : s'.cerDeferred = s.cerDeferred) (h2 : s'.started = s.started) : ¬ s'.BeforeCER := by
  have hone := hx.single .capabilitiesExchange
  have herase := GoMap.count_erase (fun c => decide (c = BaseCommand.capabilitiesExchange)) ht
  simp only [decide_true, Bool.toNat_true] at herase
  unfold Leases.load at hone
  rintro (⟨t', ht'⟩ | h)
  · rw [hcmds] at ht'
    have hpos := GoMap.count_pos (p := fun c => decide (c = BaseCommand.capabilitiesExchange)) ht'
      (by simp)
    omega
  · rw [h1, h2] at h
    have hnone := hx.paced.capabilities h
    unfold Leases.load at hnone
    omega

theorem step [BasePackage] {w : Work} (hi : i.kind ≠ .writeResult) (hm : Move i w w')
    (hx : Exchanges w.state) (hw : Retries w.state) : Retries w'.state := by
  cases hm
  case arm k _ _ ha =>
    refine hw.keep (fun _ => id) (fun h => Timers.update_off h ?_ _) id
    rintro rfl
    exact hi ha
  case stop => exact hw.keep (fun _ => id) (fun h => Timers.stop_off h _) id
  case startResponder =>
    refine hw.keep (fun _ => id) id fun h => ?_
    exact h.imp_right fun h => .inl (h.resolve_right nofun)
  case startInitiator hs _ => exact hw.of_before (.inr (.inr hs)) (fun _ => id) id
  case reserveCER hd _ _ => exact hw.of_before (.inr (.inl hd)) (fun _ => id) id
  case candidate =>
    refine hw.keep (fun _ => id) (fun h => ?_) id
    show ((if w.state.policy.peerOwnsDeadline then w.state.timers.stop .handshake
      else w.state.timers) .retry).token = 0
    split
    · exact Timers.stop_off h _
    · exact h
  case answer op _ _ _ _ hctl _ _ _ _ _ _ _ _ =>
    refine hw.keep (fun t h => ?_) id id
    rcases h.of_insert rfl rfl with ⟨-, r, hr, -⟩ | h
    · rw [hctl] at hr
      cases hr
    · exact h
  case activate => exact hw.keep (fun _ => id) (fun h => Timers.stop_off h _) id
  case settleCER | credit | dpaSettled =>
    exact hw.keep (fun _ h => h.congr (Leases.settle_operations _ _) (Leases.settle_commands _ _))
      id (beforeCER_same (Leases.settle_reservations _ _) rfl rfl)
  case admitted => exact hw.keep (fun _ => id) (fun h => Timers.stop_off (Timers.stop_off h _) _) id
  case releaseSupervised hr _ =>
    refine hw.keep (fun _ => id) (fun h => ?_) id
    split at hr
    · exact hr.off (by decide) h
    · obtain ⟨-, rfl⟩ := hr
      exact h
  case releaseRecovering | frozenLocal | disconnectClosing =>
    exact hw.keep (fun _ => id) id (beforeCER_reserve (by decide))
  case probe =>
    exact hw.keep (fun _ => id) (fun h => Timers.stop_off h _) (beforeCER_reserve (by decide))
  case published hr => exact hw.keep (fun _ => id) (hr.off (by decide)) id
  case unsupervise => exact hw.keep (fun _ => id) (fun h => Timers.stop_off h _) id
  case consume r _ =>
    refine hw.keep (fun _ h => h.congr rfl ?_) id id
    exact map_modify_of_eq (f := fun k : Control => { k with answered := true }) (fun _ => rfl)
      w.state.leases.heap r
  case beginClosing hc _ _ _ _ _ =>
    refine hw.keep (fun _ => id) (fun h => ?_) id
    exact (congrArg TimerSnapshot.token (hc.other .retry (by decide) (by decide))).trans h
  case terminate | disconnected =>
    exact hw.keep (fun _ h => h.congr (Leases.abandonAll_operations _)
      (Leases.abandonAll_commands _)) (fun _ => Timers.all_off _ _)
      (beforeCER_same (Leases.abandonAll_reservations _) rfl rfl)
  case reserveFailed | returned => exact hw.keep (fun _ => id) id (beforeCER_erase rfl rfl rfl)
  case exchange =>
    exact hw.keep (fun _ h => h.of_append hx.balanced rfl (Leases.exchange_commands _ _ _)) id
      (beforeCER_erase rfl rfl rfl)
  case request k op _ _ _ _ _ hres _ _ _ _ _ hop _ =>
    have hnew : ∀ t, ((w.state.leases.exchange i.token k).send (w.state.serial + 1)
        w.state.leases.heap.length op).Unreported t → t = w.state.serial + 1 ∧
          k.command = .capabilitiesExchange ∨ w.state.leases.Unreported t := by
      intro t h
      rcases h.of_insert rfl (Leases.send_commands _ _ _ _) with ⟨ht, r, hr, hcmd⟩ | h
      · have hlen : r = w.state.leases.commands.length := by
          rw [hop.control] at hr
          cases hr
          exact (List.length_map _).symm
        rw [Leases.exchange_commands, hlen, List.getElem?_concat_length] at hcmd
        exact .inl ⟨ht, Option.some.inj hcmd⟩
      · exact .inr (h.of_append hx.balanced rfl (Leases.exchange_commands _ _ _))
    by_cases hce : k.command = .capabilitiesExchange
    · rw [hce] at hres
      obtain ⟨hoff, hnone⟩ := hw.before (.inl ⟨_, hres⟩)
      exact of_new (fun t h => ((hnew t h).resolve_right (hnone t)).1) hoff
        (not_beforeCER hx hres rfl rfl rfl)
    · exact hw.keep (fun t h => (hnew t h).resolve_left fun h => hce h.2) id
        (beforeCER_erase rfl rfl rfl)
  case retransmit hexp _ _ _ _ _ _ =>
    refine of_new (n := w.state.serial + 1) (fun t h => ?_) (Timers.stop_token _ _) fun h => ?_
    · rcases h.of_insert rfl (Leases.send_commands _ _ _ _) with ⟨ht, -⟩ | h
      · exact ht
      · exact (hexp.2 (hw.vacant t h)).elim
    · exact hexp.2 (hw.before h).1
  case finishWrite | progress | skipped | skippedProbe => exact absurd ‹i.kind = .writeResult› hi
  all_goals exact hw.keep (fun _ => id) id id

end Retries

/-! ### Results for writes -/

/-- The same tables, whatever became of the exchanges; the retry timer is as it was, or off. -/
structure Core.Tables (c c' : Core) : Prop where
  started : c'.started = c.started
  cerDeferred : c'.cerDeferred = c.cerDeferred
  reservations : c'.reservations = c.reservations
  commands : c'.leases.commands = c.leases.commands
  operations : c'.operations = c.operations
  retry : c'.timers .retry = c.timers .retry ∨ (c'.timers .retry).token = 0

/-- `c'` is `c` with a result entered for the write `t`. The retry timer is armed if this was the
report of a CER. -/
structure Core.Entered (t : Nat) (c c' : Core) : Prop where
  started : c'.started = c.started
  cerDeferred : c'.cerDeferred = c.cerDeferred
  reservations : c'.reservations = c.reservations
  commands : c'.leases.commands = c.leases.commands
  others : ∀ t', t' ≠ t → c'.operations.lookup t' = c.operations.lookup t'
  own : ∀ op', c'.operations.lookup t = some op' → ∃ op, c.operations.lookup t = some op ∧
    op'.control = op.control ∧ (op'.reported = false → op.reported = false)
  retry : c'.timers .retry = c.timers .retry ∨ (c'.timers .retry).token = 0 ∨
    c.leases.Unreported t ∧ ¬ c'.leases.Unreported t

namespace Core

variable {c' c'' : Core} {t : Nat}

theorem Tables.refl : Tables c c := ⟨rfl, rfl, rfl, rfl, rfl, .inl rfl⟩

theorem Tables.trans (h : Tables c c') (h' : Tables c' c'') : Tables c c'' := by
  refine ⟨h'.started.trans h.started, h'.cerDeferred.trans h.cerDeferred,
    h'.reservations.trans h.reservations, h'.commands.trans h.commands,
    h'.operations.trans h.operations, ?_⟩
  rcases h'.retry with hr' | hr'
  · exact h.retry.imp hr'.trans fun hr => by rw [hr', hr]
  · exact .inr hr'

theorem Tables.entered (h : Tables c c') : Entered t c c' :=
  ⟨h.started, h.cerDeferred, h.reservations, h.commands, fun _ _ => by rw [h.operations],
    fun op' h' => ⟨op', h.operations ▸ h', rfl, id⟩, h.retry.imp_right .inl⟩

theorem Entered.then (h : Entered t c c') (hr : c'.timers .retry = c.timers .retry)
    (h' : Tables c' c'') : Entered t c c'' := by
  refine ⟨h'.started.trans h.started, h'.cerDeferred.trans h.cerDeferred,
    h'.reservations.trans h.reservations, h'.commands.trans h.commands,
    fun t' ht' => by rw [h'.operations, h.others t' ht'],
    fun op' hop => h.own op' (h'.operations ▸ hop), ?_⟩
  exact h'.retry.imp (fun hr' => hr'.trans hr) .inl

theorem Entered.unreported (h : Entered t c c') {t' : Nat} (hu : c'.leases.Unreported t') :
    c.leases.Unreported t' := by
  obtain ⟨op', r, hop, hrep, hr, hcmd⟩ := hu
  rw [h.commands] at hcmd
  by_cases ht : t' = t
  · rw [ht] at hop
    obtain ⟨op, hop, hctl, hkeep⟩ := h.own op' hop
    rw [ht]
    exact ⟨op, r, hop, hkeep hrep, hctl ▸ hr, hcmd⟩
  · exact ⟨op', r, (h.others t' ht).symm.trans hop, hrep, hr, hcmd⟩

end Core

theorem Retries.entered {c' : Core} {t : Nat} (hs : Retries c.state) (h : c.Entered t c') :
    Retries c'.state := by
  have hbefore : c'.state.BeforeCER → c.state.BeforeCER :=
    beforeCER_same h.reservations h.cerDeferred h.started
  rcases h.retry with hr | hr | ⟨hold, hnew⟩
  · refine hs.keep (fun t' hu => h.unreported hu) (fun hoff => ?_) hbefore
    exact (congrArg TimerSnapshot.token hr).trans hoff
  · exact hs.keep (fun t' hu => h.unreported hu) (fun _ => hr) hbefore
  -- The write that is reported was the only one.
  have hnone : ∀ t', ¬ c'.state.leases.Unreported t' := by
    intro t' hu
    have ht := hs.single t' t (h.unreported hu) hold
    exact hnew (ht ▸ hu)
  exact ⟨fun t' hu => (hnone t' hu).elim, fun t' _ hu => (hnone t' hu).elim,
    fun hb => ((hs.before (hbefore hb)).2 t hold).elim⟩

namespace Batch

variable {b : Batch} {op : Operation}

theorem terminate_tables (f : Phase) : b.core.Tables (b.terminate f).core := by
  have hs := (terminate_spec b f).1
  refine ⟨congrArg State.started hs, congrArg State.cerDeferred hs, terminate_reservations f, ?_,
    terminate_operations f, .inr ?_⟩
  · exact (congrArg (fun s => s.leases.commands) hs).trans (Leases.abandonAll_commands _)
  · exact (congrArg (fun s => (s.timers .retry).token) hs).trans (Timers.all_off _ _)

theorem taken_entered (hop : b.core.operations.lookup i.token = some op) :
    b.core.Entered i.token (b.taken i op).core ∧
      (b.taken i op).core.timers .retry = b.core.timers .retry := by
  obtain ⟨ops, h, cs, hcore⟩ := @taken_core b i op
  have hcmds : (b.taken i op).core.leases.commands = b.core.leases.commands := by
    unfold taken
    split
    · exact (finishWrite_same _ _ _ _).2
    · rfl
  have hops := @taken_operations b i op
  have hretry : (b.taken i op).core.timers .retry = b.core.timers .retry := by rw [hcore]
  refine ⟨⟨by rw [hcore], by rw [hcore], by rw [hcore], hcmds, fun t' ht' => ?_, fun op' h' => ?_,
    .inl hretry⟩, hretry⟩
  · rw [hops]
    split
    · exact AList.lookup_erase_ne ht'
    · exact AList.lookup_insert_ne ht'
  · rw [hops] at h'
    split at h'
    · rw [AList.lookup_erase] at h'
      cases h'
    rw [AList.lookup_insert] at h'
    cases h'
    exact ⟨op, hop, rfl, id⟩

theorem exchangePublished_retry (r : Nat) :
    (b.exchangePublished i r).core.timers .retry = b.core.timers .retry ∨
      b.core.leases.commands[r]? = some .capabilitiesExchange := by
  unfold exchangePublished
  split
  · exact .inl rfl
  rename_i k hk
  split
  · exact .inl rfl
  split
  · refine .inl ?_
    unfold watchdogPublished
    split
    · rfl
    split
    · rfl
    rename_i next _
    obtain ⟨n, ts, hr, hts⟩ := watchdogArm_retimed (b := b.update fun c => { c with
      wd := next, wdNext := none }) (t := i.time) (d := i.interval)
    exact (congrFun (congrArg Core.timers hr.core) .retry).trans
      (hts.other (k := .retry) (by decide))
  next hcmd =>
    refine .inr ?_
    unfold Leases.commands
    rw [List.getElem?_map, show b.core.leases.heap[r]? = some k from hk, Option.map_some, hcmd]
  · exact .inl rfl

/-- A report leaves the tables alone. The retry timer is armed for a CER only. -/
theorem reportWrite_tables : b.core.Tables (b.reportWrite i op).core ∨
    (∃ r, op.control = some r ∧ b.core.leases.commands[r]? = some .capabilitiesExchange) ∧
      b.core.Tables { (b.reportWrite i op).core with timers := b.core.timers } := by
  obtain ⟨cb, wd, wn, n, ts, hcore⟩ := @reportWrite_core b i op
  have hretry : (b.reportWrite i op).core.timers .retry = b.core.timers .retry ∨
      ∃ r, op.control = some r ∧ b.core.leases.commands[r]? = some .capabilitiesExchange := by
    obtain ⟨cb, b1, hb1, heq⟩ := @reportWrite_eq b i op
    rw [heq]
    split
    · exact .inl (by rw [hb1])
    rename_i r hr
    have hsame : b1.core.timers = b.core.timers ∧ b1.core.leases = b.core.leases := by
      rw [hb1]
      exact ⟨rfl, rfl⟩
    refine (exchangePublished_retry (b := b1) (i := i) r).imp (fun h => ?_) fun h => ?_
    · rw [h, hsame.1]
    · exact ⟨r, hr, hsame.2 ▸ h⟩
  rcases hretry with hr | hr
  · refine .inl ?_
    rw [hcore] at hr ⊢
    exact ⟨rfl, rfl, rfl, rfl, rfl, .inl hr⟩
  · refine .inr ⟨hr, ?_⟩
    rw [hcore]
    exact ⟨rfl, rfl, rfl, rfl, rfl, .inl rfl⟩

theorem ended_tables {f : Core → Core} (hf : ∀ c, Core.Tables c (f c)) (g : Phase) :
    b.core.Tables ((b.update f).terminate g).core :=
  (hf b.core).trans (terminate_tables (b := b.update f) g)

theorem failWrite_tables {err : ProtocolError} : b.core.Tables (b.failWrite i op err).core := by
  unfold failWrite
  dsimp only
  generalize (op.control.bind b.core.control?).any _ = cer
  generalize hb1 : (if b.core.cfg.keepCERDeadlineAfterTransportLoss && b.core.phase = .waitCEA &&
    cer then b.update fun c => { c with handshake := ⟨some err, none⟩ } else b) = b1
  have h : b.core.Tables (b1.terminate .closed).core := by
    rw [← hb1]
    split
    · exact ended_tables (f := fun c => { c with handshake := ⟨some err, none⟩ })
        (fun _ => ⟨rfl, rfl, rfl, rfl, rfl, .inl rfl⟩) .closed
    · exact terminate_tables .closed
  split
  · exact h
  split
  · split
    · exact h
    · exact h
  · exact h

theorem completeDPA_tables {j : Input} {code : UInt32} :
    b.core.Tables (b.completeDPA j code).core := by
  have h : b.core.Tables ((b.update fun c => { c with
      earlyDPA := none, disconnectWaiting := false }).terminate .closed).core :=
    ended_tables (f := fun c => { c with earlyDPA := none, disconnectWaiting := false })
      (fun _ => ⟨rfl, rfl, rfl, rfl, rfl, .inl rfl⟩) .closed
  unfold completeDPA
  dsimp only
  split
  · exact h
  · exact h

theorem watchdogArm_tables {t d : Int} : b.core.Tables (b.watchdogArm t d).core := by
  obtain ⟨n, ts, hr, hts⟩ := watchdogArm_retimed (b := b) (t := t) (d := d)
  have hretry : ts .retry = b.core.timers .retry := hts.other (k := .retry) (by decide)
  rw [hr.core]
  exact ⟨rfl, rfl, rfl, rfl, rfl, .inl hretry⟩

theorem release_tables (r : Nat) : b.core.Tables (b.release r).core := by
  have hf := release_freed b r
  have hcmds := congrArg Leases.commands hf.leases
  rw [Leases.release_commands] at hcmds
  obtain ⟨h, cs, hc⟩ := hf.core
  rw [hc] at hcmds ⊢
  exact ⟨rfl, rfl, rfl, hcmds, rfl, .inl rfl⟩

theorem skippedControl_entered (r : Nat) :
    b.core.Entered i.token (b.skippedControl i r).core := by
  unfold skippedControl
  split
  · exact Core.Tables.refl.entered
  rename_i k _
  dsimp only
  generalize hb1 : (b.update fun c => { c.setControl r (fun k' =>
      { k' with writers := k'.writers - 1
                logical := k'.logical && !(k.writers = 1 && !k.written) }) with
    operations := c.operations.erase i.token }) = b1
  have h1 : b.core.Entered i.token b1.core := by
    rw [← hb1]
    refine ⟨rfl, rfl, rfl, ?_, fun t' ht' => AList.lookup_erase_ne ht', fun op' h => ?_, .inl rfl⟩
    · refine map_modify_of_eq (f := fun k' : Control => { k' with
        writers := k'.writers - 1
        logical := k'.logical && !(k.writers = 1 && !k.written) }) ?_ b.core.heap r
      exact fun _ => rfl
    · cases (AList.lookup_erase _ _).symm.trans h
  have hretry : b1.core.timers .retry = b.core.timers .retry := by rw [← hb1]; rfl
  have h2 : b1.core.Tables (b1.release r).core := release_tables r
  generalize b1.release r = b2 at h2
  split
  · exact h1.then hretry (h2.trans (ended_tables (f := fun c => { c with
      handshake := ⟨some (i.err.getD .shortWrite), none⟩ })
      (fun _ => ⟨rfl, rfl, rfl, rfl, rfl, .inl rfl⟩) .closed))
  · split
    · have h3 : b2.core.Tables (b2.update fun c => { c with
          wdNext := none, wd := { c.wd with pending := false } }).core :=
        ⟨rfl, rfl, rfl, rfl, rfl, .inl rfl⟩
      split
      · exact h1.then hretry ((h2.trans h3).trans watchdogArm_tables)
      · exact h1.then hretry (h2.trans h3)
    · exact h1.then hretry h2

theorem reported_entered {b' : Batch} (hop : b.core.operations.lookup i.token = some op)
    (hrep : op.reported = false) (h : b.core.Entered i.token b'.core)
    (hretry : b'.core.timers .retry = b.core.timers .retry)
    (hdone : ¬ b'.core.leases.Unreported i.token) :
    b.core.Entered i.token (b'.reportWrite i op).core := by
  rcases @reportWrite_tables i b' op with ht | ⟨⟨r, hr, hcmd⟩, ht⟩
  · exact h.then hretry ht
  have h' := h.then hretry ht
  refine ⟨h'.started, h'.cerDeferred, h'.reservations, h'.commands, h'.others, h'.own,
    .inr (.inr ⟨⟨op, r, hop, hrep, hr, h.commands ▸ hcmd⟩, fun hu => hdone ?_⟩)⟩
  exact hu.congr ht.operations ht.commands

theorem writeBoundary_entered {b' : Batch} (hop : b.core.operations.lookup i.token = some op)
    (hlast : op.closeAfter = true → op.control = none) (h : b.core.Entered i.token b'.core)
    (hretry : b'.core.timers .retry = b.core.timers .retry)
    (hwritten : i.stage ≠ .queue → b'.core.operations.lookup i.token = none) :
    b.core.Entered i.token (b'.writeBoundary i op).core := by
  unfold writeBoundary
  dsimp only
  by_cases hend : (op.closeAfter && decide (i.stage = .written)) = true
  · rw [if_pos hend]
    simp only [Bool.and_eq_true, decide_eq_true_eq] at hend
    have ht : b'.core.Tables (b'.terminate .closed).core := terminate_tables .closed
    split
    · exact h.then hretry ht
    rw [if_neg (by simp [hend.2])]
    rcases @reportWrite_tables i (b'.terminate .closed) op with
      ht' | ⟨⟨r, hr, -⟩, -⟩
    · exact h.then hretry (ht.trans ht')
    · rw [hlast hend.1] at hr
      cases hr
  · rw [if_neg hend]
    split
    · exact h
    rename_i hgo
    simp only [Bool.or_eq_true, not_or, Bool.not_eq_true] at hgo
    split
    · refine reported_entered hop hgo.2 ⟨h.started, h.cerDeferred, h.reservations, h.commands,
        fun t' ht' => ?_, fun op' h' => ?_, .inl hretry⟩ hretry ?_
      · exact (AList.lookup_insert_ne ht').trans (h.others t' ht')
      · cases (AList.lookup_insert _).symm.trans h'
        exact ⟨op, hop, rfl, nofun⟩
      · rintro ⟨op', r, hop', hfalse, -⟩
        cases (AList.lookup_insert _).symm.trans hop'
        cases hfalse
    next hs =>
      refine reported_entered hop hgo.2 h hretry ?_
      rintro ⟨op', r, hop', -⟩
      cases (hwritten hs).symm.trans hop'

theorem writeResult_entered
    (hops : ∀ t op, b.core.operations.lookup t = some op → Operation.Sound op) :
    b.core.Entered i.token (b.writeResult i).core := by
  unfold writeResult
  split
  · exact Core.Tables.refl.entered
  rename_i op hop
  split
  · exact skippedControl_entered _
  dsimp only
  split
  · exact Core.Tables.refl.entered
  obtain ⟨h1, hretry⟩ := taken_entered (b := b) hop
  have hwritten : i.stage ≠ .queue →
      (b.taken i op).core.operations.lookup i.token = none := by
    intro hs
    rw [taken_operations, if_pos (by simp [isFinal, hs])]
    exact AList.lookup_erase _ _
  have hok : b.core.Entered i.token ((b.taken i op).writeSucceeded i op).core := by
    have hboundary := writeBoundary_entered hop (hops _ _ hop).last h1 hretry hwritten
    generalize b.taken i op = b1 at *
    unfold writeSucceeded
    dsimp only
    split
    · split
      · exact h1.then hretry completeDPA_tables
      · exact hboundary
    · exact hboundary
  show b.core.Entered i.token (Batch.core (if (b.taken i op).core.phase.ended = true
    then b.taken i op else _))
  split
  · exact h1
  split
  · exact h1.then hretry failWrite_tables
  · exact hok

end Batch

/-! ## Every core is in order -/

variable [BasePackage]

omit [BasePackage] in
theorem Vacant.refresh {s : State} (hs : Vacant i s) (h : Refresh s s') : Vacant i s' := by
  cases h with
  | ignored => exact hs
  | absent _ _ _ =>
    refine hs.keep (fun _ _ => id) id (fun h hc => h ?_) id
    simp [hc]
  | present _ _ =>
    refine hs.keep (fun _ _ => id) id (fun h hc => h ?_) id
    simp [hc]

omit [BasePackage] in
theorem Retries.refresh {s : State} (hs : Retries s) (h : Refresh s s') : Retries s' := by
  cases h with
  | ignored => exact hs
  | absent _ _ _ => exact hs.keep (fun _ => id) id id
  | present _ _ => exact hs.keep (fun _ => id) id id

theorem Vacant.input {s : State} (h : Step s (.input i) es s')
    (hs : Vacant i s) : Vacant i s' := by
  cases h with
  | input hm => exact hm.invariant (P := fun w => Vacant i w.state) Vacant.step hs
  | late => exact hs.keep (fun _ _ => id) id id id

theorem Retries.input {s : State} (hi : i.kind ≠ .writeResult)
    (h : Step s (.input i) es s') (hx : Exchanges s) (hs : Retries s) : Retries s' := by
  cases h with
  | input hm =>
    have hw := hm.invariant (P := fun w => Accounted i (fun v => s.leases.held v +
      s.leases.owed i v) w ∧ Retries w.state)
      (fun h hw => ⟨hw.1.step h, hw.2.step hi h hw.1.exchanges⟩)
      ⟨⟨hx, fun v => by simp [released]⟩, hs⟩
    exact hw.2
  | late => exact hs.keep (fun _ => id) id id

omit [BasePackage] in
/-- The answer to the DPR of the peer is selected behind the fence, and its report is no error. -/
structure Desk.Marked (d : Desk) : Prop where
  selected : d.selected = true → d.frozen = true
  notices : ∀ t op, d.operations.lookup t = some op → ∀ n ∈ op.notice, n.kind = .peerDisconnect →
    n.protocol = none

namespace Desk.Marked

variable {d d' : Desk}

omit [BasePackage] in
theorem insert {t0 : Nat} {op : Operation} (h : d.Marked)
    (hn : ∀ n ∈ op.notice, n.kind = .peerDisconnect → n.protocol = none) (t : Nat)
    (op' : Operation) (hop : (d.operations.insert t0 op).lookup t = some op') :
    ∀ n ∈ op'.notice, n.kind = .peerDisconnect → n.protocol = none := by
  rw [GoMap.lookup_insert_eq] at hop
  split at hop
  · cases hop
    exact hn
  · exact h.notices t op' hop

omit [BasePackage] in
theorem step (ha : Act i d d') (h : d.Marked) : d'.Marked := by
  cases ha with
  | send _ hn => exact ⟨h.selected, h.insert fun n hn' hk => (hn n hn' hk).elim⟩
  | finish _ hop =>
    refine ⟨h.selected, fun t op hop => ?_⟩
    change (d.operations.erase i.token).lookup t = some op at hop
    rw [GoMap.lookup_erase_eq] at hop
    split at hop
    · cases hop
    · exact h.notices t op hop
  | queue _ hop =>
    have hn := h.notices _ _ hop
    exact ⟨h.selected, h.insert hn⟩
  | note _ hop _ =>
    have hn := h.notices _ _ hop
    exact ⟨h.selected, h.insert hn⟩
  | freeze => exact ⟨fun _ => rfl, h.notices⟩
  | select _ hnotice _ _ hproto _ hfrozen _ =>
    refine ⟨fun _ => hfrozen, h.insert fun n hn _ => ?_⟩
    rw [hnotice] at hn
    cases hn
    exact hproto
  | _ => exact ⟨h.selected, h.notices⟩

end Desk.Marked

/-- What `Core.Orderly` follows from, as an invariant. -/
structure Core.InOrder (c : Core) : Prop where
  vacant : ∀ i, Vacant i c.state
  retries : Retries c.state
  exchanges : Exchanges c.state
  marked : (Batch.desk { core := c } [] none).Marked

namespace Core.InOrder

omit [BasePackage] in
theorem orderly (h : c.InOrder) : c.Orderly := by
  have hrest := h.vacant { kind := .abort, connection := c.cfg.connection }
  exact ⟨hrest.handshake (by simp), hrest.closing, hrest.receiver (by simp),
    fun t op r hop hrep hr hcmd => h.retries.vacant t ⟨op, r, hop, hrep, hr, hcmd⟩,
    h.marked.selected, h.marked.notices⟩

theorem vacant_input (hwf : c.state.WF) (h : c.InOrder) (j i : Input) :
    Vacant i (c.apply (.input j)).1.state := by
  have hrest := h.vacant { kind := .abort, connection := c.cfg.connection }
  have hj : Vacant j (c.apply (.input j)).1.state :=
    (h.vacant j).input (apply_step hwf (.input j))
  have hoff := hrest.handshake (by simp)
  have hwait := hrest.receiver (by simp)
  have hcases : j.kind = .start ∨ j.kind = .beginCER ∨ j.kind = .disconnect →
      (c.apply (.input j)).1 = c ∨ (c.apply (.input j)).1 =
        (Batch.handleLive { core := Batch.refreshAddresses c j } j).core := by
    intro hk
    rcases Batch.handleInto_cases (b := { core := c }) (i := j) (by rintro h; simp [h] at hk)
      (by rintro h; simp [h] at hk) (by rintro h; simp [h] at hk) with h | ⟨-, h⟩
    · exact .inl (congrArg Batch.core h)
    · exact .inr (congrArg Batch.core h)
  have hs : (Batch.refreshAddresses c j).state = c.state := Batch.refreshAddresses_state c j
  have hdefer : (Batch.refreshAddresses c j).cerDeferred = true →
      (Batch.refreshAddresses c j).started = true := by
    have := hwf.cerDeferred
    rwa [← hs] at this
  have hoff' : (Batch.refreshAddresses c j).started = false ∨
      (Batch.refreshAddresses c j).cerDeferred = true →
        ((Batch.refreshAddresses c j).timers .handshake).token = 0 := by
    rwa [← hs] at hoff
  have hwait' : (Batch.refreshAddresses c j).disconnectWaiting = false →
      ((Batch.refreshAddresses c j).timers .receiverDisconnect).token = 0 := by
    rwa [← hs] at hwait
  refine ⟨fun _ => ?_, hj.closing, fun _ => ?_⟩
  · by_cases hk : j.kind = .start ∨ j.kind = .beginCER
    · rcases hcases (hk.imp_right .inl) with h | h
      · rw [h]
        exact hoff
      · rw [h]
        rcases hk with hk | hk
        · have hlive : Batch.handleLive { core := Batch.refreshAddresses c j } j =
              Batch.start { core := Batch.refreshAddresses c j } j := by
            simp [Batch.handleLive, hk]
          rw [hlive]
          exact Batch.start_handshake hdefer (fun h => hoff' (.inl h)) fun h => hoff' (.inr h)
        · have hlive : Batch.handleLive { core := Batch.refreshAddresses c j } j =
              Batch.beginCER { core := Batch.refreshAddresses c j } j := by
            simp [Batch.handleLive, hk]
          rw [hlive]
          exact Batch.beginCER_handshake hdefer hoff'
    · exact hj.handshake hk
  · by_cases hk : j.kind = .disconnect
    · rcases hcases (.inr (.inr hk)) with h | h
      · rw [h]
        exact hwait
      · have hlive : Batch.handleLive { core := Batch.refreshAddresses c j } j =
            Batch.disconnect { core := Batch.refreshAddresses c j } j := by
          simp [Batch.handleLive, hk]
        rw [h, hlive]
        exact Batch.disconnect_receiver hwait'
    · exact hj.receiver hk

theorem retries_input (hwf : c.state.WF) (h : c.InOrder) (j : Input) :
    Retries (c.apply (.input j)).1.state := by
  by_cases hk : j.kind = .writeResult
  · by_cases hconn : j.connection = c.cfg.connection
    · have hb : Batch.handleInto { core := c } j = Batch.writeResult { core := c } j := by
        simp [Batch.handleInto, hconn, hk]
      show Retries (Batch.handleInto { core := c } j).core.state
      rw [hb]
      exact h.retries.entered (Batch.writeResult_entered (b := { core := c }) hwf.operations)
    · have hb : Batch.handleInto { core := c } j = { core := c } := by
        simp [Batch.handleInto, hconn]
      show Retries (Batch.handleInto { core := c } j).core.state
      rw [hb]
      exact h.retries
  · exact h.retries.input hk (apply_step hwf (.input j)) h.exchanges

theorem marked_input (hwf : c.state.WF) (h : c.InOrder) (j : Input) :
    (Batch.desk { core := (c.apply (.input j)).1 } [] none).Marked := by
  obtain ⟨u, hacts⟩ := Batch.handleInto_handles (i := j) (b := { core := c }) h.orderly hwf []
  have hm := hacts.invariant Desk.Marked.step h.marked
  exact ⟨hm.selected, hm.notices⟩

theorem marked_refresh
    (hm : (Batch.desk { core := c } [] none).Marked) :
    (Batch.desk { core := c.refreshAdmission peer } [] none).Marked := by
  have hdesk : (c.refreshAdmission peer).peerDisconnectSelected = c.peerDisconnectSelected ∧
      (c.refreshAdmission peer).frozen = c.frozen ∧
      (c.refreshAdmission peer).operations = c.operations := by
    unfold Core.refreshAdmission
    cases peer with
    | none => dsimp only; split <;> exact ⟨rfl, rfl, rfl⟩
    | some peer => dsimp only; split <;> exact ⟨rfl, rfl, rfl⟩
  refine ⟨fun hs => ?_, fun t op hop => ?_⟩
  · exact hdesk.2.1.trans (hm.selected (hdesk.1.symm.trans hs))
  · exact hm.notices t op ((congrArg (·.lookup t) hdesk.2.2).symm.trans hop)

theorem refresh (h : c.InOrder) : (c.refreshAdmission peer).InOrder :=
  have hr := refreshAdmission_refresh c peer
  ⟨fun i => (h.vacant i).refresh hr, h.retries.refresh hr, h.exchanges.refresh hr,
    marked_refresh h.marked⟩

theorem apply (hwf : c.state.WF) (h : c.InOrder) (e : Event) : (c.apply e).1.InOrder := by
  cases e with
  | refresh peer => exact h.refresh
  | input j => exact ⟨h.vacant_input hwf j, h.retries_input hwf j,
      (h.exchanges.step (apply_step hwf (.input j))).1, h.marked_input hwf j⟩

end Core.InOrder

theorem Created.inOrder (hc : Created c) : c.InOrder := by
  have hinit : ∀ (cfg : Config) (st pas v : Bool), ∀ c : Core, c = { Core.init cfg with
      started := st, passiveResponder := pas, passiveWatchdog := v } →
      (∀ i, Vacant i c.state) ∧ Retries c.state ∧
        (Batch.desk { core := c } [] none).Marked := by
    rintro cfg st pas v c rfl
    have hnone : ∀ t, ¬ Leases.Unreported { Core.init cfg with
        started := st, passiveResponder := pas, passiveWatchdog := v }.leases t := by
      rintro t ⟨op, -, hop, -⟩
      cases (GoMap.lookup_empty_eq t).symm.trans hop
    refine ⟨fun _ => ⟨fun _ _ => rfl, fun _ => rfl, fun _ _ => rfl⟩,
      ⟨fun _ _ => rfl, fun t _ h => (hnone t h).elim, fun _ => ⟨rfl, hnone⟩⟩, nofun, ?_⟩
    intro t _ h
    cases (GoMap.lookup_empty_eq t).symm.trans h
  rcases hc.cases_init with ⟨cfg, hcfg⟩ | ⟨cfg, peer, -, hcfg⟩
  · obtain ⟨hv, hr, hm⟩ := hinit cfg false false false c hcfg
    exact ⟨hv, hr, hc.exchanges, hm⟩
  obtain ⟨hv, hr, hm⟩ := hinit cfg true true cfg.watchdog _ rfl
  have hf := refreshAdmission_refresh { Core.init cfg with
    started := true, passiveResponder := true, passiveWatchdog := cfg.watchdog } (some peer)
  refine ⟨?_, ?_, hc.exchanges, ?_⟩
  · rw [hcfg]
    exact fun i => (hv i).refresh hf
  · rw [hcfg]
    exact hr.refresh hf
  · rw [hcfg]
    exact Core.InOrder.marked_refresh hm

theorem run_inOrder (hc : Created c) (events : List Event) :
    (run c events).core.InOrder :=
  run_invariant (P := fun r => r.core.InOrder) hc hc.inOrder
    (fun _ e hwf _ h => h.apply hwf e) events

theorem run_handles (hc : Created c) (events : List Event) (i : Input) :
    Handles i { core := (run c events).core } none
      (Batch.handleInto { core := (run c events).core } i) :=
  Batch.handleInto_handles (run_inOrder hc events).orderly (run_wf hc events)

/-! ## The connection of a core -/

theorem Move.connection {w : Work} (hm : Move i w w') :
    w'.state.connection = w.state.connection := by
  cases hm <;> rfl

theorem Step.connection {s : State} {e : Event} (h : Step s e es s') :
    s'.connection = s.connection := by
  cases h with
  | input hm =>
    exact hm.invariant (P := fun w => w.state.connection = s.connection)
      (fun h hw => h.connection.trans hw) rfl
  | late => rfl
  | refresh hr => cases hr <;> rfl

theorem run_connection (hc : Created c) (events : List Event) :
    (run c events).core.cfg.connection = c.cfg.connection :=
  run_invariant (P := fun r => r.core.cfg.connection = c.cfg.connection) hc rfl
    (fun _ _ _ hstep h => hstep.connection.trans h) events

end Diameter.Protocol
