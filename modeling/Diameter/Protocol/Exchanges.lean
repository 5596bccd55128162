import Diameter.Protocol.Leases

/-!
# Protocol.Exchanges

The requests a core makes of its own: CER, DWR and DPR.

* `Paced` says when a core asks for identifiers: only for a command it is not exchanging. This is
  where the handshake, the watchdog and the disconnect each have their own reason.
* `Exchanges` is the invariant of the lease tables that follows: no command is exchanged twice, and
  the tables are balanced.
* `Accounted` follows the identifiers through an input: what is granted is held by an exchange until
  it is given back.
-/

namespace Diameter.Protocol

open Lib BasePackage

variable {cmd : BaseCommand} {es : List Effect}
variable {t : Nat} {m : Watchdog.Machine} {s : State} {p : Leases × List Reservation} {k : Control}
  {ops : GoMap Nat Operation} {heap : List Control}

/-- The exchanges of a command: asked for, or with their answer awaited. -/
def Leases.load (l : Leases) (cmd : BaseCommand) : Nat :=
  GoMap.count l.reservations (fun c => c = cmd) + l.awaited cmd

/-! ## When identifiers are asked for -/

attribute [grind =] State.live Phase.ended

/-- The core has not begun to supervise its peer. -/
@[grind =] def State.Unprobed (s : State) : Prop :=
  s.passive = true ∨ s.phase = .preCER ∨ s.phase = .waitCEA ∨ s.phase = .opened ∧ s.ready = false

/-- What bounds the number of exchanges of each command. -/
@[grind cases] structure Paced (ce dw dp : Nat) (s : State) : Prop where
  begun : s.cerDeferred = true → s.started = true
  capabilities : s.cerDeferred = true ∨ s.started = false → ce = 0
  asked : s.live → s.closeLocal = true → s.waiting = true
  disconnect : s.live → s.frozen = false ∨ s.waiting = false → dp = 0
  unprobed : s.live → s.Unprobed →
    (s.wd.state = .initial ∨ s.wd.state = .down) ∧ s.wdNext = none ∧ dw = 0
  passive : s.live → s.passive = true → s.phase = .opened → s.supervised = false
  chosen : s.candidate ≠ 0 → s.passive = false
  responds : s.passive = true → s.role = .responder ∧ s.phase ≠ .waitCEA
  probing : s.live → s.phase = .opened → s.supervised = true → dw ≠ 0 →
    s.wdNext ≠ none ∨ s.wd.pending = true
  tentative : ∀ n, s.wdNext = some n → n.pending = true
  probed : s.live → s.wdNext ≠ none → s.supervised = true
  settled : s.ready = true → s.phase = .opened

/-- The fields it looks at. -/
def State.pace (s : State) :=
  (s.phase, s.started, s.cerDeferred, s.ready, s.frozen, s.passive, s.supervised, s.closeLocal,
    s.waiting, s.wd, s.wdNext, s.candidate, s.role)

namespace Paced

variable {ce dw dp ce' dw' dp' : Nat} {s' : State}

theorem congr (hs : Paced ce dw dp s) (h : s'.pace = s.pace) : Paced ce dw dp s' := by
  simp only [State.pace, Prod.mk.injEq] at h
  constructor <;> grind

theorem mono (hs : Paced ce dw dp s) (h1 : ce' ≤ ce) (h2 : dw' ≤ dw) (h3 : dp' ≤ dp) :
    Paced ce' dw' dp' s := by
  constructor <;> grind

/-! ### The handshake -/

section

variable (hs : Paced ce dw dp s)
include hs

theorem start : Paced ce dw dp { s with started := true } := by
  constructor <;> grind

theorem initiate {v : Bool} (hrole : s.role = .initiator) (hp : s.phase = .preCER)
    (hst : s.started = false) : Paced ce dw dp { s with
      started := true, phase := .waitCEA, cerDeferred := true, handshakePending := v } := by
  constructor <;> grind

theorem ask (hd : s.cerDeferred = true) :
    ce = 0 ∧ Paced 1 dw dp { s with cerDeferred := false } := by
  refine ⟨hs.capabilities (.inl hd), ?_⟩
  constructor <;> grind

theorem hook : Paced ce dw dp { s with
    passive := if s.phase = .preCER then false else s.passive } := by
  constructor <;> grind

theorem active : Paced ce dw dp { s with passive := false } := by
  constructor <;> grind

theorem choose (hp : s.passive = false) : Paced ce dw dp { s with candidate := t } := by
  constructor <;> grind

theorem decide : Paced ce dw dp { s with candidate := 0 } := by
  constructor <;> grind

theorem opened (hp : s.phase = .preCER ∨ s.phase = .waitCEA)
    (hpass : s.passive = false) (hm : m = s.wd ∨ m.state = .down) : Paced ce dw dp { s with
      phase := .opened, wd := m } := by
  constructor <;> grind

/-! ### The watchdog -/

section

variable (ho : s.phase = .opened)
include ho

theorem release (hw : s.supervised = false) : Paced ce dw dp { s with ready := true } := by
  constructor <;> grind

theorem watch (hr : s.ready = false) (hw : s.supervised = true) :
    Paced ce dw dp { s with ready := true, wd := (s.wd.step .connectionUp).1 } := by
  constructor <;> grind

theorem recover (hr : s.ready = false) (hw : s.supervised = true)
    (hsend : (s.wd.step .connectionUp).2.send = true) :
    dw = 0 ∧ Paced ce 1 dp { s with
      ready := true, wd := { (s.wd.step .connectionUp).1 with pending := false }
      wdNext := some (s.wd.step .connectionUp).1 } := by
  have hpending := Watchdog.Machine.connectionUp_pending hsend
  refine ⟨by grind, ?_⟩
  constructor <;> grind

theorem stepped {ev : Watchdog.Event} (hw : s.supervised = true)
    (hev : ev = .receive ∨ ev = .expired) (hsend : (s.wd.step ev).2.send = false) :
    Paced ce dw dp { s with wd := (s.wd.step ev).1 } := by
  have hpending := Watchdog.Machine.step_pending hev hsend
  have hstate := Watchdog.Machine.step_idle (m := s.wd) hev
  constructor <;> grind

theorem probe (hw : s.supervised = true) (hn : s.wdNext = none)
    (hsend : (s.wd.step .expired).2.send = true) :
    dw = 0 ∧ Paced ce 1 dp { s with wdNext := some (s.wd.step .expired).1 } := by
  obtain ⟨hbefore, hafter, hstate⟩ := Watchdog.Machine.expired_send hsend
  refine ⟨by grind, ?_⟩
  constructor <;> grind

theorem publish {n : Watchdog.Machine} (hn : s.wdNext = some n) :
    Paced ce dw dp { s with wd := n, wdNext := none } := by
  constructor <;> grind

end

/-- The probe is over: none is under way, so it does not matter what the watchdog says. -/
theorem settle (hm : dw' + 1 ≤ dw) (hone : dw ≤ 1) :
    Paced ce dw' dp { s with wd := m, wdNext := none } := by
  constructor <;> grind

theorem unsupervise : Paced ce dw dp { s with
    supervised := false, wd := { s.wd with pending := false }, wdNext := none } := by
  constructor <;> grind

/-! ### The end -/

theorem close {v : Bool} {r : Incoming} (ho : s.phase = .opened)
    (hv : v = true → s.waiting = false) : Paced ce dw dp { s with
      phase := .closing, ready := false, closeLocal := v, closeRequest := r,
      waiting := if v then true else s.waiting
      disconnectToken := if v then t else s.disconnectToken } := by
  constructor <;> grind

theorem freeze (hc : s.phase = .closing) :
    Paced ce dw dp { s with frozen := true } := by
  constructor <;> grind

theorem freezeLocal (hc : s.phase = .closing) (hf : s.frozen = false) (hlocal : s.closeLocal = true) :
    dp = 0 ∧ Paced ce dw 1 { s with frozen := true } := by
  refine ⟨by grind, ?_⟩
  constructor <;> grind

theorem disconnectClosing (hc : s.phase = .closing) (hf : s.frozen = true) (hw : s.waiting = false) :
    dp = 0 ∧ Paced ce dw 1 { s with waiting := true } := by
  refine ⟨by grind, ?_⟩
  constructor <;> grind

theorem ended {f : Phase} (hf : f.ended = true) : Paced ce dw dp (s.ended f) := by
  constructor <;> grind [State.ended]

theorem refresh (h : Refresh s s') : Paced ce dw dp s' := by
  cases h with
  | ignored => exact hs
  | absent hp hl _ => constructor <;> grind
  | present hp hl => constructor <;> grind

end

end Paced

/-! ## The lease tables -/

/-- The token is in use. -/
def Leases.Uses (l : Leases) (t : Nat) : Prop :=
  (l.reservations.lookup t).isSome = true ∨ (l.operations.lookup t).isSome = true

def State.Paces (s : State) (load : BaseCommand → Nat) : Prop :=
  Paced (load .capabilitiesExchange) (load .deviceWatchdog) (load .disconnectPeer) s

theorem State.Paces.mono {f g : BaseCommand → Nat} (hs : s.Paces f)
    (h : ∀ cmd, g cmd ≤ f cmd) : s.Paces g :=
  Paced.mono hs (h _) (h _) (h _)

/-- The lease tables of a core: balanced, with tokens of the past and one exchange a command. -/
structure Exchanges (s : State) : Prop where
  balanced : s.leases.Balanced
  tokens : ∀ t, s.leases.Uses t → t ≤ s.serial
  single : ∀ cmd, s.leases.load cmd ≤ 1
  ended : s.phase.ended = true → ∀ cmd, s.leases.awaited cmd = 0
  paced : s.Paces s.leases.load

namespace Exchanges

variable {s' : State} (hs : Exchanges s)
include hs

theorem keep (hl : s'.leases = s.leases) (hserial : s.serial ≤ s'.serial)
    (hended : s'.phase.ended = true → s.phase.ended = true)
    (hp : s'.Paces s.leases.load) : Exchanges s' := by
  refine ⟨hl ▸ hs.balanced, fun t ht => (hs.tokens t (hl ▸ ht)).trans hserial, hl ▸ hs.single,
    fun h => hl ▸ hs.ended (hended h), ?_⟩
  unfold State.Paces
  rw [hl]
  exact hp

theorem free (hf : s.leases.Frees p) (hl : s'.leases = p.1)
    (hres : ∀ t cmd, p.1.reservations.lookup t = some cmd →
      s.leases.reservations.lookup t = some cmd)
    (hcount : ∀ cmd, GoMap.count p.1.reservations (fun c => c = cmd) ≤
      GoMap.count s.leases.reservations fun c => c = cmd)
    (hops : ∀ t, (p.1.operations.lookup t).isSome = true →
      (s.leases.operations.lookup t).isSome = true)
    (hserial : s'.serial = s.serial)
    (hended : s'.phase.ended = true → s.phase.ended = true ∨ ∀ cmd, p.1.awaited cmd = 0)
    (hp : (∀ cmd, s'.leases.load cmd ≤ s.leases.load cmd) → s'.Paces s'.leases.load) :
    Exchanges s' := by
  have hload : ∀ cmd, s'.leases.load cmd ≤ s.leases.load cmd := fun cmd => by
    have h1 := hcount cmd
    have h2 := hf.awaited cmd
    unfold Leases.load
    rw [hl]
    omega
  refine ⟨hl ▸ hf.balanced, fun t ht => ?_, fun cmd => (hload cmd).trans (hs.single cmd),
    fun h cmd => ?_, hp hload⟩
  · rw [hserial]
    rw [hl] at ht
    rcases ht with ht | ht
    · obtain ⟨cmd, hcmd⟩ := Option.isSome_iff_exists.1 ht
      exact hs.tokens t (.inl (by rw [hres t cmd hcmd]; rfl))
    · exact hs.tokens t (.inr (hops t ht))
  · rw [hl]
    rcases hended h with h | h
    · have h1 := hf.awaited cmd
      have h2 := hs.ended h cmd
      omega
    · exact h cmd

theorem reserve (hl : s'.leases = s.leases) (hserial : s'.serial = s.serial)
    (hlive : s'.phase.ended = false) (hnone : s.leases.load cmd = 0)
    (hp : s'.Paces fun c => if c = cmd then 1 else s.leases.load c) :
    Exchanges (s'.reserve cmd) := by
  have hfresh : s.leases.reservations.lookup (s.serial + 1) = none := by
    by_contra h
    exact Nat.not_succ_le_self _ (hs.tokens _ (.inl (Option.isSome_iff_ne_none.2 h)))
  have hload : ∀ c, (s'.reserve cmd).leases.load c = if c = cmd then 1 else s.leases.load c := by
    intro c
    show GoMap.count (s'.leases.reservations.insert (s'.serial + 1) cmd) _ +
      s'.leases.awaited c = _
    rw [hl, hserial, GoMap.count_insert_new _ _ hfresh]
    split
    next hc =>
      rw [hc]
      unfold Leases.load at hnone
      simp only [decide_true, Bool.toNat_true]
      omega
    next hc =>
      unfold Leases.load
      simp [Ne.symm hc]
  refine ⟨?_, fun t ht => ?_, fun c => ?_, fun h => ?_, ?_⟩
  · have hb := hs.balanced
    rw [← hl] at hb
    exact hb.reservations _
  · show t ≤ s'.serial + 1
    rw [hserial]
    rcases ht with ht | ht
    · change ((s'.leases.reservations.insert (s'.serial + 1) cmd).lookup t).isSome = true at ht
      rw [GoMap.lookup_insert_eq, hserial, hl] at ht
      split at ht
      · omega
      · exact (hs.tokens t (.inl ht)).trans (Nat.le_succ _)
    · exact (hs.tokens t (.inr (hl ▸ ht))).trans (Nat.le_succ _)
  · rw [hload]
    split
    · exact Nat.le_refl _
    · exact hs.single c
  · exact absurd (hlive.symm.trans h) Bool.false_ne_true
  · unfold State.Paces
    rw [hload, hload, hload]
    exact Paced.congr hp rfl

theorem exchange (hl : s'.leases = s.leases.exchange t k)
    (ht : s.leases.reservations.lookup t = some k.command) (hk : k.Fresh)
    (hserial : s'.serial = s.serial) (hlive : s'.phase.ended = false)
    (hp : s'.Paces s.leases.load) : Exchanges s' ∧ ∀ v, s'.leases.held v =
      s.leases.held v + (decide (k.reservation = v)).toNat := by
  have herase : ∀ cmd, GoMap.count (s.leases.reservations.erase t) (fun c => c = cmd) +
      (decide (k.command = cmd)).toNat = GoMap.count s.leases.reservations fun c => c = cmd :=
    fun cmd => GoMap.count_erase (fun c => decide (c = cmd)) ht
  have hnone : s.leases.awaited k.command = 0 := by
    have h1 := herase k.command
    have h2 := hs.single k.command
    unfold Leases.load at h2
    simp only [decide_true, Bool.toNat_true] at h1
    omega
  obtain ⟨hb, hheld, haw⟩ := hs.balanced.exchange (t := t) hnone hk.logical hk.released hk.writers
    hk.attempts
  have hload : ∀ cmd, s'.leases.load cmd = s.leases.load cmd := fun cmd => by
    have h1 := herase cmd
    have h2 := haw cmd
    have h3 : (s.leases.exchange t k).reservations = s.leases.reservations.erase t := rfl
    unfold Leases.load
    rw [hl, h3]
    omega
  refine ⟨⟨hl ▸ hb, fun t' ht' => ?_, fun cmd => hload cmd ▸ hs.single cmd, fun h => ?_, ?_⟩, ?_⟩
  · rw [hserial]
    rw [hl] at ht'
    rcases ht' with ht' | ht'
    · change ((s.leases.reservations.erase t).lookup t').isSome = true at ht'
      rw [GoMap.lookup_erase_eq] at ht'
      split at ht'
      · cases ht'
      · exact hs.tokens t' (.inl ht')
    · exact hs.tokens t' (.inr ht')
  · rw [hlive] at h
    cases h
  · unfold State.Paces
    rw [hload, hload, hload]
    exact hp
  · intro v
    rw [hl]
    exact hheld v

theorem erase (ht : s.leases.reservations.lookup t = some cmd) :
    Exchanges { s with
      leases := { s.leases with reservations := s.leases.reservations.erase t } } := by
  refine hs.free (p := ({ s.leases with reservations := s.leases.reservations.erase t }, []))
    ⟨hs.balanced.reservations _, fun _ => rfl, fun _ => Nat.le_refl _⟩ rfl (fun t' cmd' h => ?_)
    (fun cmd' => ?_) (fun _ => id) rfl .inl fun hload => (hs.paced.mono hload).congr rfl
  · change (s.leases.reservations.erase t).lookup t' = some cmd' at h
    rw [GoMap.lookup_erase_eq] at h
    split at h
    · cases h
    · exact h
  · have h := GoMap.count_erase (fun c => decide (c = cmd')) ht
    exact Nat.le_of_add_right_le (Nat.le_of_eq h)

theorem write {op : Operation}
    (hl : s'.leases = { s.leases with operations := ops, heap := heap })
    (hops : ops = s.leases.operations.insert (s.serial + 1) op)
    (hb : s'.leases.Balanced) (haw : ∀ cmd, s'.leases.awaited cmd ≤ s.leases.awaited cmd)
    (hserial : s'.serial = s.serial + 1) (hlive : s'.phase.ended = false)
    (hp : s'.Paces s.leases.load) : Exchanges s' := by
  have hload : ∀ cmd, s'.leases.load cmd ≤ s.leases.load cmd := fun cmd => by
    have h := haw cmd
    unfold Leases.load
    rw [hl] at h ⊢
    exact Nat.add_le_add_left h _
  refine ⟨hb, fun t ht => ?_, fun cmd => (hload cmd).trans (hs.single cmd), fun h => ?_,
    hp.mono hload⟩
  · rw [hserial]
    rw [hl] at ht
    rcases ht with ht | ht
    · exact (hs.tokens t (.inl ht)).trans (Nat.le_succ _)
    change (ops.lookup t).isSome = true at ht
    rw [hops, GoMap.lookup_insert_eq] at ht
    split at ht
    · omega
    · exact (hs.tokens t (.inr ht)).trans (Nat.le_succ _)
  · rw [hlive] at h
    cases h

end Exchanges

/-! ## Identifiers -/

/-- How often these identifiers are given back. -/
def released (es : List Effect) (v : Reservation) : Nat :=
  es.countP fun e => e.kind = .releaseIDs && e.reservation = v

theorem released_append (es es' : List Effect) (v : Reservation) :
    released (es ++ es') v = released es v + released es' v := List.countP_append

theorem released_of_ne (h : ∀ e ∈ es, e.kind ≠ .releaseIDs) (v : Reservation) :
    released es v = 0 := by
  refine List.countP_eq_zero.2 fun e he => ?_
  simp [h e he]

theorem released_one {e : Effect} (h : e.kind = .releaseIDs) (v : Reservation) :
    released [e] v = (decide (e.reservation = v)).toNat := by
  by_cases hv : e.reservation = v <;> simp [released, h, hv]

theorem Releases.released {l : List Reservation} (h : Releases l es) (v : Reservation) :
    released es v = l.count v := by
  obtain ⟨hk, rfl⟩ := h
  rw [List.count, List.countP_map]
  refine List.countP_congr fun e he => ?_
  simp [hk e he]

theorem TerminalEffects.released {f : Phase} (h : TerminalEffects s f es)
    (v : Reservation) : Protocol.released es v = s.leases.abandonAll.2.count v := by
  obtain ⟨stops, rels, cancels, closes, hs, ds, rfl, h1, h2, h3, h4, h5, -, h7, -⟩ := h.split
  simp only [released_append]
  rw [h2.released v, released_of_ne (fun e he => by rw [h1 e he]; decide),
    released_of_ne (fun e he => by rw [h3 e he]; decide),
    released_of_ne (fun e he => by rw [kind_of_closes h4 e he]; decide),
    released_of_ne (fun e he => by rw [(h5 e he).1]; decide),
    released_of_ne (fun e he => by rw [(h7 e he).1]; decide)]
  omega

/-- The identifiers an input grants, until the core has taken them. -/
def Leases.owed (l : Leases) (i : Input) (v : Reservation) : Nat :=
  if i.kind = .reserveResult ∧ i.err = none ∧ i.reservation = v ∧
    (l.reservations.lookup i.token).isSome = true then 1 else 0

section

variable {l : Leases} {i : Input} {v : Reservation}

theorem owed_of_kind (h : i.kind ≠ .reserveResult) : l.owed i v = 0 := by
  simp [Leases.owed, h]

theorem owed_of_err (h : i.err.isSome = true) : l.owed i v = 0 := by
  unfold Leases.owed
  rw [if_neg]
  rintro ⟨-, hnone, -⟩
  rw [hnone] at h
  cases h

theorem owed_granted (hi : i.kind = .reserveResult) (herr : i.err = none)
    (hres : l.reservations.lookup i.token = some cmd) :
    l.owed i v = (decide (i.reservation = v)).toNat := by
  by_cases hv : i.reservation = v <;> simp [Leases.owed, hi, herr, hres, hv]

theorem owed_taken (hres : l.reservations.lookup i.token = none) : l.owed i v = 0 := by
  simp [Leases.owed, hres]

end

/-- Every identifier is accounted for: given back, held by an exchange, or just being granted. -/
structure Accounted (i : Input) (g : Reservation → Nat) (w : Work) : Prop where
  exchanges : Exchanges w.state
  account : ∀ v, released w.effects v + w.state.leases.held v + w.state.leases.owed i v = g v

namespace Accounted

variable {i : Input} {g : Reservation → Nat} {w w' : Work} (hw : Accounted i g w)
include hw

theorem free (es : List Effect) (he : w'.effects = w.effects ++ es)
    (hheld : ∀ v, w'.state.leases.held v + released es v = w.state.leases.held v)
    (howed : i.kind ≠ .reserveResult ∨
      w'.state.leases.reservations = w.state.leases.reservations)
    (hs : Exchanges w.state → Exchanges w'.state) : Accounted i g w' := by
  refine ⟨hs hw.exchanges, fun v => ?_⟩
  have haccount := hw.account v
  have hheld := hheld v
  have howed : w'.state.leases.owed i v = w.state.leases.owed i v := by
    rcases howed with h | h
    · rw [owed_of_kind h, owed_of_kind h]
    · unfold Leases.owed
      rw [h]
  rw [he, released_append, howed]
  omega

theorem keep (es : List Effect) (he : w'.effects = w.effects ++ es)
    (hes : ∀ e ∈ es, e.kind ≠ .releaseIDs) (hl : w'.state.leases = w.state.leases)
    (hserial : w.state.serial ≤ w'.state.serial)
    (hended : w'.state.phase.ended = true → w.state.phase.ended = true)
    (hp : w.state.Paces w.state.leases.load → w'.state.Paces w.state.leases.load) :
    Accounted i g w' := by
  refine hw.free es he (fun v => ?_) (.inr (by rw [hl])) fun hs => hs.keep hl hserial hended
    (hp hs.paced)
  rw [hl, released_of_ne hes]
  rfl

theorem frees (es : List Effect) (hf : w.state.leases.Frees p)
    (hl : w'.state.leases = p.1) (hr : ∀ v, released es v = p.2.count v)
    (he : w'.effects = w.effects ++ es) (hres : p.1.reservations = w.state.leases.reservations)
    (hops : ∀ t, (p.1.operations.lookup t).isSome = true →
      (w.state.leases.operations.lookup t).isSome = true)
    (hserial : w'.state.serial = w.state.serial)
    (hended : w'.state.phase.ended = true →
      w.state.phase.ended = true ∨ ∀ cmd, p.1.awaited cmd = 0)
    (hp : (∀ cmd, w'.state.leases.load cmd ≤ w.state.leases.load cmd) → Exchanges w.state →
      w'.state.Paces w'.state.leases.load) : Accounted i g w' := by
  refine hw.free es he (fun v => ?_) (.inr (by rw [hl, hres])) fun hs => ?_
  · have h := hf.held v
    rw [hl, hr v]
    exact h.symm
  · exact hs.free hf hl (fun t cmd h => hres ▸ h) (fun cmd => Nat.le_of_eq (by rw [hres])) hops
      hserial hended fun hload => hp hload hs

theorem reserve (es : List Effect)
    (hs : w'.state = s.reserve cmd) (he : w'.effects = w.effects ++ es)
    (hes : ∀ e ∈ es, e.kind ≠ .releaseIDs) (hi : i.kind ≠ .reserveResult)
    (hl : s.leases = w.state.leases) (hserial : s.serial = w.state.serial)
    (hlive : s.phase.ended = false)
    (hp : w.state.Paces w.state.leases.load → w.state.leases.load cmd = 0 ∧
      s.Paces fun c => if c = cmd then 1 else w.state.leases.load c) : Accounted i g w' := by
  refine hw.free es he (fun v => ?_) (.inl hi) fun hx => ?_
  · rw [released_of_ne hes, hs]
    show s.leases.held v + 0 = _
    rw [hl]
    rfl
  · obtain ⟨hnone, hp⟩ := hp hx.paced
    rw [hs]
    exact hx.reserve hl hserial hlive hnone hp

theorem write {op : Operation} {e : Effect}
    (hl : w'.state.leases = { w.state.leases with operations := ops, heap := heap })
    (hops : ops = w.state.leases.operations.insert (w.state.serial + 1) op)
    (hb : w'.state.leases.Balanced ∧ (∀ v, w'.state.leases.held v = w.state.leases.held v) ∧
      ∀ cmd, w'.state.leases.awaited cmd ≤ w.state.leases.awaited cmd)
    (he : w'.effects = w.effects ++ [e]) (hk : e.kind = .send)
    (hserial : w'.state.serial = w.state.serial + 1) (hlive : w'.state.phase.ended = false)
    (hp : w.state.Paces w.state.leases.load → w'.state.Paces w.state.leases.load) :
    Accounted i g w' := by
  refine hw.free [e] he (fun v => ?_) (.inr (by rw [hl])) fun hs => ?_
  · rw [released_of_ne (ne_kind_singleton hk (by decide)), hb.2.1]
    rfl
  · exact hs.write hl hops hb.1 hb.2.2 hserial hlive (hp hs.paced)

theorem exchange (hi : i.kind = .reserveResult) (herr : i.err = none)
    (hres : w.state.leases.reservations.lookup i.token = some k.command)
    (hlive : w.state.phase.ended = false) (hv : k.reservation = i.reservation) (hk : k.Fresh) :
    Accounted i g (w.set fun s => { s with leases := s.leases.exchange i.token k }) := by
  obtain ⟨hx, hheld⟩ := @Exchanges.exchange _ _ _ { w.state with
    leases := w.state.leases.exchange i.token k } hw.exchanges rfl hres hk rfl hlive
    (Paced.congr hw.exchanges.paced rfl)
  refine ⟨hx, fun v => ?_⟩
  have haccount := hw.account v
  rw [owed_granted hi herr hres] at haccount
  rw [owed_taken (AList.lookup_erase _ _)]
  have hheld := hheld v
  rw [hv] at hheld
  show released w.effects v + (w.state.leases.exchange i.token k).held v + 0 = g v
  change (w.state.leases.exchange i.token k).held v = _ at hheld
  omega

theorem fresh : w.state.leases.operations.lookup (w.state.serial + 1) = none := by
  by_contra h
  exact Nat.not_succ_le_self _
    (hw.exchanges.tokens _ (.inr (Option.isSome_iff_ne_none.2 h)))

end Accounted

theorem matchesControl_logical {h : Header}
    (hm : matchesControl (some k) h = true) : k.logical = true := by
  unfold matchesControl at hm
  simp only [Bool.and_eq_true] at hm
  exact hm.1.1.1.1

theorem State.Rearms.serial_le {n : Nat} {ts : Timers} (h : s.Rearms n ts) :
    s.serial ≤ n := by
  rcases h with ⟨rfl, -⟩ | ⟨-, rfl, -⟩
  · exact Nat.le_succ _
  · exact Nat.le_refl _

variable [BasePackage]

theorem Accounted.step {i : Input} {g : Reservation → Nat} {w w' : Work} (hm : Move i w w')
    (hw : Accounted i g w) : Accounted i g w' := by
  have hnone : ∀ e ∈ ([] : List Effect), e.kind ≠ .releaseIDs := fun _ h =>
    (List.not_mem_nil h).elim
  have hnil : w.effects = w.effects ++ [] := (List.append_nil _).symm
  have hone : ∀ {e : Effect} {k : EffectKind}, e.kind = k → k ≠ .releaseIDs →
      ∀ x ∈ [e], x.kind ≠ .releaseIDs := fun hk hn => ne_kind_singleton hk hn
  cases hm
  case quiet e hq _ =>
    exact hw.keep [e] rfl (ne_kind_singleton rfl (hq.ne_kind (by decide))) rfl (Nat.le_refl _) id id
  case unsupervise => exact hw.keep [] hnil hnone rfl (Nat.le_refl _) id fun hp =>
    hp.unsupervise.congr rfl
  case startResponder => exact hw.keep [] hnil hnone rfl (Nat.le_refl _) id (·.start)
  case startInitiator hrun hrole hphase hst _ =>
    refine hw.keep [] hnil hnone rfl (Nat.le_refl _) (fun h => ?_) (·.initiate hrole hphase hst)
    cases h
  case reserveCER e hrun hi _ hd hk _ =>
    exact hw.reserve [e] rfl rfl (hone hk (by decide)) hi rfl rfl hrun.2 fun hp => hp.ask hd
  case hold e hrun _ _ _ hk _ _ =>
    exact hw.keep [e] rfl (hone hk (by decide)) rfl (Nat.le_refl _) id id
  case admitMessage e _ hrun _ _ hk _ _ _ _ =>
    exact hw.keep [e] rfl (hone hk (by decide)) rfl (Nat.le_refl _) id id
  case runHook e _ _ _ _ _ _ _ _ _ hk _ =>
    exact hw.keep [e] rfl (hone hk (by decide)) rfl (Nat.le_succ _) id fun hp => hp.hook.congr rfl
  case impassive => exact hw.keep [] hnil hnone rfl (Nat.le_refl _) id (·.active)
  case candidate e _ _ _ _ _ _ _ _ _ hpass _ _ hk _ =>
    exact hw.keep [e] rfl (hone hk (by decide)) rfl (Nat.le_succ _) id fun hp =>
      (hp.choose hpass).congr rfl
  case answer e _ op _ hrun _ _ hctl _ _ _ _ hk _ _ _ =>
    have hops : ∀ r, (GoMap.count (w.state.leases.operations.insert (w.state.serial + 1) op)
        fun op => op.control = some r) = w.state.leases.sends r := by
      intro r
      rw [GoMap.count_insert_new _ _ hw.fresh, hctl]
      rfl
    refine hw.write rfl rfl ⟨hw.exchanges.balanced.operations hops ?_, fun _ => rfl,
      fun _ => Nat.le_refl _⟩ rfl hk rfl hrun.2
      (·.congr rfl)
    intro t op' h r hr
    rw [GoMap.lookup_insert_eq] at h
    split at h
    · rw [← Option.some.inj h, hctl] at hr
      cases hr
    · exact hw.exchanges.balanced.known t op' h r hr
  case activate e hrun _ _ hphase hc _ hk =>
    refine hw.keep [e] rfl (hone hk (by decide)) rfl (Nat.le_succ _) (fun h => ?_) fun hp => ?_
    · cases h
    refine Paced.congr ((hp.opened (m := if i.recovery then { w.state.wd with state := .down }
      else w.state.wd) (.inl hphase) (hp.chosen hc) ?_).decide) rfl
    split
    · exact .inr rfl
    · exact .inl rfl
  case rejectCandidate =>
    exact hw.keep [] hnil hnone rfl (Nat.le_refl _) id fun hp => hp.decide.congr rfl
  case settleCER r es hrun _ hr hrel =>
    obtain ⟨k, hk, -⟩ := hw.exchanges.balanced.indexed _ r hr
    refine hw.frees _ (hw.exchanges.balanced.settle hk) rfl hrel.released rfl (by simp) (by simp)
      rfl .inl fun hload hs =>
        (hs.paced.mono hload).congr rfl
  case admitted e _ _ hrun hphase hk =>
    refine hw.keep [e] rfl (hone hk (by decide)) rfl (Nat.le_succ _) (fun h => ?_) fun hp => ?_
    · cases h
    have hpass : w.state.passive = false := by
      by_contra h
      have hresp := hp.responds ((Bool.not_eq_false _).mp h)
      rcases hphase with hphase | ⟨-, hrole⟩
      · exact hresp.2 hphase
      · rw [hresp.1] at hrole
        cases hrole
    exact (hp.opened (hphase.symm.imp And.left id) hpass (.inl rfl)).congr rfl
  case handshakeReady e _ _ hk =>
    exact hw.keep [e] rfl (hone hk (by decide)) rfl (Nat.le_refl _) id (·.congr rfl)
  case releaseAdmission e _ _ ho _ hwatch hk =>
    exact hw.keep [e] rfl (hone hk.1 (by decide)) rfl (Nat.le_refl _) id fun hp =>
      (hp.release ho hwatch).congr rfl
  case releaseSupervised e n ts _ _ ho hr hwatch _ htimers hk =>
    have hn : w.state.serial ≤ n := by
      split at htimers
      · exact htimers.serial_le
      · exact Nat.le_of_eq htimers.1.symm
    exact hw.keep [e] rfl (hone hk.1 (by decide)) rfl hn id fun hp =>
      (hp.watch ho hr hwatch).congr rfl
  case releaseRecovering e f hrun hi ho hr hwatch hsend hk hf _ =>
    refine hw.reserve [e, f] rfl rfl ?_ (by simp [hi]) rfl rfl hrun.2 fun hp => ?_
    · intro x hx
      rcases List.mem_pair.1 hx with rfl | rfl
      · simp [hk.1]
      · simp [hf]
    · obtain ⟨hz, hp⟩ := hp.recover ho hr hwatch hsend
      exact ⟨hz, hp.congr rfl⟩
  case wdStep ev _ ho hwatch hev hsend _ =>
    exact hw.keep [] hnil hnone rfl (Nat.le_refl _) id
      (·.stepped ho hwatch (hev.imp_right And.left) hsend)
  case probe e hrun hi ho hwatch hn hsend hk _ =>
    refine hw.reserve [e] rfl rfl (hone hk (by decide)) hi rfl rfl hrun.2 fun hp => ?_
    obtain ⟨hz, hp⟩ := hp.probe ho hwatch hn hsend
    exact ⟨hz, hp.congr rfl⟩
  case published next n ts _ ho hn htimers =>
    exact hw.keep [] hnil hnone rfl htimers.serial_le id fun hp => (hp.publish ho hn).congr rfl
  case consume r hrun =>
    obtain ⟨hb, hheld, haw⟩ := hw.exchanges.balanced.consume r rfl
    refine hw.frees (p := (_, [])) [] ⟨hb, fun v => (hheld v).symm, haw⟩ rfl
      (fun _ => rfl) hnil rfl (fun _ => id) rfl .inl fun hload hs =>
        (hs.paced.mono hload).congr rfl
  case credit r k p es hrun _ _ _ hr hk hcredit _ hrel =>
    obtain ⟨k', hk', hcmd⟩ := hw.exchanges.balanced.indexed _ r hr
    rw [hk, Option.some.injEq] at hk'
    subst hk'
    have hlt := Leases.awaited_drop_lt hk (matchesControl_logical hcredit.correlated)
      (f := fun k => { k with logical := false, answered := true }) rfl w.state.leases.operations
    rw [hcmd] at hlt
    refine hw.frees _ (hw.exchanges.balanced.settle hk) rfl hrel.released rfl (by simp) (by simp)
      rfl .inl fun hload hs => ?_
    have hdw : (w.state.leases.settle r).1.load .deviceWatchdog + 1 ≤
        w.state.leases.load .deviceWatchdog := by
      unfold Leases.load
      rw [Leases.settle_reservations]
      exact Nat.add_le_add_left hlt _
    exact ((hs.paced.settle hdw (hs.single _)).mono (hload _) (Nat.le_refl _) (hload _)).congr rfl
  case beginClosing e es n isLocal ts hrun ho htimers hlocal _ hquiet hk _ =>
    refine hw.keep (es ++ [e]) (List.append_assoc _ _ _) (fun x hx => ?_) rfl
      (Nat.le_of_lt htimers.serial) (fun h => ?_) fun hp => ?_
    · rcases List.mem_append.1 hx with hx | hx
      · exact (hquiet x hx).ne_kind (by decide)
      · exact hone hk (by decide) x hx
    · cases h
    · exact (hp.close (r := i.message) (t := i.token) ho fun h => (hlocal h).2).congr rfl
  case frozen _ _ hc hf _ _ _ =>
    exact hw.keep [] hnil hnone rfl (Nat.le_refl _) id fun hp => (hp.freeze hc).congr rfl
  case frozenLocal e hrun hi hc hf _ hlocal hk _ =>
    refine hw.reserve [e] rfl rfl (hone hk (by decide)) (by simp [hi]) rfl rfl hrun.2 fun hp => ?_
    obtain ⟨hz, hp⟩ := hp.freezeLocal hc hf hlocal
    exact ⟨hz, hp.congr rfl⟩
  case disconnectClosing e hrun hi hc hf _ hwait hk _ =>
    refine hw.reserve [e] rfl rfl (hone hk (by decide)) (by simp [hi]) rfl rfl hrun.2 fun hp => ?_
    obtain ⟨hz, hp⟩ := hp.disconnectClosing hc hf hwait
    exact ⟨hz, hp.congr rfl⟩
  case dpaSettled r k es hrun _ hk _ hrel =>
    refine hw.frees _ (hw.exchanges.balanced.settle hk) rfl hrel.released rfl (by simp) (by simp)
      rfl .inl fun hload hs =>
        (hs.paced.mono hload).congr rfl
  case terminate f es hrun hf hes =>
    obtain ⟨hfrees, hzero⟩ := hw.exchanges.balanced.abandonAll
    exact hw.frees _ hfrees rfl hes.released rfl (by simp) (by simp) rfl (fun _ => .inr hzero)
      fun hload hs => Paced.ended (hs.paced.mono hload) hf
  case disconnected es e hrun _ hes hk =>
    obtain ⟨hfrees, hzero⟩ := hw.exchanges.balanced.abandonAll
    refine hw.frees (es ++ [e]) hfrees rfl (fun v => ?_) (List.append_assoc _ _ _) (by simp)
      (by simp) rfl (fun _ => .inr hzero) fun hload hs => Paced.ended (hs.paced.mono hload) rfl
    rw [released_append, hes.released, released_of_ne (hone hk.1 (by decide))]
    rfl
  case reserveFailed cmd _ _ herr hres =>
    refine ⟨hw.exchanges.erase hres, fun v => ?_⟩
    have haccount := hw.account v
    rw [owed_of_err herr] at haccount ⊢
    exact haccount
  case returned cmd e _ hi herr hres _ hk hv =>
    refine ⟨hw.exchanges.erase hres, fun v => ?_⟩
    have haccount := hw.account v
    rw [owed_granted hi herr hres] at haccount
    rw [owed_taken (AList.lookup_erase _ _)]
    show released (w.effects ++ [e]) v + w.state.leases.held v + 0 = g v
    rw [released_append, released_one hk, hv]
    omega
  case exchange k hrun hi herr hres _ hv hfresh _ => exact hw.exchange hi herr hres hrun.2 hv hfresh
  case request k op m e hrun hi herr hres _ hv hfresh _ _ hop he =>
    have hx := hw.exchange hi herr hres hrun.2 hv hfresh
    have hk : (w.state.leases.exchange i.token k).heap[w.state.leases.heap.length]? = some k :=
      List.getElem?_concat_length
    exact hx.write rfl rfl (hx.exchanges.balanced.send hk hfresh.logical (.inl hfresh.attempts)
      hop.control hx.fresh) rfl he.kind rfl hrun.2 (·.congr rfl)
  case retransmit r k op m e hrun _ hk hlog hr _ hop he =>
    obtain ⟨k', hk', hcmd⟩ := hw.exchanges.balanced.indexed _ r hr
    rw [hk, Option.some.injEq] at hk'
    subst hk'
    exact hw.write rfl rfl (hw.exchanges.balanced.send hk hlog (.inr hcmd) hop.control hw.fresh)
      rfl he.kind rfl hrun.2 (·.congr rfl)
  case finishWrite op written es _ _ _ hop _ hrel =>
    refine hw.frees _ (hw.exchanges.balanced.writeDone written hop) rfl hrel.released rfl
      (by simp [Leases.writeDone]) (fun t => by simpa [Leases.writeDone] using GoMap.isSome_of_erase) rfl .inl fun hload hs =>
        (hs.paced.mono hload).congr rfl
  case progress op op' _ _ _ _ hop hctl _ _ _ =>
    have hops : ∀ r, (GoMap.count (w.state.leases.operations.insert i.token op')
        fun op => op.control = some r) = w.state.leases.sends r := by
      intro r
      have h := GoMap.count_insert op' (fun op => decide (op.control = some r)) hop
      simp only [hctl] at h
      exact Nat.add_right_cancel h
    refine hw.frees (p := (_, [])) [] ⟨hw.exchanges.balanced.operations hops ?_,
      fun _ => rfl, fun _ => Nat.le_refl _⟩ rfl (fun _ => rfl) hnil rfl (fun t h => ?_) rfl .inl
        fun hload hs => (hs.paced.mono hload).congr rfl
    · intro t op'' h r hr
      rw [GoMap.lookup_insert_eq] at h
      split at h
      · rw [← Option.some.inj h, hctl] at hr
        exact hw.exchanges.balanced.known _ op hop r hr
      · exact hw.exchanges.balanced.known t op'' h r hr
    · change ((w.state.leases.operations.insert i.token op').lookup t).isSome = true at h
      rw [GoMap.lookup_insert_eq] at h
      split at h
      next ht =>
        rw [ht, hop]
        rfl
      · exact h
  case skipped op r k es _ _ _ hop hc hk hrel _ =>
    refine hw.frees _ (hw.exchanges.balanced.writeSkipped hop hc) rfl hrel.released rfl
      (by simp [Leases.writeSkipped])
      (fun t => by simpa [Leases.writeSkipped] using GoMap.isSome_of_erase) rfl .inl fun hload hs =>
        (hs.paced.mono hload).congr rfl
  case skippedProbe op r k es _ _ _ hop hc hk hrel hcmd hwritten hlog =>
    have hlt := hw.exchanges.balanced.skipped_awaited hop hc hk (by simp [hcmd]) hwritten hlog
    rw [hcmd] at hlt
    refine hw.frees _ (hw.exchanges.balanced.writeSkipped hop hc) rfl hrel.released rfl
      (by simp [Leases.writeSkipped])
      (fun t => by simpa [Leases.writeSkipped] using GoMap.isSome_of_erase) rfl .inl fun hload hs => ?_
    have hdw : (w.state.leases.writeSkipped i.token r).1.load .deviceWatchdog + 1 ≤
        w.state.leases.load .deviceWatchdog := by
      unfold Leases.load
      rw [Leases.writeSkipped, Leases.finish_reservations]
      exact Nat.add_le_add_left hlt _
    exact ((hs.paced.settle hdw (hs.single _)).mono (hload _) (Nat.le_refl _) (hload _)).congr rfl
  case tick | arm => exact hw.keep [] hnil hnone rfl (Nat.le_succ _) id (·.congr rfl)
  all_goals exact hw.keep [] hnil hnone rfl (Nat.le_refl _) id (·.congr rfl)

/-! ## Runs -/

def Event.owed (l : Leases) (v : Reservation) : Event → Nat
  | .input i => l.owed i v
  | .refresh _ => 0

omit [BasePackage] in
theorem Exchanges.refresh {s' : State} (hs : Exchanges s) (h : Refresh s s') : Exchanges s' := by
  refine hs.keep h.leases (Nat.le_of_eq (by cases h <;> rfl)) ?_ (hs.paced.refresh h)
  cases h with
  | ignored => exact id
  | absent _ _ _ =>
    dsimp only
    split
    · exact fun h => (Bool.false_ne_true h).elim
    · exact id
  | present _ _ =>
    dsimp only
    split
    · exact fun h => (Bool.false_ne_true h).elim
    · exact fun h => (Bool.false_ne_true h).elim

theorem Exchanges.step {s' : State} {e : Event} (h : Step s e es s') (hs : Exchanges s) :
    Exchanges s' ∧ ∀ v, released es v + s'.leases.held v +
      e.owed s'.leases v = s.leases.held v + e.owed s.leases v := by
  cases h with
  | @input i w hm =>
    have hw := hm.invariant (P := Accounted i fun v => s.leases.held v + s.leases.owed i v)
      (fun h => Accounted.step h) ⟨hs, fun v => by simp [released]⟩
    exact ⟨hw.exchanges, hw.account⟩
  | @late i es _ hi _ _ hes =>
    refine ⟨hs.keep rfl (Nat.le_refl _) id (hs.paced.congr rfl), fun v => ?_⟩
    have hrel : ∀ e ∈ es, e.kind ≠ .releaseIDs := by
      intro e he
      rcases hes.mem he with h | h
      · simp [h]
      · simp [h.1]
    rw [released_of_ne hrel, Nat.zero_add]
  | refresh h =>
    refine ⟨hs.refresh h, fun v => ?_⟩
    rw [h.leases]
    exact congrArg (· + _) (Nat.zero_add _)

theorem Created.exchanges {c : Core} (h : Created c) : Exchanges c.state := by
  have hinit : ∀ (cfg : Config) (st pas v : Bool), (pas = true → cfg.role = .responder) →
      Exchanges { Core.init cfg with
        started := st, passiveResponder := pas, passiveWatchdog := v }.state := by
    intro cfg st pas v hpas
    refine ⟨⟨⟨?_, ?_, ?_, ?_, ?_, ?_⟩, ?_⟩, ?_, fun _ => Nat.zero_le _, fun _ _ => rfl, ?_⟩
    all_goals try exact fun _ _ h => by cases h
    · rintro t (h | h)
      · cases (congrArg Option.isSome (GoMap.lookup_empty_eq t)).symm.trans h
      · cases (congrArg Option.isSome (GoMap.lookup_empty_eq t)).symm.trans h
    · refine ⟨nofun, fun _ => rfl, nofun, fun _ _ => rfl, fun _ _ => ⟨?_, rfl, rfl⟩, nofun, ?_,
        fun h => ⟨hpas h, nofun⟩, nofun, nofun, nofun, nofun⟩
      · show (if cfg.recovery then Watchdog.State.down else .initial) = _ ∨
          (if cfg.recovery then Watchdog.State.down else .initial) = _
        split
        · exact .inr rfl
        · exact .inl rfl
      · exact fun h => (h rfl).elim
  rcases h.cases_init with ⟨cfg, rfl⟩ | ⟨cfg, peer, hr, rfl⟩
  · exact hinit cfg false false false nofun
  · exact (hinit cfg true true cfg.watchdog fun _ => hr).refresh (refreshAdmission_refresh _ _)

end Diameter.Protocol
