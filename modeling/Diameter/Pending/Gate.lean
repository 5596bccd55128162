import Diameter.Pending.Tracker

/-!
# Pending.Gate

The write gate of a connection and the writers that contend for it. The gate has a mutex `g.mu` of
its own, held for the whole of `attempt` and for the body of `unlock`; the tracker's lock is taken
inside it, by `admit`. So a writer is in one of the phases below, a section of the tracker is one
step, and between any two steps any other writer, `Cancel` or `CloseAdmission` may come.

Every generation of the connection has a tracker of its own, and they share the gate.

`write_gate` collects what holds in every reachable state: one holder at most, admission and
registration in one step, no admission after closing, and every waiter on a channel that is closed
or that the holder will close. So no writer waits for ever while the others are done
(`gate_progress`).
-/

namespace Diameter.Pending

open Lib PendingRequests

variable {t : Nat} {ph : Phase}

/-- A ticket of the tracker of a generation. -/
structure Ticket where
  generation : Nat
  number : Nat
deriving DecidableEq, Repr

/-- What a writer asks of the gate: `lock`, `lockUntil` or a bare `attempt(nil)`. -/
inductive Mode where
  | lock (r : Option Ticket)
  | lockUntil
  | attempt
deriving DecidableEq, Repr

def Mode.ticket : Mode → Option Ticket
  | .lock r => r
  | .lockUntil | .attempt => none

/-- What `attempt` returns. -/
inductive Attempt where
  | locked
  | busy (ready : Nat)
  | failed (e : AdmitError)
deriving DecidableEq, Repr

inductive Phase where
  | idle
  /-- Before `g.mu.Lock` of `attempt`. -/
  | entering (m : Mode)
  | inside (m : Mode)
  /-- Before `g.mu.Unlock` of `attempt`. -/
  | leaving (m : Mode) (a : Attempt)
  /-- In the `select` of `lock` or `lockUntil`. -/
  | waiting (m : Mode) (ready : Nat)
  | holding (r : Option Ticket)
  | unlocking (r : Option Ticket)
  | unlockInside (r : Option Ticket)
  | unlockLeaving
deriving DecidableEq, Repr

/-- Where `attempt` returns to. -/
def Mode.after : Mode → Attempt → Phase
  | m, .locked => .holding m.ticket
  | .attempt, .busy _ => .idle
  | m, .busy ch => .waiting m ch
  | _, .failed _ => .idle

/-- The writer owns the gate, and the ticket it was admitted with. -/
def Phase.holder : Phase → Option (Option Ticket)
  | .leaving m .locked => some m.ticket
  | .holding r | .unlocking r | .unlockInside r => some r
  | _ => none

/-- The writer owns the gate's mutex. -/
def Phase.inMutex : Phase → Bool
  | .inside _ | .leaving .. | .unlockInside _ | .unlockLeaving => true
  | _ => false

/-- The channel that the writer took away when it found the gate held. -/
def Phase.ready : Phase → Option Nat
  | .leaving _ (.busy ch) | .waiting _ ch => some ch
  | _ => none

/-- The gate, its channels, the trackers and the writers. -/
structure World where
  held : Bool := false
  ready : Option Nat := none
  mu : Option Nat := none
  channels : Nat := 0
  closed : Nat → Bool := fun _ => false
  tracker : Nat → PendingRequests := fun _ => {}
  phase : Nat → Phase := fun _ => .idle

namespace World

/-- The body of `attempt`, between `g.mu.Lock` and `g.mu.Unlock`. -/
def attempt (w : World) (r : Option Ticket) : World × Attempt :=
  if w.held then
    match w.ready with
    | some ch => (w, .busy ch)
    | none => ({ w with ready := some w.channels, channels := w.channels + 1 }, .busy w.channels)
  else
    match r with
    | none => ({ w with held := true }, .locked)
    | some r =>
      match (w.tracker r.generation).admitWrite r.number with
      | .error e => (w, .failed e)
      | .ok p => ({ w with
          held := true
          tracker := Function.update w.tracker r.generation p }, .locked)

/-- The body of `unlock`. -/
def unlock (w : World) : World :=
  match w.ready with
  | none => { w with held := false }
  | some ch => { w with held := false, ready := none, closed := Function.update w.closed ch true }

def setPhase (w : World) (t : Nat) (ph : Phase) : World :=
  { w with phase := Function.update w.phase t ph }

end World

/-- A section of a tracker's lock other than `admit`. -/
inductive TrackerStep (p : PendingRequests) : PendingRequests → Prop where
  | prepareWrite (h : Header) : TrackerStep p (p.prepareWrite h)
  | publication (b : Bytes) : TrackerStep p (p.publication b).1
  | cancel (r : Nat) : TrackerStep p (p.cancel r)
  | release (r : Nat) : TrackerStep p (p.release r)
  | matchAnswer (h : Option Header) (consume : Bool) : TrackerStep p (p.matchAnswer h consume).1
  | closeAdmission : TrackerStep p p.closeAdmission

inductive Step (w : World) : World → Prop where
  | call (t : Nat) (m : Mode) (h : w.phase t = .idle) : Step w (w.setPhase t (.entering m))
  | enter (t : Nat) (m : Mode) (h : w.phase t = .entering m) (hmu : w.mu = none) :
      Step w { w.setPhase t (.inside m) with mu := some t }
  | attempt (t : Nat) (m : Mode) (h : w.phase t = .inside m) :
      Step w ((w.attempt m.ticket).1.setPhase t (.leaving m (w.attempt m.ticket).2))
  | leave (t : Nat) (m : Mode) (a : Attempt) (h : w.phase t = .leaving m a) :
      Step w { w.setPhase t (Mode.after m a) with mu := none }
  | wake (t : Nat) (m : Mode) (ch : Nat) (h : w.phase t = .waiting m ch)
      (hclosed : w.closed ch = true) : Step w (w.setPhase t (.entering m))
  /-- `select` takes the case of the closing channel or of the ticket's `done`. -/
  | giveUp (t : Nat) (r : Ticket) (ch : Nat) (h : w.phase t = .waiting (.lock (some r)) ch)
      (hdone : (w.tracker r.generation).closing = true ∨
        ((w.tracker r.generation).ticket r.number).cancelled = true) : Step w (w.setPhase t .idle)
  /-- The timer of `lockUntil`. -/
  | timeout (t : Nat) (ch : Nat) (h : w.phase t = .waiting .lockUntil ch) :
      Step w (w.setPhase t .idle)
  | unlock (t : Nat) (r : Option Ticket) (h : w.phase t = .holding r) :
      Step w (w.setPhase t (.unlocking r))
  | unlockEnter (t : Nat) (r : Option Ticket) (h : w.phase t = .unlocking r) (hmu : w.mu = none) :
      Step w { w.setPhase t (.unlockInside r) with mu := some t }
  | unlockBody (t : Nat) (r : Option Ticket) (h : w.phase t = .unlockInside r) :
      Step w (w.unlock.setPhase t .unlockLeaving)
  | unlockLeave (t : Nat) (h : w.phase t = .unlockLeaving) :
      Step w { w.setPhase t .idle with mu := none }
  | tracker (g : Nat) (p : PendingRequests) (h : TrackerStep (w.tracker g) p) :
      Step w { w with tracker := Function.update w.tracker g p }

/-- The states that a connection without writers leads to. -/
def Reachable : World → Prop := Relation.ReflTransGen Step {}

namespace World

variable {w w' : World}

/-! ## What the bodies do -/

theorem attempt_of_held (h : w.held = true) (r : Option Ticket) :
    ∃ ch, (w.attempt r).2 = .busy ch ∧ (w.attempt r).1 =
      { w with ready := some ch, channels := (w.attempt r).1.channels } ∧
      (w.ready = some ch ∧ (w.attempt r).1.channels = w.channels ∨
        w.ready = none ∧ ch = w.channels ∧ (w.attempt r).1.channels = w.channels + 1) := by
  unfold attempt
  rw [if_pos h]
  cases hr : w.ready with
  | some ch => exact ⟨ch, rfl, by simp [← hr], .inl ⟨rfl, rfl⟩⟩
  | none => exact ⟨w.channels, rfl, rfl, .inr ⟨rfl, rfl, rfl⟩⟩

theorem attempt_of_free (h : w.held = false) (r : Option Ticket) :
    (∃ e, (w.attempt r).2 = .failed e ∧ (w.attempt r).1 = w) ∨
    (w.attempt r).2 = .locked ∧
      (w.attempt r).1 = { w with held := true, tracker := (w.attempt r).1.tracker } ∧
      ∀ ticket, r = some ticket →
        ((w.tracker ticket.generation).ticket ticket.number).cancelled = false ∧
        (w.tracker ticket.generation).closing = false ∧
        ((w.attempt r).1.tracker ticket.generation).pending.lookup
          ((w.tracker ticket.generation).ticket ticket.number).key = some ticket.number := by
  unfold attempt
  rw [if_neg (by simp [h])]
  cases r with
  | none => exact .inr ⟨rfl, rfl, nofun⟩
  | some ticket =>
    dsimp only
    unfold admitWrite
    cases hc : ((w.tracker ticket.generation).ticket ticket.number).cancelled with
    | true => exact .inl ⟨.requestCompleted, rfl, rfl⟩
    | false =>
      cases hcl : (w.tracker ticket.generation).closing with
      | true => exact .inl ⟨.connectionClosing, rfl, rfl⟩
      | false =>
        refine .inr ⟨rfl, rfl, fun ticket' heq => ?_⟩
        cases heq
        refine ⟨hc, hcl, ?_⟩
        simp

/-! ## The invariant -/

structure Inv (w : World) : Prop where
  mutex : ∀ t, (w.phase t).inMutex = true ↔ w.mu = some t
  held : w.held = true ↔ ∃ t, (w.phase t).holder.isSome = true
  one : ∀ t t', (w.phase t).holder.isSome = true → (w.phase t').holder.isSome = true → t = t'
  ready : ∀ ch, w.ready = some ch → w.held = true ∧ w.closed ch = false ∧ ch < w.channels
  waits : ∀ t ch, (w.phase t).ready = some ch → w.closed ch = true ∨ w.ready = some ch
  fresh : ∀ ch, w.channels ≤ ch → w.closed ch = false

theorem Inv.start : Inv {} where
  mutex := by simp [Phase.inMutex]
  held := by simp [Phase.holder]
  one := by simp [Phase.holder]
  ready := by simp
  waits := by simp [Phase.ready]
  fresh := by simp

@[simp] theorem setPhase_phase_self (w : World) (t : Nat) (ph : Phase) :
    (w.setPhase t ph).phase t = ph :=
  Function.update_self ..

theorem setPhase_phase_ne (w : World) {t u : Nat} (ph : Phase) (h : u ≠ t) :
    (w.setPhase t ph).phase u = w.phase u :=
  Function.update_of_ne h ..

theorem setPhase_congr {α : Type} (f : Phase → α) (h : f ph = f (w.phase t)) (u : Nat) :
    f ((w.setPhase t ph).phase u) = f (w.phase u) := by
  by_cases hu : u = t
  · rw [hu, setPhase_phase_self, h]
  · rw [setPhase_phase_ne w ph hu]

theorem Inv.move (h : Inv w) {mu : Option Nat}
    (hmutex : ∀ u, ((w.setPhase t ph).phase u).inMutex = true ↔ mu = some u)
    (hholder : ph.holder.isSome = (w.phase t).holder.isSome)
    (hready : ∀ ch, ph.ready = some ch → w.closed ch = true ∨ w.ready = some ch) :
    Inv { w.setPhase t ph with mu := mu } := by
  have hsame : ∀ u, ((w.setPhase t ph).phase u).holder.isSome = (w.phase u).holder.isSome :=
    setPhase_congr (fun ph => ph.holder.isSome) hholder
  refine ⟨hmutex, ?_, fun u u' hu hu' => ?_, h.ready, fun u ch hu => ?_, h.fresh⟩
  · show w.held = true ↔ ∃ u, ((w.setPhase t ph).phase u).holder.isSome = true
    simpa only [hsame] using h.held
  · exact h.one u u' (hsame u ▸ hu) (hsame u' ▸ hu')
  replace hu : ((w.setPhase t ph).phase u).ready = some ch := hu
  by_cases hut : u = t
  · rw [hut, setPhase_phase_self] at hu
    exact hready ch hu
  · rw [setPhase_phase_ne w ph hut] at hu
    exact h.waits u ch hu

theorem Inv.moveOn (h : Inv w) (hmutex : ph.inMutex = (w.phase t).inMutex)
    (hholder : ph.holder.isSome = (w.phase t).holder.isSome)
    (hready : ∀ ch, ph.ready = some ch → w.closed ch = true ∨ w.ready = some ch) :
    Inv (w.setPhase t ph) := by
  refine h.move (fun u => ?_) hholder hready
  rw [setPhase_congr Phase.inMutex hmutex]
  exact h.mutex u

theorem Inv.lockMu (h : Inv w) (hmu : w.mu = none) (hmutex : ph.inMutex = true)
    (hholder : ph.holder.isSome = (w.phase t).holder.isSome) (hready : ph.ready = none) :
    Inv { w.setPhase t ph with mu := some t } := by
  refine h.move (fun u => ?_) hholder (by simp [hready])
  by_cases hu : u = t
  · rw [hu, setPhase_phase_self]
    simp [hmutex]
  · rw [setPhase_phase_ne w ph hu, h.mutex u, hmu]
    simp [Ne.symm hu]

theorem Inv.unlockMu (h : Inv w) (hin : (w.phase t).inMutex = true) (hmutex : ph.inMutex = false)
    (hholder : ph.holder.isSome = (w.phase t).holder.isSome)
    (hready : ∀ ch, ph.ready = some ch → (w.phase t).ready = some ch) :
    Inv { w.setPhase t ph with mu := none } := by
  refine h.move (fun u => ?_) hholder fun ch hch => h.waits t ch (hready ch hch)
  by_cases hu : u = t
  · rw [hu, setPhase_phase_self]
    simp [hmutex]
  have hmu := (h.mutex t).1 hin
  rw [setPhase_phase_ne w ph hu, h.mutex u, hmu]
  simp [Ne.symm hu]

theorem Inv.attempt_held (h : Inv w) (hheld : w.held = true) (r : Option Ticket) :
    ∃ ch, (w.attempt r).2 = .busy ch ∧ (w.attempt r).1.ready = some ch ∧ Inv (w.attempt r).1 := by
  obtain ⟨ch, ha, hw, hch⟩ := attempt_of_held hheld r
  refine ⟨ch, ha, by rw [hw], ?_⟩
  rw [hw]
  rcases hch with ⟨hready, hchannels⟩ | ⟨hready, rfl, hchannels⟩
  · rw [hchannels, ← hready]
    exact h
  rw [hchannels]
  refine ⟨h.mutex, h.held, h.one, fun c hc => ?_, fun u c hu => ?_, fun c hc => ?_⟩
  · cases hc
    exact ⟨hheld, h.fresh _ le_rfl, Nat.lt_succ_self _⟩
  · refine (h.waits u c hu).imp_right fun hc => ?_
    rw [hready] at hc
    cases hc
  · exact h.fresh c (by dsimp only at hc; omega)

theorem Inv.take (h : Inv w) (hfree : w.held = false) {m : Mode} (ht : w.phase t = .inside m)
    (tracker : Nat → PendingRequests) :
    Inv (setPhase { w with held := true, tracker := tracker } t (.leaving m .locked)) := by
  have hnone : ∀ u, (w.phase u).holder.isSome ≠ true := by
    intro u hu
    have := h.held.2 ⟨u, hu⟩
    rw [hfree] at this
    cases this
  have honly : ∀ u, ((w.setPhase t (.leaving m .locked)).phase u).holder.isSome = true → u = t := by
    intro u hu
    by_contra hut
    rw [setPhase_phase_ne w _ hut] at hu
    exact hnone u hu
  refine ⟨fun u => ?_, ?_, fun u u' hu hu' => (honly u hu).trans (honly u' hu').symm,
    fun ch hch => ?_, fun u ch hu => ?_, h.fresh⟩
  · show ((w.setPhase t (.leaving m .locked)).phase u).inMutex = true ↔ _
    rw [setPhase_congr Phase.inMutex (by rw [ht]; rfl)]
    exact h.mutex u
  · refine ⟨fun _ => ⟨t, ?_⟩, fun _ => rfl⟩
    rw [setPhase_phase_self]
    rfl
  · have := (h.ready ch hch).1
    rw [hfree] at this
    cases this
  · replace hu : ((w.setPhase t (.leaving m .locked)).phase u).ready = some ch := hu
    by_cases hut : u = t
    · rw [hut, setPhase_phase_self] at hu
      cases hu
    · rw [setPhase_phase_ne w _ hut] at hu
      exact h.waits u ch hu

theorem Inv.attempt (h : Inv w) {m : Mode} (ht : w.phase t = .inside m) :
    Inv ((w.attempt m.ticket).1.setPhase t (.leaving m (w.attempt m.ticket).2)) := by
  cases hheld : w.held with
  | true =>
    obtain ⟨ch, ha, hready, hinv⟩ := h.attempt_held hheld m.ticket
    have hphase : (w.attempt m.ticket).1.phase t = .inside m := by
      obtain ⟨_, _, hw, _⟩ := attempt_of_held hheld m.ticket
      rw [hw]
      exact ht
    rw [ha]
    refine hinv.moveOn (by rw [hphase]; rfl) (by rw [hphase]; rfl) fun c hc => ?_
    cases hc
    exact .inr hready
  | false =>
    rcases attempt_of_free hheld m.ticket with ⟨e, ha, hw⟩ | ⟨ha, hw, -⟩
    · rw [ha, hw]
      exact h.moveOn (by rw [ht]; rfl) (by rw [ht]; rfl) nofun
    · rw [ha, hw]
      exact h.take hheld ht _

/-- `unlock` closes the channel of everyone who found the gate held. -/
theorem Inv.unlockBody (h : Inv w) {r : Option Ticket} (ht : w.phase t = .unlockInside r) :
    Inv (w.unlock.setPhase t .unlockLeaving) := by
  have hphase : w.unlock.phase = w.phase := by unfold World.unlock; split <;> rfl
  have hmu : w.unlock.mu = w.mu := by unfold World.unlock; split <;> rfl
  have hchannels : w.unlock.channels = w.channels := by unfold World.unlock; split <;> rfl
  have hheld : w.unlock.held = false := by unfold World.unlock; split <;> rfl
  have hready : w.unlock.ready = none := by
    unfold World.unlock
    split
    · assumption
    · rfl
  have hclosed : ∀ ch, w.unlock.closed ch = true ↔ w.closed ch = true ∨ w.ready = some ch := by
    intro ch
    unfold World.unlock
    cases hr : w.ready with
    | none => simp
    | some c =>
      dsimp only
      rw [Function.update_apply]
      split
      next heq => simp [heq]
      next hne => simp [Ne.symm hne]
  have hnone : ∀ u, ¬ ((w.unlock.setPhase t .unlockLeaving).phase u).holder.isSome = true := by
    intro u hu
    by_cases hut : u = t
    · rw [hut, setPhase_phase_self] at hu
      cases hu
    · rw [setPhase_phase_ne _ _ hut, hphase] at hu
      exact hut (h.one u t hu (by rw [ht]; rfl))
  refine ⟨fun u => ?_, ?_, fun u u' hu => absurd hu (hnone u), fun ch hch => ?_, fun u ch hu => ?_,
    fun ch hch => ?_⟩
  · rw [setPhase_congr Phase.inMutex (by rw [hphase, ht]; rfl), hphase]
    show _ ↔ w.unlock.mu = some u
    rw [hmu]
    exact h.mutex u
  · refine ⟨fun hw => ?_, fun ⟨u, hu⟩ => absurd hu (hnone u)⟩
    replace hw : w.unlock.held = true := hw
    rw [hheld] at hw
    cases hw
  · replace hch : w.unlock.ready = some ch := hch
    rw [hready] at hch
    cases hch
  · left
    show w.unlock.closed ch = true
    rw [hclosed]
    by_cases hut : u = t
    · rw [hut, setPhase_phase_self] at hu
      cases hu
    · rw [setPhase_phase_ne _ _ hut, hphase] at hu
      exact h.waits u ch hu
  · replace hch : w.unlock.channels ≤ ch := hch
    rw [hchannels] at hch
    show w.unlock.closed ch = false
    rw [Bool.eq_false_iff, ne_eq, hclosed, h.fresh ch hch]
    rintro (hc | hc)
    · cases hc
    · have := (h.ready ch hc).2.2
      omega

theorem after_inMutex (m : Mode) (a : Attempt) : (m.after a).inMutex = false := by
  cases m <;> cases a <;> rfl

theorem after_holder (m : Mode) (a : Attempt) :
    (m.after a).holder = (Phase.leaving m a).holder := by
  cases m <;> cases a <;> rfl

theorem after_ready {m : Mode} {a : Attempt} {ch : Nat} (h : (m.after a).ready = some ch) :
    (Phase.leaving m a).ready = some ch := by
  cases m <;> cases a <;> first | exact h | cases h

theorem Inv.step (h : Inv w) (hstep : Step w w') : Inv w' := by
  cases hstep with
  | call t m ht => exact h.moveOn (by rw [ht]; rfl) (by rw [ht]; rfl) nofun
  | enter t m ht hmu => exact h.lockMu hmu rfl (by rw [ht]; rfl) rfl
  | attempt t m ht => exact h.attempt ht
  | leave t m a ht =>
    exact h.unlockMu (by rw [ht]; rfl) (after_inMutex m a) (by rw [ht, after_holder])
      fun ch hch => ht ▸ after_ready hch
  | wake t m ch ht _ => exact h.moveOn (by rw [ht]; rfl) (by rw [ht]; rfl) nofun
  | giveUp t r ch ht _ => exact h.moveOn (by rw [ht]; rfl) (by rw [ht]; rfl) nofun
  | timeout t ch ht => exact h.moveOn (by rw [ht]; rfl) (by rw [ht]; rfl) nofun
  | unlock t r ht => exact h.moveOn (by rw [ht]; rfl) (by rw [ht]; rfl) nofun
  | unlockEnter t r ht hmu => exact h.lockMu hmu rfl (by rw [ht]; rfl) rfl
  | unlockBody t r ht => exact h.unlockBody ht
  | unlockLeave t ht => exact h.unlockMu (by rw [ht]; rfl) rfl (by rw [ht]; rfl) nofun
  | tracker g p _ => exact ⟨h.mutex, h.held, h.one, h.ready, h.waits, h.fresh⟩

theorem inv_of_reachable (h : Reachable w) : Inv w := by
  induction h with
  | refl => exact Inv.start
  | tail _ hstep ih => exact ih.step hstep

/-! ## Admission -/

/-- The step makes the ticket's writer the holder. -/
def Becomes (w w' : World) (t : Nat) (r : Ticket) : Prop :=
  (w.phase t).holder ≠ some (some r) ∧ (w'.phase t).holder = some (some r)

theorem not_becomes_setPhase {t u : Nat} {r : Ticket}
    (hholder : ph.holder = none ∨ ph.holder = (w.phase t).holder)
    (hphase : w'.phase = (w.setPhase t ph).phase) : ¬ Becomes w w' u r := by
  rintro ⟨hold, hnew⟩
  rw [hphase] at hnew
  by_cases hu : u = t
  · rw [hu] at hold hnew
    rw [setPhase_phase_self] at hnew
    rcases hholder with hnone | hsame
    · rw [hnone] at hnew
      cases hnew
    · exact hold (hsame ▸ hnew)
  · rw [setPhase_phase_ne w ph hu] at hnew
    exact hold hnew

/-- A ticket's writer becomes the holder only in the section of the tracker that finds the ticket
open and the connection not closing, and that registers the ticket. -/
theorem becomes_admitted {r : Ticket} (hstep : Step w w') (h : Becomes w w' t r) :
    ((w.tracker r.generation).ticket r.number).cancelled = false ∧
      (w.tracker r.generation).closing = false ∧ w.held = false ∧ w'.held = true ∧
      (w'.tracker r.generation).pending.lookup
        ((w.tracker r.generation).ticket r.number).key = some r.number := by
  cases hstep with
  | attempt u m hu =>
    cases hheld : w.held with
    | true =>
      obtain ⟨ch, ha, hw, -⟩ := attempt_of_held hheld m.ticket
      rw [ha, hw] at h
      exact absurd h (not_becomes_setPhase (.inl (by rfl)) rfl)
    | false =>
      rcases attempt_of_free hheld m.ticket with ⟨e, ha, hw⟩ | ⟨ha, hw, hticket⟩
      · rw [ha, hw] at h
        exact absurd h (not_becomes_setPhase (.inl (by rfl)) rfl)
      have hr : m.ticket = some r := by
        obtain ⟨hold, hnew⟩ := h
        rw [ha] at hnew
        by_cases htu : t = u
        · rw [htu, setPhase_phase_self] at hnew
          exact Option.some.inj hnew
        · rw [setPhase_phase_ne _ _ htu, hw] at hnew
          exact absurd hnew hold
      obtain ⟨hcancelled, hclosing, hpending⟩ := hticket r hr
      refine ⟨hcancelled, hclosing, rfl, ?_, hpending⟩
      show (w.attempt m.ticket).1.held = true
      rw [hw]
  | call u m hu => exact absurd h (not_becomes_setPhase (.inl (by rfl)) rfl)
  | enter u m hu => exact absurd h (not_becomes_setPhase (.inl (by rfl)) rfl)
  | leave u m a hu =>
    exact absurd h (not_becomes_setPhase (.inr (by rw [hu]; exact after_holder m a)) rfl)
  | wake u m ch hu => exact absurd h (not_becomes_setPhase (.inl (by rfl)) rfl)
  | giveUp u r' ch hu => exact absurd h (not_becomes_setPhase (.inl (by rfl)) rfl)
  | timeout u ch hu => exact absurd h (not_becomes_setPhase (.inl (by rfl)) rfl)
  | unlock u r' hu => exact absurd h (not_becomes_setPhase (.inr (by rw [hu]; rfl)) rfl)
  | unlockEnter u r' hu => exact absurd h (not_becomes_setPhase (.inr (by rw [hu]; rfl)) rfl)
  | unlockBody u r' hu =>
    have hphase : w.unlock.phase = w.phase := by unfold World.unlock; split <;> rfl
    have hset : (w.unlock.setPhase u .unlockLeaving).phase =
        (w.setPhase u .unlockLeaving).phase := by
      unfold setPhase
      rw [hphase]
    exact absurd h (not_becomes_setPhase (.inl (by rfl)) hset)
  | unlockLeave u hu => exact absurd h (not_becomes_setPhase (.inl (by rfl)) rfl)
  | tracker g p hp => exact absurd h.2 h.1

theorem closing_trackerStep {p p' : PendingRequests} (hstep : TrackerStep p p')
    (h : p.closing = true) : p'.closing = true := by
  cases hstep with
  | prepareWrite hd => exact h
  | publication b =>
    unfold publication
    split
    · exact h
    · split <;> exact h
  | cancel r =>
    unfold PendingRequests.cancel
    dsimp only
    split <;> exact h
  | release r =>
    unfold PendingRequests.release
    split <;> exact h
  | matchAnswer hd consume =>
    unfold PendingRequests.matchAnswer
    split
    · exact h
    split
    · exact h
    split
    · exact h
    · dsimp only
      split <;> exact h
  | closeAdmission => rfl

theorem attempt_closing (r : Option Ticket) (g : Nat) :
    ((w.attempt r).1.tracker g).closing = (w.tracker g).closing := by
  unfold World.attempt
  split
  · split <;> rfl
  cases r with
  | none => rfl
  | some r =>
    dsimp only
    split
    · rfl
    rename_i p hp
    have hclosing : p.closing = (w.tracker r.generation).closing := by
      unfold admitWrite at hp
      split at hp
      · cases hp
      split at hp
      · cases hp
      · cases hp
        rfl
    dsimp only
    rw [Function.update_apply]
    split
    next hg => rw [hclosing, hg]
    · rfl

theorem closing_step {g : Nat} (hstep : Step w w') (h : (w.tracker g).closing = true) :
    (w'.tracker g).closing = true := by
  cases hstep with
  | attempt u m hu =>
    show ((w.attempt m.ticket).1.tracker g).closing = true
    rw [attempt_closing]
    exact h
  | unlockBody u r hu =>
    show (w.unlock.tracker g).closing = true
    unfold World.unlock
    split <;> exact h
  | tracker g' p hp =>
    dsimp only
    rw [Function.update_apply]
    split
    next hg => exact closing_trackerStep hp (hg ▸ h)
    · exact h
  | _ => exact h

theorem closing_steps {g : Nat} (hsteps : Relation.ReflTransGen Step w w')
    (h : (w.tracker g).closing = true) : (w'.tracker g).closing = true := by
  induction hsteps with
  | refl => exact h
  | tail _ hstep ih => exact closing_step hstep ih

/-- In every state the writers can come to: at most one holds the gate; a ticket's writer becomes
the holder only in a step that finds the ticket open and the connection not closing and registers
the ticket, and never after closing; and whoever found the gate held has a channel that is closed
or that the `unlock` of the holder closes. -/
theorem write_gate (h : Reachable w) :
    (∀ t t', (w.phase t).holder.isSome = true → (w.phase t').holder.isSome = true → t = t') ∧
    (∀ w' t r, Step w w' → Becomes w w' t r →
      ((w.tracker r.generation).ticket r.number).cancelled = false ∧
        (w.tracker r.generation).closing = false ∧ w.held = false ∧ w'.held = true ∧
        (w'.tracker r.generation).pending.lookup
          ((w.tracker r.generation).ticket r.number).key = some r.number) ∧
    (∀ g, (w.tracker g).closing = true → ∀ w₁ w₂ t r, Relation.ReflTransGen Step w w₁ →
      Step w₁ w₂ → r.generation = g → ¬ Becomes w₁ w₂ t r) ∧
    ∀ t ch, (w.phase t).ready = some ch → w.closed ch = true ∨
      (∃ u r, (w.phase u).holder = some r) ∧ w.unlock.closed ch = true := by
  have hinv := inv_of_reachable h
  refine ⟨hinv.one, fun w' t r hstep => becomes_admitted hstep, ?_, fun t ch hch => ?_⟩
  · rintro g hg w₁ w₂ t r hsteps hstep rfl hbecomes
    have hopen := (becomes_admitted hstep hbecomes).2.1
    rw [closing_steps hsteps hg] at hopen
    cases hopen
  · refine (hinv.waits t ch hch).imp_right fun hready => ⟨?_, ?_⟩
    · obtain ⟨u, hu⟩ := hinv.held.1 (hinv.ready ch hready).1
      obtain ⟨r, hr⟩ := Option.isSome_iff_exists.1 hu
      exact ⟨u, r, hr⟩
    · unfold World.unlock
      rw [hready]
      exact Function.update_self ..

/-- A writer without a ticket holds the gate, and one with a ticket has come to wait for it. -/
theorem write_gate_contended : ∃ w : World, Reachable w ∧
    (w.phase 1).ready = some 0 ∧ (w.closed 0 = true ∨
      (∃ u r, (w.phase u).holder = some r) ∧ w.unlock.closed 0 = true) := by
  have hsteps : Relation.ReflTransGen Step {} _ :=
    ((((((((Relation.ReflTransGen.refl.tail (.call 0 (.lock none) rfl)).tail
      (.enter 0 (.lock none) rfl rfl)).tail (.attempt 0 (.lock none) rfl)).tail
      (.leave 0 (.lock none) .locked rfl)).tail (.call 1 (.lock (some ⟨0, 0⟩)) rfl)).tail
      (.enter 1 (.lock (some ⟨0, 0⟩)) rfl rfl)).tail (.attempt 1 (.lock (some ⟨0, 0⟩)) rfl)).tail
      (.leave 1 (.lock (some ⟨0, 0⟩)) (.busy 0) rfl))
  exact ⟨_, hsteps, rfl, (write_gate hsteps).2.2.2 1 0 rfl⟩

/-! ## Progress -/

/-- A step by which the writer `u` gets on with what it has begun; one that waits is woken. -/
structure Advances (w w' : World) (u : Nat) : Prop where
  step : Step w w'
  busy : w.phase u ≠ .idle
  moves : w'.phase u ≠ w.phase u
  woken : ∀ m ch, w.phase u = .waiting m ch → w.closed ch = true ∧ w'.phase u = .entering m

/-- The holder of a gate whose mutex is free can start to give it back, or go on with it. -/
theorem Inv.holder_advances (h : Inv w) (hmu : w.mu = none)
    (ht : (w.phase t).holder.isSome = true) : ∃ w', Advances w w' t := by
  have hout : (w.phase t).inMutex ≠ true := fun hin => by
    rw [(h.mutex t).1 hin] at hmu
    cases hmu
  cases hph : w.phase t with
  | holding r => exact ⟨_, .unlock t r hph, by simp [hph], by simp [hph], by simp [hph]⟩
  | unlocking r => exact ⟨_, .unlockEnter t r hph hmu, by simp [hph], by simp [hph], by simp [hph]⟩
  | leaving | unlockInside => simp [hph, Phase.inMutex] at hout
  | idle | entering | inside | waiting | unlockLeaving => simp [hph, Phase.holder] at ht

/-- No wake-up is lost: in every state the writers can come to, if one of them is not done, one of
them can get on, and not only because a waiter gives up. -/
theorem gate_progress (h : Reachable w) (ht : w.phase t ≠ .idle) : ∃ u w', Advances w w' u := by
  have hinv := inv_of_reachable h
  cases hmu : w.mu with
  | some u =>
    have hin := (hinv.mutex u).2 hmu
    refine ⟨u, ?_⟩
    cases hph : w.phase u with
    | inside m => exact ⟨_, .attempt u m hph, by simp [hph], by simp [hph], by simp [hph]⟩
    | leaving m a =>
      refine ⟨_, .leave u m a hph, by simp [hph], ?_, by simp [hph]⟩
      rw [hph]
      show (w.setPhase u (m.after a)).phase u ≠ _
      rw [setPhase_phase_self]
      intro heq
      have hout := after_inMutex m a
      rw [heq] at hout
      cases hout
    | unlockInside r => exact ⟨_, .unlockBody u r hph, by simp [hph], by simp [hph], by simp [hph]⟩
    | unlockLeaving => exact ⟨_, .unlockLeave u hph, by simp [hph], by simp [hph], by simp [hph]⟩
    | idle | entering | waiting | holding | unlocking => simp [hph, Phase.inMutex] at hin
  | none =>
    cases hph : w.phase t with
    | idle => exact (ht hph).elim
    | entering m => exact ⟨t, _, .enter t m hph hmu, by simp [hph], by simp [hph], by simp [hph]⟩
    | waiting m ch =>
      rcases hinv.waits t ch (by rw [hph]; rfl) with hclosed | hready
      · exact ⟨t, _, .wake t m ch hph hclosed, by simp [hph], by simp [hph], by simp [hph, hclosed]⟩
      · obtain ⟨u, hu⟩ := hinv.held.1 (hinv.ready ch hready).1
        exact ⟨u, hinv.holder_advances hmu hu⟩
    | holding r | unlocking r => exact ⟨t, hinv.holder_advances hmu (by rw [hph]; rfl)⟩
    | inside | leaving | unlockInside | unlockLeaving =>
      rw [(hinv.mutex t).1 (by rw [hph]; rfl)] at hmu
      cases hmu

/-- A writer that has come for the gate gets on. -/
theorem gate_progress_entering : ∃ u w', Advances (setPhase {} 0 (.entering .lockUntil)) w' u := by
  have hcalled : Reachable (setPhase {} 0 (.entering .lockUntil)) :=
    Relation.ReflTransGen.refl.tail (.call 0 .lockUntil rfl)
  exact gate_progress (t := 0) hcalled (by simp)

end World
end Diameter.Pending
