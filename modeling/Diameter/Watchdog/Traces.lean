import Diameter.Watchdog.Machine
import Mathlib.Data.List.Basic
import Mathlib.Data.List.Induction

/-!
# Watchdog.Traces

The watchdog machine over whole event sequences.

* `run` and `actions` are the state and the obligations after a sequence of events.
* `Lost` is the status of a peer whose traffic was moved away: the machine can only fail over again
  after it has failed back.
* `Recovering` counts the answers since the connection came up again.
-/

namespace Diameter.Watchdog

variable {evs : List Event} {before after : List Actions}

namespace Machine

variable {e : Event} {m : Machine}

def run (m : Machine) (evs : List Event) : Machine := evs.foldl (fun m e => (m.step e).1) m

/-- What the caller owes for each event. -/
def actions : Machine → List Event → List Actions
  | _, [] => []
  | m, e :: evs => (m.step e).2 :: actions (m.step e).1 evs

@[simp] theorem run_cons (m : Machine) (e : Event) (evs : List Event) :
    m.run (e :: evs) = (m.step e).1.run evs := rfl

theorem run_append (m : Machine) (evs evs' : List Event) :
    m.run (evs ++ evs') = (m.run evs).run evs' := List.foldl_append

theorem run_concat (m : Machine) (evs : List Event) (e : Event) :
    m.run (evs ++ [e]) = ((m.run evs).step e).1 := run_append m evs [e]

/-! The two events that count in recovery. -/

theorem step_receiveDWA_reopen (p : Bool) (n : Int) : step ⟨.reopen, p, n⟩ .receiveDWA =
    if n + 1 = 3 then (⟨.okay, false, n + 1⟩, { failback := true })
    else (⟨.reopen, false, n + 1⟩, {}) := rfl

theorem step_expired_reopen (n : Int) : step ⟨.reopen, true, n⟩ .expired =
    if n < 0 then (⟨.down, true, n⟩, { reset := true, close := true })
    else (⟨.reopen, true, -1⟩, { reset := true }) := rfl

/-! ## Expiries of a peer that is in use -/

/-- The machine does not leave OKAY and SUSPECT during these events. -/
def Stays (m : Machine) (evs : List Event) : Prop :=
  ∀ before after, evs = before ++ after →
    (m.run before).state = .okay ∨ (m.run before).state = .suspect

theorem Stays.init (h : m.Stays (evs ++ [e])) : m.Stays evs := by
  intro before after heq
  exact h before (after ++ [e]) (by rw [heq, List.append_assoc])

/-- An expiry has come since the last message. -/
def Expiring (evs : List Event) : Prop :=
  ∃ before after, evs = before ++ .expired :: after ∧ .receive ∉ after ∧ .receiveDWA ∉ after

theorem Expiring.last (evs : List Event) : Expiring (evs ++ [.expired]) :=
  ⟨evs, [], rfl, nofun, nofun⟩

/-- One of the next `n` expiries closes the connection, unless a message comes or the connection
goes down. -/
def ClosesWithin (m : Machine) (n : Nat) : Prop :=
  ∀ evs : List Event, .receive ∉ evs → .receiveDWA ∉ evs → .connectionDown ∉ evs →
    n ≤ evs.count .expired → ∃ before after, evs = before ++ .expired :: after ∧
      before.count .expired < n ∧ ((m.run before).step .expired).2.close = true

/-- The step rule of `ClosesWithin`: other events change nothing, and each expiry makes progress. -/
theorem ClosesWithin.of_step {n : Nat} (hup : (m.step .connectionUp).1 = m)
    (hexp : (m.step .expired).2.close = true ∨ (m.step .expired).1.ClosesWithin n) :
    m.ClosesWithin (n + 1) := by
  intro evs
  induction evs with
  | nil =>
    intro _ _ _ h
    cases h
  | cons e evs ih =>
    intro hr hd hc hcount
    simp only [List.mem_cons, not_or] at hr hd hc
    cases e with
    | receive => exact (hr.1 rfl).elim
    | receiveDWA => exact (hd.1 rfl).elim
    | connectionDown => exact (hc.1 rfl).elim
    | connectionUp =>
      rw [List.count_cons_of_ne (by decide)] at hcount
      obtain ⟨before, after, heq, hlt, hclose⟩ := ih hr.2 hd.2 hc.2 hcount
      refine ⟨.connectionUp :: before, after, by rw [heq]; rfl, ?_, ?_⟩
      · rwa [List.count_cons_of_ne (by decide)]
      · rwa [run_cons, hup]
    | expired =>
      rcases hexp with hclose | hexp
      · exact ⟨[], evs, rfl, Nat.succ_pos n, hclose⟩
      rw [List.count_cons_self] at hcount
      obtain ⟨before, after, heq, hlt, hclose⟩ :=
        hexp evs hr.2 hd.2 hc.2 (Nat.le_of_succ_le_succ hcount)
      refine ⟨.expired :: before, after, by rw [heq]; rfl, ?_, hclose⟩
      rw [List.count_cons_self]
      exact Nat.succ_lt_succ hlt

theorem ClosesWithin.mono {n n' : Nat} (h : m.ClosesWithin n) (hn : n ≤ n') :
    m.ClosesWithin n' := by
  intro evs hr hd hc hcount
  obtain ⟨before, after, heq, hlt, hclose⟩ := h evs hr hd hc (Nat.le_trans hn hcount)
  exact ⟨before, after, heq, Nat.lt_of_lt_of_le hlt hn, hclose⟩

/-- The peer's traffic has been moved away. -/
def Lost (m : Machine) : Prop := m.state ≠ .okay ∧ m.state ≠ .initial

theorem lost_reopen {p : Bool} {n : Int} : Lost ⟨.reopen, p, n⟩ := by
  constructor <;> intro h <;> cases h

theorem lost_down {p : Bool} {n : Int} : Lost ⟨.down, p, n⟩ := by
  constructor <;> intro h <;> cases h

theorem Lost.step (m : Machine) (e : Event) (h : m.Lost) :
    (m.step e).2.failover = false ∧ ((m.step e).1.Lost ∨ (m.step e).2.failback = true) := by
  obtain ⟨state, pending, n⟩ := m
  obtain ⟨hokay, hinitial⟩ := h
  cases state with
  | okay => exact (hokay rfl).elim
  | initial => exact (hinitial rfl).elim
  | suspect => cases e <;> simp [Machine.step, onReceive, onTimerElapsed, onConnectionUp,
      onConnectionDown, Lost]
  | down => cases e <;> simp [Machine.step, onReceive, onTimerElapsed, onConnectionUp,
      onConnectionDown, Lost]
  | reopen =>
    cases e with
    | connectionUp => exact ⟨rfl, .inl lost_reopen⟩
    | connectionDown => exact ⟨rfl, .inl lost_down⟩
    | receive => exact ⟨rfl, .inl lost_reopen⟩
    | receiveDWA =>
      rw [step_receiveDWA_reopen]
      split
      · exact ⟨rfl, .inr rfl⟩
      · exact ⟨rfl, .inl lost_reopen⟩
    | expired =>
      cases pending with
      | false => exact ⟨rfl, .inl lost_reopen⟩
      | true =>
        rw [step_expired_reopen]
        split
        · exact ⟨rfl, .inl lost_down⟩
        · exact ⟨rfl, .inl lost_reopen⟩

end Machine
end Diameter.Watchdog
