import Mathlib.Data.List.Basic

/-!
# Watchdog.Machine

Package `watchdog`: the control block of RFC 3539, Appendix A, and its transition function.

`Machine.step` returns a candidate control block and the actions its caller owes; it keeps no
timer and sends nothing itself.
-/

namespace Diameter.Watchdog

inductive State where
  | initial | okay | suspect | down | reopen
deriving DecidableEq, Repr

inductive Event where
  | connectionUp | connectionDown | expired | receive | receiveDWA
deriving DecidableEq, Repr

/-- The peer control block. `numDWA` is -1 after a missed response during recovery. -/
structure Machine where
  state : State := .initial
  pending : Bool := false
  numDWA : Int := 0
deriving DecidableEq, Repr

structure Actions where
  send : Bool := false
  reset : Bool := false
  failover : Bool := false
  failback : Bool := false
  close : Bool := false
  reconnect : Bool := false
  discard : Bool := false
deriving DecidableEq, Repr

namespace Machine

/-- `OnReceive`; only a credited DWA clears `pending` and counts towards recovery. -/
def onReceive (m : Machine) (dwa : Bool) : Machine × Actions :=
  let m := if dwa then { m with pending := false } else m
  match m.state with
  | .okay => (m, { reset := true })
  | .suspect => ({ m with state := .okay }, { failback := true, reset := true })
  | .reopen =>
    if dwa then
      if m.numDWA + 1 = 3 then
        ({ m with numDWA := m.numDWA + 1, state := .okay }, { failback := true })
      else ({ m with numDWA := m.numDWA + 1 }, {})
    else (m, { discard := true })
  | .initial | .down => (m, { discard := true })

/-- `OnTimerElapsed`; a pending DWR is never retransmitted. -/
def onTimerElapsed (m : Machine) : Machine × Actions :=
  match m.state with
  | .okay =>
    if !m.pending then ({ m with pending := true }, { reset := true, send := true })
    else ({ m with state := .suspect }, { reset := true, failover := true })
  | .suspect => ({ m with state := .down }, { reset := true, close := true })
  | .initial | .down => (m, { reset := true, reconnect := true })
  | .reopen =>
    if !m.pending then ({ m with pending := true }, { reset := true, send := true })
    else if m.numDWA < 0 then ({ m with state := .down }, { reset := true, close := true })
    else ({ m with numDWA := -1 }, { reset := true })

/-- `OnConnectionUp`; only recovery probes at once. -/
def onConnectionUp (m : Machine) : Machine × Actions :=
  match m.state with
  | .initial => ({ m with state := .okay }, { reset := true })
  | .down =>
    ({ m with state := .reopen, numDWA := 0, pending := true }, { send := true, reset := true })
  | _ => (m, {})

/-- `OnConnectionDown`; `failover` looks at the status the connection had. -/
def onConnectionDown (m : Machine) : Machine × Actions :=
  ({ m with state := .down },
    match m.state with
    | .okay => { close := true, failover := true, reset := true }
    | .suspect | .reopen => { close := true, reset := true }
    | .initial | .down => { close := true })

/-- `Machine.Step`. -/
def step (m : Machine) : Event → Machine × Actions
  | .receive => m.onReceive false
  | .receiveDWA => m.onReceive true
  | .expired => m.onTimerElapsed
  | .connectionUp => m.onConnectionUp
  | .connectionDown => m.onConnectionDown

theorem step_receive (m : Machine) :
    (m.step .receive).2.send = false ∧ (m.step .receive).2.close = false := by
  obtain ⟨state, pending, n⟩ := m
  cases state <;> exact ⟨rfl, rfl⟩

theorem connectionUp_pending {m : Machine} (h : (m.step .connectionUp).2.send = true) :
    (m.step .connectionUp).1.pending = true := by
  obtain ⟨state, pending, n⟩ := m
  cases state <;> first | rfl | cases h

theorem step_pending {m : Machine} {ev : Event} (hev : ev = .receive ∨ ev = .expired)
    (h : (m.step ev).2.send = false) : (m.step ev).1.pending = m.pending := by
  obtain ⟨state, pending, n⟩ := m
  rcases hev with rfl | rfl
  · cases state <;> rfl
  · cases state <;> cases pending <;> simp [step, onTimerElapsed] at h ⊢
    split <;> rfl

theorem step_idle {m : Machine} {ev : Event} (hev : ev = .receive ∨ ev = .expired)
    (hm : m.state = .initial ∨ m.state = .down) : (m.step ev).1.state = m.state := by
  obtain ⟨state, pending, n⟩ := m
  rcases hev with rfl | rfl <;> rcases hm with rfl | rfl <;> rfl

theorem expired_send {m : Machine} (h : (m.step .expired).2.send = true) :
    m.pending = false ∧ (m.step .expired).1.pending = true ∧
      (m.state = .okay ∨ m.state = .reopen) := by
  obtain ⟨state, pending, n⟩ := m
  cases state <;> cases pending <;> simp [step, onTimerElapsed] at h ⊢
  split at h <;> cases h

end Machine
end Diameter.Watchdog
