import Diameter.Pending.Tracker

/-!
# Pending.History

The calls a tracker gets, in the order its lock serialises them, and what they leave in the log.
`Alive` says of a transmission in the log that it was begun since its key was last consumed and
before closing, has not reported failure, and that its reservation was not cancelled.
-/

namespace Diameter.Pending

open Lib

/-- What happened, in the order it happened. Transmissions are numbered by the `BeginWrite` call,
reservations by their ticket. -/
inductive Event where
  | prepared (key : RequestKey) (r : Nat)
  | begun (tx : Nat) (key : RequestKey) (reservation : Option Nat)
  | reported (tx : Nat) (written : Bool)
  | cancelled (r : Nat)
  | consumed (key : RequestKey)
  | closed
deriving DecidableEq, Repr

structure System where
  p : PendingRequests := {}
  /-- What each `BeginWrite` returned. -/
  callbacks : List (Option Nat) := []
  log : List Event := []

inductive Call where
  | prepareWrite (h : Header)
  | beginWrite (b : Bytes)
  | outcome (tx : Nat) (written : Bool)
  | cancel (r : Nat)
  | release (r : Nat)
  | matchAnswer (h : Option Header)
  | closeAdmission

namespace System

/-- A `BeginWrite` of a request is logged with the reservation of its key. -/
def begunEvent (s : System) (b : Bytes) : List Event :=
  match publicationHeader b with
  | none => []
  | some h => [.begun s.callbacks.length (keyForRequest h)
      (s.p.reserved.lookup (keyForRequest h))]

def consumedEvent (s : System) (h : Option Header) : List Event :=
  match h with
  | none => []
  | some h => if (s.p.matchAnswer (some h) true).2 then [.consumed (keyForRequest h)] else []

def apply (s : System) : Call → System
  | .prepareWrite h =>
    { s with
      p := s.p.prepareWrite h
      log := s.log ++ [.prepared (keyForRequest h) s.p.allocated] }
  | .beginWrite b =>
    { p := (s.p.beginWrite b).1
      callbacks := s.callbacks ++ [(s.p.beginWrite b).2]
      log := s.log ++ s.begunEvent b }
  | .outcome tx written =>
    { s with
      p := match s.callbacks[tx]? with
        | some (some r) => s.p.outcome r written
        | _ => s.p
      log := s.log ++ [.reported tx written] }
  | .cancel r => { s with p := s.p.cancel r, log := s.log ++ [.cancelled r] }
  | .release r => { s with p := s.p.release r }
  | .matchAnswer h => { s with p := (s.p.matchAnswer h true).1, log := s.log ++ s.consumedEvent h }
  | .closeAdmission => { s with p := s.p.closeAdmission, log := s.log ++ [.closed] }

/-- The calls that can be made: the outcome of a `BeginWrite` is reported once, and a ticket was
returned by `PrepareWrite`. -/
def Possible (s : System) : Call → Prop
  | .outcome tx _ => tx < s.callbacks.length ∧ ∀ written, .reported tx written ∉ s.log
  | .cancel r | .release r => ∃ key, .prepared key r ∈ s.log
  | _ => True

/-- A key is prepared only while it is not owned, and a reserved ticket has at most one
transmission in flight. -/
def Disciplined (s : System) : Call → Prop
  | .prepareWrite h => ¬ s.p.Owns (keyForRequest h)
  | .beginWrite b => ∀ h r, publicationHeader b = some h →
      s.p.reserved.lookup (keyForRequest h) = some r →
      ∀ tx key, .begun tx key (some r) ∈ s.log → ∃ written, .reported tx written ∈ s.log
  | _ => True

/-- A reserved ticket carries one transmission in all. A `BeginWrite` that is refused carries
none. -/
def FirstUse (s : System) : Call → Prop
  | .beginWrite b => ∀ h r, publicationHeader b = some h →
      s.p.reserved.lookup (keyForRequest h) = some r → s.p.closing = false →
      (s.p.ticket r).cancelled = false → ∀ tx key, .begun tx key (some r) ∉ s.log
  | _ => True

/-- The states that calls with a property lead to. -/
inductive Reached (P : System → Call → Prop) : System → Prop where
  | start : Reached P {}
  | call {s : System} {c : Call} : Reached P s → P s c → Reached P (s.apply c)

/-- Calls without regard to who could make them. -/
def run (s : System) (calls : List Call) : System := calls.foldl apply s

end System

/-! ## Transmissions in the log -/

/-- The transmission was begun since its key was last consumed, before closing, has not reported
failure, and its reservation, if it has one, was not cancelled. -/
def Alive (log : List Event) (key : RequestKey) (tx : Nat) (reservation : Option Nat) : Prop :=
  ∃ before after, log = before ++ .begun tx key reservation :: after ∧ .closed ∉ before ∧
    .consumed key ∉ after ∧ .reported tx false ∉ log ∧
    ∀ r, reservation = some r → .cancelled r ∉ log

section Alive

variable {log : List Event} {key : RequestKey} {tx : Nat} {reservation : Option Nat}

theorem Alive.mem (h : Alive log key tx reservation) : .begun tx key reservation ∈ log := by
  obtain ⟨before, after, rfl, -⟩ := h
  simp

theorem alive_snoc {e : Event} : Alive (log ++ [e]) key tx reservation ↔
    (Alive log key tx reservation ∧ e ≠ .consumed key ∧ e ≠ .reported tx false ∧
      ∀ r, reservation = some r → e ≠ .cancelled r) ∨
    (e = .begun tx key reservation ∧ .closed ∉ log ∧ .reported tx false ∉ log ∧
      ∀ r, reservation = some r → .cancelled r ∉ log) := by
  constructor
  · rintro ⟨before, after, hlog, hclosed, hconsumed, hfailed, hcancelled⟩
    simp only [List.mem_append, List.mem_singleton, not_or] at hfailed hcancelled
    rcases List.eq_nil_or_concat after with rfl | ⟨after, e', rfl⟩
    · obtain ⟨rfl, he⟩ := List.append_inj' hlog rfl
      cases he
      exact .inr ⟨rfl, hclosed, hfailed.1, fun r hr => (hcancelled r hr).1⟩
    · rw [List.concat_eq_append] at hlog hconsumed
      rw [← List.cons_append, ← List.append_assoc] at hlog
      obtain ⟨rfl, he⟩ := List.append_inj' hlog rfl
      cases he
      rw [List.mem_append, List.mem_singleton, not_or] at hconsumed
      exact .inl ⟨⟨before, after, rfl, hclosed, hconsumed.1, hfailed.1,
        fun r hr => (hcancelled r hr).1⟩, Ne.symm hconsumed.2, Ne.symm hfailed.2,
        fun r hr => Ne.symm (hcancelled r hr).2⟩
  · rintro (⟨⟨before, after, rfl, hclosed, hconsumed, hfailed, hcancelled⟩, h1, h2, h3⟩ |
      ⟨rfl, hclosed, hfailed, hcancelled⟩)
    · refine ⟨before, after ++ [e], by simp, hclosed, ?_, ?_, fun r hr => ?_⟩
      · simpa [hconsumed] using Ne.symm h1
      · rw [List.mem_append, List.mem_singleton, not_or]
        exact ⟨hfailed, Ne.symm h2⟩
      · rw [List.mem_append, List.mem_singleton, not_or]
        exact ⟨hcancelled r hr, Ne.symm (h3 r hr)⟩
    · refine ⟨log, [], rfl, hclosed, List.not_mem_nil, ?_, fun r hr => ?_⟩
      · simpa using hfailed
      · simpa using hcancelled r hr

theorem alive_snoc_of_begun {e : Event}
    (hbegun : ∀ tx key reservation, e ≠ .begun tx key reservation) :
    Alive (log ++ [e]) key tx reservation ↔ Alive log key tx reservation ∧ e ≠ .consumed key ∧
      e ≠ .reported tx false ∧ ∀ r, reservation = some r → e ≠ .cancelled r := by
  rw [alive_snoc, or_iff_left fun h => hbegun _ _ _ h.1]

theorem alive_snoc_of_ne {e : Event} (hbegun : ∀ tx key reservation, e ≠ .begun tx key reservation)
    (hconsumed : ∀ key, e ≠ .consumed key) (hreported : ∀ tx, e ≠ .reported tx false)
    (hcancelled : ∀ r, e ≠ .cancelled r) :
    Alive (log ++ [e]) key tx reservation ↔ Alive log key tx reservation := by
  rw [alive_snoc_of_begun hbegun]
  exact and_iff_left ⟨hconsumed _, hreported _, fun r _ => hcancelled r⟩

end Alive

/-- Some transmission of the key is alive. -/
def OwnedBy (log : List Event) (key : RequestKey) : Prop :=
  ∃ tx reservation, Alive log key tx reservation

end Diameter.Pending
