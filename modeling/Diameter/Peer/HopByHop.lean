import Diameter.Lib.GoMap
import Mathlib.Algebra.Group.Nat.Defs

/-!
# Peer.HopByHop

The Hop-by-Hop identifiers of a manager: one 32-bit counter for all its sessions, and for each
session the identifiers in use, by pending requests and by its own control requests.

The counter is only advanced under `pendingMu`, so a call of `nextHopIDLocked` is one search;
`nextHopIDLocked_free` says that it ends.
-/

namespace Diameter.Peer

open Lib

/-- What `nextHopIDLocked` reads and writes of a manager. -/
structure Manager (Session Request : Type) [DecidableEq Session] where
  nextHop : UInt32 := 0
  pending : GoMap Session (GoMap UInt32 Request) := ∅
  controls : GoMap Session (GoMap UInt32 Unit) := ∅

variable {Session Request : Type} [DecidableEq Session]

/-- Whether an entry of a map of maps exists; the map of a session may be missing. -/
def holds {V : Type} (m : GoMap Session (GoMap UInt32 V)) (s : Session) (hop : UInt32) : Bool :=
  ((m.lookup s).bind (·.lookup hop)).isSome

namespace Manager

/-- Whether the search stops at an identifier. -/
def available (m : Manager Session Request) (s : Session) (avoid : UInt32) (skipAvoid : Bool)
    (hop : UInt32) : Bool :=
  !holds m.pending s hop && !holds m.controls s hop && (!skipAvoid || hop != avoid)

/-- The loop of `nextHopIDLocked`, for at most `fuel` rounds. -/
def nextHopIDLocked (m : Manager Session Request) (s : Session) (avoid : UInt32)
    (skipAvoid : Bool) : Nat → Option (UInt32 × Manager Session Request)
  | 0 => none
  | fuel + 1 =>
    let hop := m.nextHop + 1
    if m.available s avoid skipAvoid hop then some (hop, { m with nextHop := hop })
    else nextHopIDLocked { m with nextHop := hop } s avoid skipAvoid fuel

variable {m : Manager Session Request} {s : Session} {avoid : UInt32} {skipAvoid : Bool}

theorem available_iff {hop : UInt32} : m.available s avoid skipAvoid hop = true ↔
    holds m.pending s hop = false ∧ holds m.controls s hop = false ∧
      (skipAvoid = true → hop ≠ avoid) := by
  cases skipAvoid <;> simp [available, and_assoc]

theorem nextHopIDLocked_ends {fuel : Nat} : ∀ {c : UInt32} {k : Nat}, k < fuel →
    m.available s avoid skipAvoid (c + 1 + UInt32.ofNat k) = true →
    ∃ hop, nextHopIDLocked { m with nextHop := c } s avoid skipAvoid fuel =
      some (hop, { m with nextHop := hop }) ∧ m.available s avoid skipAvoid hop = true := by
  induction fuel with
  | zero => intro c k hk; omega
  | succ fuel ih =>
    intro c k hk hfree
    by_cases hnow : m.available s avoid skipAvoid (c + 1) = true
    · exact ⟨c + 1, if_pos hnow, hnow⟩
    cases k with
    | zero =>
      have hzero : c + 1 + UInt32.ofNat 0 = c + 1 := UInt32.add_zero _
      exact absurd (hzero ▸ hfree) hnow
    | succ k =>
      have hnext : c + 1 + UInt32.ofNat (k + 1) = c + 1 + 1 + UInt32.ofNat k := by
        rw [UInt32.ofNat_add, UInt32.add_comm (UInt32.ofNat k), ← UInt32.add_assoc]
        rfl
      obtain ⟨hop, hsearch, hhop⟩ := @ih (c + 1) k (by omega) (hnext ▸ hfree)
      exact ⟨hop, (if_neg hnow).trans hsearch, hhop⟩

/-- With one identifier free that is not to be avoided, the search ends within one turn of the
counter, at an identifier of that kind. -/
theorem nextHopIDLocked_free (h : ∃ hop, holds m.pending s hop = false ∧
      holds m.controls s hop = false ∧ (skipAvoid = true → hop ≠ avoid)) :
    ∃ hop, m.nextHopIDLocked s avoid skipAvoid (2 ^ 32) = some (hop, { m with nextHop := hop }) ∧
      holds m.pending s hop = false ∧ holds m.controls s hop = false ∧
      (skipAvoid = true → hop ≠ avoid) := by
  obtain ⟨hop, hhop⟩ := h
  -- The distance from the counter, modulo 2 ^ 32.
  have hdist : m.nextHop + 1 + UInt32.ofNat (hop - (m.nextHop + 1)).toNat = hop := by
    rw [UInt32.ofNat_toNat, UInt32.add_comm, UInt32.sub_add_cancel]
  obtain ⟨hop', hsearch, hfree⟩ := nextHopIDLocked_ends (hop - (m.nextHop + 1)).toNat_lt
    (hdist.symm ▸ available_iff.2 hhop)
  exact ⟨hop', hsearch, available_iff.1 hfree⟩

/-- A counter about to wrap, with the identifiers after it taken by a request and by a control
request and 1 to be avoided. -/
def wrapping : Manager Unit Unit where
  nextHop := 0xfffffffe
  pending := (∅ : GoMap Unit _).insert () ((∅ : GoMap UInt32 Unit).insert 0xffffffff ())
  controls := (∅ : GoMap Unit _).insert () ((∅ : GoMap UInt32 Unit).insert 0 ())

theorem wrapping_next : ∃ hop,
    wrapping.nextHopIDLocked () 1 true (2 ^ 32) = some (hop, { wrapping with nextHop := hop }) ∧
      holds wrapping.pending () hop = false ∧ holds wrapping.controls () hop = false ∧
      (true = true → hop ≠ 1) :=
  nextHopIDLocked_free ⟨2, rfl, rfl, by decide⟩

end Manager

end Diameter.Peer
