import Diameter.Lib.GoMap
import Diameter.Wire.Message

/-!
# Pending.Tracker

`PendingRequests`, the request ownership of one connection generation, and the tickets
(`RequestWrite`) it hands out. A ticket is referred to by the number of its allocation; a method
runs under the tracker's lock from beginning to end and is one function on the whole tracker.

`closed` and a ticket's `done` are closed exactly when `closing` and `cancelled` are set.
-/

namespace Diameter.Pending

open Lib

/-- `requestKey`. -/
structure RequestKey where
  hop : UInt32
  endToEnd : UInt32
  command : UInt32
  application : UInt32
deriving DecidableEq, Repr, Inhabited

def keyForRequest (h : Header) : RequestKey :=
  ⟨h.hopByHopID, h.endToEndID, h.commandCode, h.applicationID⟩

def disconnectPeerCode : UInt32 := 282

/-- `publicationHeader`: the header of a complete request frame other than a DPR. -/
def publicationHeader (b : Bytes) : Option Header :=
  if b.length < headerLength then none
  else
    let h := headerFields b
    match h.check with
    | .error _ => none
    | .ok () =>
      if h.messageLength.toNat ≠ b.length ∨ h.commandFlags &&& requestFlag = 0 ∨
          h.applicationID = 0 ∧ h.commandCode = disconnectPeerCode then none
      else some h

structure RequestWrite where
  key : RequestKey
  cancelled : Bool := false
  previous : Option Nat := none
  failed : Bool := false
deriving Inhabited

structure PendingRequests where
  closing : Bool := false
  pending : GoMap RequestKey Nat := ∅
  reserved : GoMap RequestKey Nat := ∅
  /-- The tickets that were allocated, by number. -/
  ticket : Nat → RequestWrite := fun _ => default
  allocated : Nat := 0

inductive AdmitError where
  | connectionClosing
  | requestCompleted
deriving DecidableEq, Repr

def AdmitError.text : AdmitError → String
  | .connectionClosing => "diam: connection is Closing"
  | .requestCompleted => "diam: request completed before publication"

namespace PendingRequests

variable (p : PendingRequests)

def setTicket (r : Nat) (t : RequestWrite) : PendingRequests :=
  { p with ticket := Function.update p.ticket r t }

/-- `&RequestWrite{..}`: a new ticket, whose number is the old `allocated`. -/
def allocate (t : RequestWrite) : PendingRequests :=
  { p.setTicket p.allocated t with allocated := p.allocated + 1 }

/-- The ticket is the last one allocated. -/
def prepareWrite (h : Header) : PendingRequests :=
  { p.allocate { key := keyForRequest h } with
    reserved := p.reserved.insert (keyForRequest h) p.allocated }

def cancel (r : Nat) : PendingRequests :=
  let p := p.setTicket r { p.ticket r with cancelled := true }
  if p.pending.lookup (p.ticket r).key = some r then
    { p with pending := p.pending.erase (p.ticket r).key }
  else p

def release (r : Nat) : PendingRequests :=
  if p.reserved.lookup (p.ticket r).key = some r then
    { p with reserved := p.reserved.erase (p.ticket r).key }
  else p

/-- The ticket of a native write: the reserved one, or a new one. -/
def publication (b : Bytes) : PendingRequests × Option Nat :=
  match publicationHeader b with
  | none => (p, none)
  | some h =>
    match p.reserved.lookup (keyForRequest h) with
    | some r => (p, some r)
    | none => (p.allocate { key := keyForRequest h }, some p.allocated)

/-- `admit`: what it does to the tracker when it calls `acquire`, or why it does not. -/
def admitWrite (r : Nat) : Except AdmitError PendingRequests :=
  if (p.ticket r).cancelled then .error .requestCompleted
  else if p.closing then .error .connectionClosing
  else .ok { p with pending := p.pending.insert (p.ticket r).key r }

/-- Puts a ticket on top of the owner of its key. -/
def own (r : Nat) : PendingRequests :=
  let key := (p.ticket r).key
  let q := if p.pending.lookup key = some r then p
    else p.setTicket r { p.ticket r with previous := p.pending.lookup key }
  { q with pending := q.pending.insert key r }

/-- `BeginWrite`: the ticket whose outcome the returned function reports, if it reports any. -/
def beginWrite (b : Bytes) : PendingRequests × Option Nat :=
  match publicationHeader b with
  | none => (p, none)
  | some h =>
    if p.closing then (p, none)
    else
      match p.reserved.lookup (keyForRequest h) with
      | some r => if (p.ticket r).cancelled then (p, none) else (p.own r, some r)
      | none => ((p.allocate { key := keyForRequest h }).own p.allocated, some p.allocated)

/-- The rollback loop. Every ticket it goes on to is older, so that `n` above the number of the
first one is enough. -/
def survivor (ticket : Nat → RequestWrite) : Nat → Option Nat → Option Nat
  | _, none => none
  | 0, some _ => none
  | n + 1, some r =>
    if (ticket r).failed || (ticket r).cancelled then survivor ticket n (ticket r).previous
    else some r

/-- The function that `beginWrite` returns. -/
def outcome (r : Nat) (written : Bool) : PendingRequests :=
  if written then p.setTicket r { p.ticket r with previous := none }
  else
    let p := p.setTicket r { p.ticket r with failed := true }
    let key := (p.ticket r).key
    if p.pending.lookup key = some r then
      match survivor p.ticket p.allocated (p.ticket r).previous with
      | none => { p with pending := p.pending.erase key }
      | some q => { p with pending := p.pending.insert key q }
    else p

def closeAdmission : PendingRequests := { p with closing := true }

def hasPending : Bool := !p.pending.keys.isEmpty

/-- `MatchAnswer`; `none` is a message without a header. -/
def matchAnswer (h : Option Header) (consume : Bool) : PendingRequests × Bool :=
  match h with
  | none => (p, false)
  | some h =>
    if h.commandFlags &&& requestFlag ≠ 0 then (p, false)
    else
      match p.pending.lookup (keyForRequest h) with
      | none => (p, false)
      | some _ =>
        (if consume then { p with pending := p.pending.erase (keyForRequest h) } else p, true)

/-- An answer to the key would be matched. -/
def Owns (key : RequestKey) : Prop := (p.pending.lookup key).isSome = true

instance (p : PendingRequests) (key : RequestKey) : Decidable (p.Owns key) :=
  inferInstanceAs (Decidable (_ = true))

theorem matchAnswer_iff_owns {p : PendingRequests} {h : Header} {consume : Bool}
    (hanswer : h.commandFlags &&& requestFlag = 0) :
    (p.matchAnswer (some h) consume).2 = true ↔ p.Owns (keyForRequest h) := by
  unfold matchAnswer Owns
  dsimp only
  rw [if_neg (not_not_intro hanswer)]
  cases p.pending.lookup (keyForRequest h) <;> simp

end PendingRequests
end Diameter.Pending
