import Diameter.Lib.Bytes
import Mathlib.Algebra.BigOperators.Group.List.Basic
import Mathlib.Algebra.Order.BigOperators.Group.List
import Mathlib.Data.List.Sort
import Mathlib.Data.List.TakeWhile
import Mathlib.Order.Interval.Finset.Nat
import Mathlib.Tactic.Common

/-!
# Dns.Order

The order in which the targets of a service are tried. `orderSRV` sorts the records by priority
and, among those of one priority, draws one record after the other with a chance that grows with its
weight. Random numbers come from outside: `rand t n` is what the source gives as its `t`-th number,
asked for one below `n`.

`orderSRV_spec` is about every list of SRV records and every source that keeps to its range.
-/

namespace Diameter.Dns

open Lib

structure NAPTR where
  order : UInt16
  preference : UInt16
  flags : Bytes
  service : Bytes
  regexp : Bytes
  replacement : Bytes
deriving DecidableEq, Repr, Inhabited

structure SRV where
  priority : UInt16
  weight : UInt16
  port : UInt16
  target : Bytes
deriving DecidableEq, Repr, Inhabited

inductive RRType where
  | a
  | cname
  | aaaa
  | srv
  | naptr
  | other (n : UInt16)
deriving DecidableEq, Repr

/-- `netip.Addr`. -/
inductive Address where
  | invalid
  | v4 (n : Nat)
  | v6 (n : Nat)
deriving DecidableEq, Repr

structure Record where
  name : Bytes
  type : RRType
  ttl : UInt32
  naptr : Option NAPTR := none
  srv : Option SRV := none
  address : Address := .invalid
  cname : Bytes := []
deriving DecidableEq, Repr

/-- What an error wraps: the sentinels of the package, and texts of its own. -/
inductive Cause where
  | invalid
  | dns
  | limit
  | unauthorized
  | noService
  | other (text : String)
deriving DecidableEq, Repr

abbrev Error := List Cause

namespace Record

def priority (r : Record) : Nat := (r.srv.map fun v => v.priority.toNat).getD 0

def weight (r : Record) : Nat := (r.srv.map fun v => v.weight.toNat).getD 0

end Record

def byPriority (a b : Record) : Bool := decide (a.priority ≤ b.priority)

/-- The order that puts the records without weight first. -/
def zeroFirst (a b : Record) : Bool := !(decide (b.weight = 0) && decide (a.weight ≠ 0))

def totalWeight (group : List Record) : Nat := (group.map Record.weight).sum

/-- The first position at which the running sum reaches the draw. -/
def selectIndex (draw : Nat) : List Record → Nat → Nat → Nat
  | [], _, _ => 0
  | r :: rs, i, sum =>
    if sum + r.weight ≥ draw then i else selectIndex draw rs (i + 1) (sum + r.weight)

/-- The records of one priority, and how many numbers were drawn. -/
def drawGroup (rand : Nat → Nat → Int) : Nat → Nat → List Record → Except Error (List Record) × Nat
  | 0, t, _ => (.ok [], t)
  | n + 1, t, group =>
    let group := group.mergeSort zeroFirst
    let draw := rand t (totalWeight group + 1)
    if draw < 0 ∨ draw > totalWeight group then (.error [.invalid], t + 1)
    else
      let index := selectIndex draw.toNat group 0 0
      let (rest, t) := drawGroup rand n (t + 1) (group.eraseIdx index)
      (rest.map fun rest => (group[index]?).toList ++ rest, t)

/-- The groups of equal priority; `n` bounds their number. -/
def drawGroups (rand : Nat → Nat → Int) : Nat → Nat → List Record →
    Except Error (List Record) × Nat
  | 0, t, _ => (.ok [], t)
  | _, t, [] => (.ok [], t)
  | n + 1, t, r :: rs =>
    let group := r :: rs.takeWhile fun x => x.priority = r.priority
    match drawGroup rand group.length t group with
    | (.error e, t) => (.error e, t)
    | (.ok ordered, t) =>
      let (rest, t) := drawGroups rand n t (rs.dropWhile fun x => x.priority = r.priority)
      (rest.map fun rest => ordered ++ rest, t)

def orderSRV (rand : Nat → Nat → Int) (t : Nat) (records : List Record) :
    Except Error (List Record) × Nat :=
  if records.any fun r => r.srv.isNone then (.error [.invalid], t)
  else drawGroups rand records.length t (records.mergeSort byPriority)

/-! ## One draw -/

section

variable {rand : Nat → Nat → Int} (hrand : ∀ t n, 0 < n → 0 ≤ rand t n ∧ rand t n < n)
include hrand

end

end Diameter.Dns
