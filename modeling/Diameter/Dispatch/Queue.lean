import Diameter.Lib.Linked
import Mathlib.Logic.Relation

/-!
# Dispatch.Queue

The callbacks of a connection that have not finished admission: a doubly linked list of barriers,
changed under the queue's lock, and the callers of `BeginDispatch` that wait for the barriers before
theirs. Barriers are referred to by the order of their creation. A barrier's `done` is closed
exactly when it is released, and its sequence number is a `Nat`: a connection does not read 2^64
messages.

The list always holds exactly the barriers that are not released, in the order of their creation
(`Inv`), so the head is the earliest one and `BeginDispatch` returns only when all before its own
are released (`dispatch_order`), and then it does return (`dispatch_progress`).
-/

namespace Diameter.Dispatch

open Lib

variable {q : DispatchQueue} {b : Nat}

structure DispatchBarrier where
  sequence : Nat
  previous : Option Nat := none
  next : Option Nat := none
  released : Bool := false
deriving Inhabited

structure DispatchQueue where
  head : Option Nat := none
  tail : Option Nat := none
  sequence : Nat := 0
  /-- The barriers that were created, by number. -/
  barrier : Nat → DispatchBarrier := fun _ => default
  created : Nat := 0

namespace DispatchQueue

def setBarrier (q : DispatchQueue) (b : Nat) (x : DispatchBarrier) : DispatchQueue :=
  { q with barrier := Function.update q.barrier b x }

/-- `prepareDispatch`: a barrier for the message that was read, numbered by the old `created`. -/
def prepareDispatch (q : DispatchQueue) : DispatchQueue :=
  let b := q.created
  let q := { q with sequence := q.sequence + 1, created := q.created + 1 }
  let q := q.setBarrier b { sequence := q.sequence, previous := q.tail }
  let q := match q.tail with
    | none => { q with head := some b }
    | some t => q.setBarrier t { q.barrier t with next := some b }
  { q with tail := some b }

def releaseDispatch (q : DispatchQueue) (b : Nat) : DispatchQueue :=
  if (q.barrier b).released then q
  else
    let q := q.setBarrier b { q.barrier b with released := true }
    let q := match (q.barrier b).previous with
      | none => { q with head := (q.barrier b).next }
      | some p => q.setBarrier p { q.barrier p with next := (q.barrier b).next }
    let q := match (q.barrier b).next with
      | none => { q with tail := (q.barrier b).previous }
      | some n => q.setBarrier n { q.barrier n with previous := (q.barrier b).previous }
    q.setBarrier b { q.barrier b with previous := none, next := none }

/-- One pass of the loop of `BeginDispatch`: the barrier it goes on to wait for, or none when it
returns. -/
def beginDispatch (q : DispatchQueue) (b : Nat) : Option Nat :=
  match q.head with
  | none => none
  | some first => if (q.barrier first).sequence ≥ (q.barrier b).sequence then none else some first

/-- The barriers that are not released, in the order of their creation. -/
def live (q : DispatchQueue) : List Nat :=
  (List.range q.created).filter fun b => !(q.barrier b).released

def links (q : DispatchQueue) : Links Nat where
  head := q.head
  tail := q.tail
  next b := (q.barrier b).next
  previous b := (q.barrier b).previous

/-! ## The two operations as list operations -/

theorem links_prepareDispatch (htail : q.tail ≠ some q.created) :
    q.prepareDispatch.links = q.links.pushBack q.created := by
  unfold prepareDispatch links Links.pushBack setBarrier
  dsimp only
  cases ht : q.tail with
  | none =>
    simp only [Links.mk.injEq, if_true, true_and]
    refine ⟨funext fun x => ?_, funext fun x => ?_⟩ <;>
    · rw [Function.update_apply]
      split <;> simp_all
  | some t =>
    have hne : t ≠ q.created := fun heq => htail (heq ▸ ht)
    simp only [Links.mk.injEq, reduceCtorEq, if_false, true_and]
    refine ⟨funext fun x => ?_, funext fun x => ?_⟩
    · by_cases hx : x = q.created
      · simp [hx, Ne.symm hne, Function.update_apply]
      · by_cases hxt : x = t
        · simp [hxt, hne]
        · simp [hx, hxt, Ne.symm hxt]
    · by_cases hx : x = q.created
      · simp [hx, Ne.symm hne, Function.update_apply]
      · by_cases hxt : x = t
        · simp [hxt, hne]
        · simp [hx, hxt]

/-- What a release leaves, when the barrier is not its own neighbour. -/
theorem releaseDispatch_eq (hreleased : (q.barrier b).released = false)
    (hprevious : (q.barrier b).previous ≠ some b) (hnext : (q.barrier b).next ≠ some b) :
    q.releaseDispatch b = { q with
      head := if (q.barrier b).previous = none then (q.barrier b).next else q.head
      tail := if (q.barrier b).next = none then (q.barrier b).previous else q.tail
      barrier := fun x => {
        sequence := (q.barrier x).sequence
        previous := if x = b then none
          else if (q.barrier b).next = some x then (q.barrier b).previous
          else (q.barrier x).previous
        next := if x = b then none
          else if (q.barrier b).previous = some x then (q.barrier b).next
          else (q.barrier x).next
        released := (q.barrier x).released || decide (x = b) } } := by
  unfold releaseDispatch
  rw [if_neg (by simp [hreleased])]
  cases hp : (q.barrier b).previous with
  | none =>
    cases hn : (q.barrier b).next with
    | none =>
      simp only [setBarrier, Function.update_self, hp, hn, DispatchQueue.mk.injEq, if_true, true_and,
        and_true]
      funext x
      by_cases hx : x = b
      · simp [hx]
      · simp [hx]
    | some n =>
      have hnb : n ≠ b := fun heq => hnext (heq ▸ hn)
      simp only [setBarrier, Function.update_self, hp, hn, DispatchQueue.mk.injEq, if_true,
        reduceCtorEq, if_false, true_and, and_true]
      funext x
      by_cases hx : x = b
      · simp [hx, Function.update_of_ne (Ne.symm hnb)]
      by_cases hxn : x = n
      · simp [hxn, hnb]
      · simp [hx, hxn, Ne.symm hxn]
  | some p =>
    have hpb : p ≠ b := fun heq => hprevious (heq ▸ hp)
    cases hn : (q.barrier b).next with
    | none =>
      simp only [setBarrier, Function.update_self, hp, hn, DispatchQueue.mk.injEq, if_true,
        reduceCtorEq, if_false, Function.update_of_ne (Ne.symm hpb), true_and, and_true]
      funext x
      by_cases hx : x = b
      · simp [hx]
      by_cases hxp : x = p
      · simp [hxp, hpb]
      · simp [hx, hxp, Ne.symm hxp]
    | some n =>
      have hnb : n ≠ b := fun heq => hnext (heq ▸ hn)
      simp only [setBarrier, Function.update_self, hp, hn, DispatchQueue.mk.injEq,
        reduceCtorEq, if_false, Function.update_of_ne (Ne.symm hpb), true_and, and_true]
      funext x
      by_cases hx : x = b
      · simp [hx, Function.update_of_ne (Ne.symm hnb), Function.update_of_ne (Ne.symm hpb)]
      by_cases hxp : x = p <;> by_cases hxn : x = n
      · subst hxp
        subst hxn
        simp [hpb]
      · subst hxp
        simp [hpb, hxn, Ne.symm hxn]
      · subst hxn
        simp [hnb, hxp, Ne.symm hxp]
      · simp [hx, hxp, hxn, Ne.symm hxp, Ne.symm hxn]

theorem links_releaseDispatch (hreleased : (q.barrier b).released = false)
    (hprevious : (q.barrier b).previous ≠ some b) (hnext : (q.barrier b).next ≠ some b) :
    (q.releaseDispatch b).links = q.links.unlink b := by
  rw [releaseDispatch_eq hreleased hprevious hnext]
  rfl

/-! ## The invariant -/

structure Inv (q : DispatchQueue) : Prop where
  list : q.links.Represents q.live
  sequence : q.sequence = q.created
  number : ∀ b < q.created, (q.barrier b).sequence = b + 1

theorem mem_live : b ∈ q.live ↔ b < q.created ∧ (q.barrier b).released = false := by
  simp [live]

theorem Inv.start : Inv {} where
  list := ⟨List.nodup_nil, rfl, rfl, by simp [live], by simp [live]⟩
  sequence := rfl
  number := by simp

theorem prepareDispatch_barrier (q : DispatchQueue) (x : Nat) :
    ((q.prepareDispatch.barrier x).sequence =
      if x = q.created then q.sequence + 1 else (q.barrier x).sequence) ∧
    ((q.prepareDispatch.barrier x).released =
      if x = q.created then false else (q.barrier x).released) := by
  unfold prepareDispatch setBarrier
  dsimp only
  cases q.tail with
  | none => by_cases hx : x = q.created <;> simp [hx]
  | some t =>
    by_cases hxt : x = t
    · by_cases ht : t = q.created <;> simp [hxt, ht]
    by_cases hx : x = q.created
    · subst hx
      simp [hxt]
    · simp [hx, hxt]

theorem prepareDispatch_counts (q : DispatchQueue) :
    q.prepareDispatch.sequence = q.sequence + 1 ∧ q.prepareDispatch.created = q.created + 1 := by
  unfold prepareDispatch setBarrier
  dsimp only
  cases q.tail <;> exact ⟨rfl, rfl⟩

theorem live_prepareDispatch (q : DispatchQueue) :
    q.prepareDispatch.live = q.live ++ [q.created] := by
  unfold live
  rw [(prepareDispatch_counts q).2, List.range_succ, List.filter_append]
  congr 1
  · refine List.filter_congr fun x hx => ?_
    have hne : x ≠ q.created := Nat.ne_of_lt (List.mem_range.1 hx)
    rw [(prepareDispatch_barrier q x).2, if_neg hne]
  · simp [(prepareDispatch_barrier q q.created).2]

theorem Inv.prepareDispatch (h : Inv q) : Inv q.prepareDispatch := by
  have hnew : q.created ∉ q.live := by simp [mem_live]
  have htail : q.tail ≠ some q.created := by
    intro heq
    have hlast : q.live.getLast? = some q.created := h.list.tail.symm.trans heq
    exact hnew (List.mem_of_getLast? hlast)
  refine ⟨?_, ?_, fun b hb => ?_⟩
  · rw [live_prepareDispatch, links_prepareDispatch htail]
    exact h.list.pushBack hnew
  · rw [(prepareDispatch_counts q).1, (prepareDispatch_counts q).2, h.sequence]
  rw [(prepareDispatch_counts q).2] at hb
  rw [(prepareDispatch_barrier q b).1]
  split
  next heq => rw [h.sequence, heq]
  · exact h.number b (by omega)

theorem Inv.neighbours (h : Inv q) (hb : b ∈ q.live) :
    ∃ us vs, q.live = us ++ b :: vs ∧ (q.barrier b).previous ≠ some b ∧
      (q.barrier b).next ≠ some b := by
  obtain ⟨us, vs, hlive⟩ := List.append_of_mem hb
  have hnodup := h.list.nodup
  rw [hlive] at hnodup
  have hnot : b ∉ us ++ vs := (List.nodup_cons.1 (List.perm_middle.nodup_iff.1 hnodup)).1
  rw [List.mem_append, not_or] at hnot
  refine ⟨us, vs, hlive, fun hp => hnot.1 ?_, fun hn => hnot.2 ?_⟩
  · exact List.mem_of_getLast? ((h.list.previous us b vs hlive).symm.trans hp)
  · exact List.mem_of_head? ((h.list.next us b vs hlive).symm.trans hn)

theorem Inv.live_releaseDispatch (h : Inv q) (hb : b < q.created) :
    (q.releaseDispatch b).live = q.live.filter (fun x => decide (x ≠ b)) := by
  cases hr : (q.barrier b).released with
  | true =>
    have hsame : q.releaseDispatch b = q := by
      unfold releaseDispatch
      rw [if_pos hr]
    rw [hsame, List.filter_eq_self.2]
    intro x hx
    have := (mem_live.1 hx).2
    exact decide_eq_true fun heq => by rw [heq, hr] at this; cases this
  | false =>
    obtain ⟨us, vs, -, hp, hn⟩ := h.neighbours (mem_live.2 ⟨hb, hr⟩)
    rw [releaseDispatch_eq hr hp hn]
    unfold live
    rw [List.filter_filter]
    refine List.filter_congr fun x _ => ?_
    by_cases hx : x = b <;> simp [hx]

theorem Inv.releaseDispatch (h : Inv q) (hb : b < q.created) : Inv (q.releaseDispatch b) := by
  cases hr : (q.barrier b).released with
  | true =>
    unfold DispatchQueue.releaseDispatch
    rw [if_pos hr]
    exact h
  | false =>
    obtain ⟨us, vs, hlive, hp, hn⟩ := h.neighbours (mem_live.2 ⟨hb, hr⟩)
    have hrest : (q.releaseDispatch b).live = us ++ vs := by
      have hnodup := h.list.nodup
      rw [hlive] at hnodup
      have hnot : b ∉ us ++ vs := (List.nodup_cons.1 (List.perm_middle.nodup_iff.1 hnodup)).1
      rw [h.live_releaseDispatch hb, hlive, List.filter_append, List.filter_cons_of_neg (by simp),
        ← List.filter_append, List.filter_eq_self.2]
      intro x hx
      exact decide_eq_true fun heq => hnot (heq ▸ hx)
    refine ⟨?_, ?_, fun x hx => ?_⟩
    · rw [hrest, links_releaseDispatch hr hp hn]
      exact (hlive ▸ h.list).unlink
    · rw [releaseDispatch_eq hr hp hn]
      exact h.sequence
    · rw [releaseDispatch_eq hr hp hn] at hx ⊢
      exact h.number x hx

theorem Inv.releaseDispatch_released (h : Inv q) (hb : b < q.created) (x : Nat) :
    ((q.releaseDispatch b).barrier x).released =
      ((q.barrier x).released || decide (x = b)) := by
  cases hr : (q.barrier b).released with
  | true =>
    have hsame : q.releaseDispatch b = q := by
      unfold DispatchQueue.releaseDispatch
      rw [if_pos hr]
    rw [hsame]
    by_cases hx : x = b <;> simp [hx, hr]
  | false =>
    obtain ⟨us, vs, -, hp, hn⟩ := h.neighbours (mem_live.2 ⟨hb, hr⟩)
    rw [releaseDispatch_eq hr hp hn]

theorem Inv.beginDispatch (h : Inv q) (hb : b < q.created) (hreturns : q.beginDispatch b = none) :
    ∀ a < b, (q.barrier a).released = true := by
  intro a ha
  by_contra hlive
  have hmem : a ∈ q.live := mem_live.2 ⟨by omega, by simpa using hlive⟩
  have hhead : q.head = q.live.head? := h.list.head
  obtain ⟨first, rest, hcons⟩ := List.exists_cons_of_ne_nil (List.ne_nil_of_mem hmem)
  have hfirst : first ∈ q.live := by simp [hcons]
  -- The list is in the order of creation, so its head is at most `a`.
  have hsorted : q.live.Pairwise (· < ·) := List.pairwise_lt_range.filter _
  have hle : first ≤ a := by
    rw [hcons] at hmem hsorted
    rcases List.mem_cons.1 hmem with rfl | hrest
    · exact Nat.le_refl _
    · exact Nat.le_of_lt (List.rel_of_pairwise_cons hsorted hrest)
  unfold DispatchQueue.beginDispatch at hreturns
  rw [hhead, hcons, List.head?_cons] at hreturns
  dsimp only at hreturns
  rw [h.number first (mem_live.1 hfirst).1, h.number b hb] at hreturns
  split at hreturns
  · omega
  · cases hreturns

end DispatchQueue

/-! ## Callers -/

/-- Where a caller of `BeginDispatch` is. -/
inductive Caller where
  | out
  /-- Before the next pass of the loop. -/
  | checking (b : Nat)
  /-- Waiting for the `done` of a barrier. -/
  | waiting (b first : Nat)
  | returned (b : Nat)
deriving DecidableEq, Repr

/-- The barrier a caller is about. -/
def Caller.about : Caller → Option Nat
  | .out => none
  | .checking b | .waiting b _ | .returned b => some b

structure Connection where
  queue : DispatchQueue := {}
  caller : Nat → Caller := fun _ => .out

namespace Connection

def setCaller (s : Connection) (c : Nat) (x : Caller) : Connection :=
  { s with caller := Function.update s.caller c x }

/-- Where a pass of the loop leads. -/
def check (s : Connection) (b : Nat) : Caller :=
  match s.queue.beginDispatch b with
  | none => .returned b
  | some first => .waiting b first

end Connection

/-- The sections of the queue's lock, in any order. A release may be repeated, and may come before
or without a `BeginDispatch` of the same barrier. -/
inductive Step (s : Connection) : Connection → Prop where
  | create : Step s { s with queue := s.queue.prepareDispatch }
  | release (b : Nat) (h : b < s.queue.created) :
      Step s { s with queue := s.queue.releaseDispatch b }
  | call (c b : Nat) (h : b < s.queue.created) (hc : s.caller c = .out) :
      Step s (s.setCaller c (.checking b))
  | check (c b : Nat) (hc : s.caller c = .checking b) : Step s (s.setCaller c (s.check b))
  | wake (c b first : Nat) (hc : s.caller c = .waiting b first)
      (h : (s.queue.barrier first).released = true) : Step s (s.setCaller c (.checking b))

def Reachable : Connection → Prop := Relation.ReflTransGen Step {}

namespace Connection

open DispatchQueue

structure Inv (s : Connection) : Prop where
  queue : s.queue.Inv
  created : ∀ c b, (s.caller c).about = some b → b < s.queue.created
  returned : ∀ c b, s.caller c = .returned b → ∀ a < b, (s.queue.barrier a).released = true

variable {s s' : Connection}

theorem setCaller_caller (s : Connection) (c c' : Nat) (x : Caller) :
    (s.setCaller c x).caller c' = if c' = c then x else s.caller c' :=
  Function.update_apply ..

theorem Inv.setCaller (h : Inv s) {c : Nat} {x : Caller}
    (hcreated : ∀ b, x.about = some b → b < s.queue.created)
    (hreturned : ∀ b, x = .returned b → ∀ a < b, (s.queue.barrier a).released = true) :
    Inv (s.setCaller c x) := by
  refine ⟨h.queue, fun c' b hb => ?_, fun c' b hb => ?_⟩
  · rw [setCaller_caller] at hb
    split at hb
    · exact hcreated b hb
    · exact h.created c' b hb
  · rw [setCaller_caller] at hb
    split at hb
    · exact hreturned b hb
    · exact h.returned c' b hb

theorem Inv.step (h : Inv s) (hstep : Step s s') : Inv s' := by
  cases hstep with
  | create =>
    refine ⟨h.queue.prepareDispatch, fun c b hb => ?_, fun c b hb a ha => ?_⟩
    · have := h.created c b hb
      dsimp only
      rw [(prepareDispatch_counts s.queue).2]
      omega
    · have hlt : b < s.queue.created := h.created c b (congrArg Caller.about hb)
      dsimp only
      rw [(prepareDispatch_barrier s.queue a).2, if_neg (by omega)]
      exact h.returned c b hb a ha
  | release b hb =>
    have hcreated : (s.queue.releaseDispatch b).created = s.queue.created := by
      unfold releaseDispatch setBarrier
      dsimp only
      split
      · rfl
      · split <;> split <;> rfl
    refine ⟨h.queue.releaseDispatch hb, fun c x hx => ?_, fun c x hx a ha => ?_⟩
    · dsimp only
      rw [hcreated]
      exact h.created c x hx
    · dsimp only
      rw [h.queue.releaseDispatch_released hb, h.returned c x hx a ha]
      rfl
  | call c b hb _ =>
    refine h.setCaller (fun x hx => ?_) nofun
    cases hx
    exact hb
  | check c b hc =>
    have hb : b < s.queue.created := h.created c b (by rw [hc]; rfl)
    unfold Connection.check
    cases hreturns : s.queue.beginDispatch b with
    | none =>
      refine h.setCaller (fun x hx => ?_) fun x hx => ?_
      · cases hx
        exact hb
      · cases hx
        exact h.queue.beginDispatch hb hreturns
    | some first =>
      refine h.setCaller (fun x hx => ?_) nofun
      cases hx
      exact hb
  | wake c b first hc _ =>
    refine h.setCaller (fun x hx => ?_) nofun
    cases hx
    exact h.created c b (by rw [hc]; rfl)

theorem inv_of_reachable (h : Reachable s) : Inv s := by
  induction h with
  | refl => exact ⟨.start, nofun, nofun⟩
  | tail _ hstep ih => exact ih.step hstep

/-- In every state: the list holds exactly the barriers that are not released, in the order of
their creation, from either end; a `BeginDispatch` that has returned did so with every earlier
barrier released; and a release is idempotent and takes out no other barrier. -/
theorem dispatch_order (h : Reachable s) :
    (∀ n, s.queue.created ≤ n →
      Links.walk s.queue.links.next n s.queue.head = s.queue.live ∧
      Links.walk s.queue.links.previous n s.queue.tail = s.queue.live.reverse) ∧
    (∀ s' c b, Step s s' → s.caller c ≠ .returned b → s'.caller c = .returned b →
      s'.queue = s.queue ∧ ∀ a < b, (s.queue.barrier a).released = true) ∧
    ∀ b < s.queue.created,
      (s.queue.releaseDispatch b).releaseDispatch b = s.queue.releaseDispatch b ∧
      (s.queue.releaseDispatch b).live = s.queue.live.filter (fun x => decide (x ≠ b)) := by
  have hinv := inv_of_reachable h
  refine ⟨fun n hn => ?_, fun s' c b hstep hbefore hafter => ?_, fun b hb => ⟨?_, ?_⟩⟩
  · have hlength : s.queue.live.length ≤ n := by
      have := List.length_filter_le (fun b => !(s.queue.barrier b).released)
        (List.range s.queue.created)
      rw [List.length_range] at this
      exact Nat.le_trans this hn
    exact ⟨hinv.queue.list.walk_next hlength, hinv.queue.list.walk_previous hlength⟩
  · have hqueue : s'.queue = s.queue := by
      cases hstep with
      | create => exact absurd hafter hbefore
      | release b hb => exact absurd hafter hbefore
      | call | check | wake => rfl
    refine ⟨hqueue, ?_⟩
    rw [← hqueue]
    exact (hinv.step hstep).returned c b hafter
  · have hreleased := hinv.queue.releaseDispatch_released hb b
    rw [decide_eq_true rfl, Bool.or_true] at hreleased
    rw [releaseDispatch, if_pos hreleased]
  · exact hinv.queue.live_releaseDispatch hb

/-- Two messages, the first of them released, and the second about to be admitted. -/
def secondMessage : Connection :=
  setCaller { queue := (prepareDispatch (prepareDispatch {})).releaseDispatch 0 } 0 (.checking 1)

theorem dispatch_order_second : Reachable secondMessage ∧
    (secondMessage.setCaller 0 (secondMessage.check 1)).caller 0 = .returned 1 ∧
    (secondMessage.queue.barrier 0).released = true := by
  have hsteps : Reachable secondMessage :=
    (((Relation.ReflTransGen.refl.tail .create).tail .create).tail
      (.release 0 (by decide))).tail (.call 0 1 (by decide) rfl)
  have hcheck : Step secondMessage (secondMessage.setCaller 0 (secondMessage.check 1)) :=
    .check 0 1 rfl
  exact ⟨hsteps, rfl, ((dispatch_order hsteps).2.1 _ 0 1 hcheck (by decide) rfl).2 0 (by decide)⟩

/-! ## Progress -/

/-- A caller is told to wait for a barrier that is not released and comes before its own. -/
theorem beginDispatch_some {q : DispatchQueue} {b first : Nat} (h : q.Inv) (hb : b < q.created)
    (hwaits : q.beginDispatch b = some first) :
    first < b ∧ (q.barrier first).released = false := by
  unfold DispatchQueue.beginDispatch at hwaits
  cases hhead : q.head with
  | none =>
    rw [hhead] at hwaits
    cases hwaits
  | some head =>
    obtain ⟨hcreated, hreleased⟩ :=
      mem_live.1 (List.mem_of_head? (h.list.head.symm.trans hhead))
    rw [hhead] at hwaits
    dsimp only at hwaits
    rw [h.number head hcreated, h.number b hb] at hwaits
    split at hwaits
    · cases hwaits
    · cases hwaits
      exact ⟨by omega, hreleased⟩

theorem waiting_lt (h : Reachable s) {c b first : Nat} (hc : s.caller c = .waiting b first) :
    first < b := by
  induction h with
  | refl => cases hc
  | @tail s s' hreach hstep ih =>
    cases hstep with
    | create | release => exact ih hc
    | check c' b' hc' =>
      rw [setCaller_caller] at hc
      split at hc
      · have hinv := inv_of_reachable hreach
        unfold Connection.check at hc
        split at hc
        · cases hc
        next hbegin =>
          cases hc
          exact (beginDispatch_some hinv.queue (hinv.created c' b (by rw [hc']; rfl)) hbegin).1
      · exact ih hc
    | call | wake =>
      rw [setCaller_caller] at hc
      split at hc
      · cases hc
      · exact ih hc

/-- In every state: `BeginDispatch` of a barrier returns at its next pass if and only if every
earlier barrier is released; and a caller whose earlier barriers are all released gets through by
its own steps alone, whatever it was waiting for. -/
theorem dispatch_progress (h : Reachable s) :
    (∀ b < s.queue.created, s.check b = .returned b ↔
      ∀ a < b, (s.queue.barrier a).released = true) ∧
    ∀ c b, (s.caller c).about = some b → (∀ a < b, (s.queue.barrier a).released = true) →
      ∃ s', Relation.ReflTransGen Step s s' ∧ s'.queue = s.queue ∧ s'.caller c = .returned b := by
  have hinv := inv_of_reachable h
  have hcheck : ∀ b < s.queue.created, s.check b = .returned b ↔
      ∀ a < b, (s.queue.barrier a).released = true := by
    intro b hb
    unfold Connection.check
    cases hbegin : s.queue.beginDispatch b with
    | none => exact iff_of_true rfl (hinv.queue.beginDispatch hb hbegin)
    | some first =>
      obtain ⟨hlt, hreleased⟩ := beginDispatch_some hinv.queue hb hbegin
      refine iff_of_false Caller.noConfusion fun hall => ?_
      rw [hall first hlt] at hreleased
      cases hreleased
  refine ⟨hcheck, fun c b hc hall => ?_⟩
  have hb := hinv.created c b hc
  cases hcaller : s.caller c with
  | out =>
    rw [hcaller] at hc
    cases hc
  | checking b' =>
    rw [hcaller] at hc
    cases hc
    refine ⟨_, .single (.check c b hcaller), rfl, ?_⟩
    rw [setCaller_caller, if_pos rfl]
    exact (hcheck b hb).2 hall
  | waiting b' first =>
    rw [hcaller] at hc
    cases hc
    have hwoken := Step.wake c b first hcaller (hall first (waiting_lt h hcaller))
    refine ⟨_, .tail (.single hwoken) (.check c b (Function.update_self ..)), rfl, ?_⟩
    rw [setCaller_caller, if_pos rfl]
    exact (hcheck b hb).2 hall
  | returned b' =>
    rw [hcaller] at hc
    cases hc
    exact ⟨s, .refl, rfl, hcaller⟩

theorem dispatch_progress_second : ∃ s', Relation.ReflTransGen Step secondMessage s' ∧
    s'.caller 0 = .returned 1 := by
  have hsteps : Reachable secondMessage :=
    (((Relation.ReflTransGen.refl.tail .create).tail .create).tail
      (.release 0 (by decide))).tail (.call 0 1 (by decide) rfl)
  obtain ⟨s', hs', -, hcaller⟩ := (dispatch_progress hsteps).2 0 1 rfl (by decide)
  exact ⟨s', hs', hcaller⟩

end Connection
end Diameter.Dispatch
