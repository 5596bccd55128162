import Diameter.Pending.History

/-!
# Pending.Chain

The rollback chain of a ticket: `Below` follows `previous`, and the rollback loop ends at the first
ticket below that neither failed nor was cancelled (`survivor_spec`). Then what the methods that
change an owner leave of it.
-/

namespace Diameter.Pending

open Lib PendingRequests

variable {p : PendingRequests}
variable {t : RequestWrite} {r : Nat}

/-! ## Chains -/

/-- The ticket, or one that its rollback comes to. -/
def Below (ticket : Nat → RequestWrite) : Nat → Nat → Prop :=
  Relation.ReflTransGen fun r q => (ticket r).previous = some q

section Chains

variable {ticket ticket' : Nat → RequestWrite} {n q : Nat}

theorem Below.of_agree (hagree : ∀ a < n, (ticket a).previous = (ticket' a).previous)
    (holder : ∀ a < n, ∀ b, (ticket a).previous = some b → b < a) (hr : r < n)
    (h : Below ticket r q) : Below ticket' r q ∧ q < n := by
  induction h with
  | refl => exact ⟨.refl, hr⟩
  | tail _ hstep ih =>
    have hlt := holder _ ih.2 _ hstep
    refine ⟨ih.1.tail ?_, by omega⟩
    rw [← hagree _ ih.2]
    exact hstep

theorem below_congr (hagree : ∀ a, (ticket a).previous = (ticket' a).previous) :
    Below ticket r q ↔ Below ticket' r q := by
  unfold Below
  simp only [hagree]

theorem below_iff_of_none (h : (ticket r).previous = none) : Below ticket r q ↔ q = r := by
  unfold Below
  rw [Relation.ReflTransGen.cases_head_iff]
  simp only [h, reduceCtorEq, false_and, exists_false, or_false]
  exact eq_comm

theorem below_iff_of_some {a : Nat} (h : (ticket r).previous = some a) :
    Below ticket r q ↔ q = r ∨ Below ticket a q := by
  unfold Below
  rw [Relation.ReflTransGen.cases_head_iff]
  simp only [h, Option.some.injEq, exists_eq_left']
  exact or_congr_left eq_comm

theorem Below.cut {a : Nat} (h : Below ticket r q) :
    Below (Function.update ticket a { ticket a with previous := none }) r q ∨
      Below (Function.update ticket a { ticket a with previous := none }) r a := by
  induction h with
  | refl => exact .inl .refl
  | @tail b c _ hstep ih =>
    refine ih.elim (fun hb => ?_) .inr
    by_cases hba : b = a
    · exact .inr (hba ▸ hb)
    refine .inl (hb.tail ?_)
    rw [Function.update_of_ne hba]
    exact hstep

theorem Below.of_cut {a : Nat}
    (h : Below (Function.update ticket a { ticket a with previous := none }) r q) :
    Below ticket r q := by
  induction h with
  | refl => exact .refl
  | @tail b c _ hstep ih =>
    refine ih.tail ?_
    by_cases hba : b = a
    · rw [hba, Function.update_self] at hstep
      cases hstep
    · rwa [Function.update_of_ne hba] at hstep

theorem update_field {α : Type} (f : RequestWrite → α)
    (h : f t = f (ticket r)) (a : Nat) : f (Function.update ticket r t a) = f (ticket a) := by
  rw [Function.update_apply]
  split
  next ha => rw [ha, h]
  · rfl

theorem update_mark (P : RequestWrite → Prop) (h : P t) (a : Nat) :
    P (Function.update ticket r t a) ↔ P (ticket a) ∨ a = r := by
  rw [Function.update_apply]
  split
  next ha => exact iff_of_true h (.inr ha)
  next ha => exact (or_iff_left ha).symm

/-- The ticket failed or was cancelled. -/
def Spent (t : RequestWrite) : Prop := t.failed = true ∨ t.cancelled = true

/-- What is left of the chain of `r` when its spent tickets are dropped from the top. -/
def Leaves (ticket : Nat → RequestWrite) (r : Nat) : Option Nat → Prop
  | none => ∀ a, Below ticket r a → Spent (ticket a)
  | some q => Below ticket r q ∧ ¬ Spent (ticket q) ∧
      ∀ a, Below ticket r a → Spent (ticket a) ∨ Below ticket q a

/-- The rollback loop ends at the first ticket that is not spent. -/
theorem survivor_spec (holder : ∀ a < n, ∀ b, (ticket a).previous = some b → b < a) {m : Nat}
    (hr : r < n) (hrm : r < m) : Leaves ticket r (survivor ticket m (some r)) := by
  induction m generalizing r with
  | zero => omega
  | succ m ih =>
    rw [survivor]
    by_cases hspent : ((ticket r).failed || (ticket r).cancelled) = true
    · rw [if_pos hspent]
      have hspent' : Spent (ticket r) := by simpa [Spent] using hspent
      cases hprev : (ticket r).previous with
      | none =>
        simp only [survivor]
        intro a ha
        rw [(below_iff_of_none hprev).1 ha]
        exact hspent'
      | some r' =>
        have hlt := holder r hr r' hprev
        have hrest := ih (r := r') (by omega) (by omega)
        cases hs : survivor ticket m (some r') with
        | none =>
          rw [hs] at hrest
          intro a ha
          rcases (below_iff_of_some hprev).1 ha with rfl | ha
          · exact hspent'
          · exact hrest a ha
        | some q =>
          rw [hs] at hrest
          obtain ⟨hq, hlive, hall⟩ := hrest
          refine ⟨(below_iff_of_some hprev).2 (.inr hq), hlive, fun a ha => ?_⟩
          rcases (below_iff_of_some hprev).1 ha with rfl | ha
          · exact .inl hspent'
          · exact hall a ha
    · rw [if_neg hspent]
      exact ⟨.refl, by simpa [Spent] using hspent, fun a ha => .inr ha⟩

end Chains

/-! ## Owners -/

namespace PendingRequests

theorem own_unowned (hprevious : (p.ticket r).previous = none)
    (hpending : p.pending.lookup (p.ticket r).key = none) :
    p.own r = { p with pending := p.pending.insert (p.ticket r).key r } := by
  have hsame : { p.ticket r with previous := none } = p.ticket r := by rw [← hprevious]
  unfold own setTicket
  dsimp only
  rw [hpending, if_neg (by simp), hsame, Function.update_eq_self]

theorem own_allocated {key : RequestKey} (hpending : p.pending.lookup key ≠ some p.allocated) :
    (p.allocate { key := key }).own p.allocated =
      { p.allocate { key := key, previous := p.pending.lookup key } with
        pending := p.pending.insert key p.allocated } := by
  unfold own allocate setTicket
  dsimp only
  rw [Function.update_self, if_neg hpending]
  dsimp only
  rw [Function.update_idem]

theorem outcome_false_eq (p : PendingRequests) (r : Nat) :
    p.outcome r false = { p with
      ticket := Function.update p.ticket r { p.ticket r with failed := true }
      pending := (p.outcome r false).pending } := by
  unfold outcome setTicket
  dsimp only
  rw [if_neg Bool.false_ne_true]
  split
  · split <;> rfl
  · rfl

theorem cancel_eq (p : PendingRequests) (r : Nat) :
    p.cancel r = { p with
      ticket := Function.update p.ticket r { p.ticket r with cancelled := true }
      pending := (p.cancel r).pending } := by
  unfold cancel setTicket
  dsimp only
  split <;> rfl

theorem release_eq (p : PendingRequests) (r : Nat) :
    p.release r = { p with reserved := (p.release r).reserved } := by
  unfold release
  split <;> rfl

theorem release_reserved {key : RequestKey} {q : Nat}
    (h : (p.release r).reserved.lookup key = some q) : p.reserved.lookup key = some q := by
  unfold release at h
  split at h
  · dsimp only at h
    rw [GoMap.lookup_erase_eq] at h
    split at h
    · cases h
    · exact h
  · exact h

theorem matchAnswer_eq (p : PendingRequests) (hd : Option Header) (consume : Bool) :
    (p.matchAnswer hd consume).1 =
      { p with pending := (p.matchAnswer hd consume).1.pending } := by
  unfold matchAnswer
  split
  · rfl
  split
  · rfl
  split
  · rfl
  · split <;> rfl

/-- `BeginWrite` does nothing, or has the ticket of a request own its key. -/
theorem beginWrite_cases (p : PendingRequests) (b : Bytes) : (p.beginWrite b).1 = p ∨
    p.closing = false ∧ ∃ hd q r, publicationHeader b = some hd ∧ (p.beginWrite b).1 = q.own r ∧
      (q = p ∧ p.reserved.lookup (keyForRequest hd) = some r ∨
        q = p.allocate { key := keyForRequest hd } ∧ r = p.allocated) := by
  unfold beginWrite
  split
  · exact .inl rfl
  rename_i hd hb
  split
  · exact .inl rfl
  rename_i hopen
  split
  next r hr =>
    split
    · exact .inl rfl
    · exact .inr ⟨by simpa using hopen, hd, p, r, hb, rfl, .inl ⟨rfl, hr⟩⟩
  · exact .inr ⟨by simpa using hopen, hd, _, _, hb, rfl, .inr ⟨rfl, rfl⟩⟩

/-- A ticket that owns its key gives it up, to `next` if there is one. -/
def yield (p : PendingRequests) (r : Nat) (next : Option Nat) : GoMap RequestKey Nat :=
  if p.pending.lookup (p.ticket r).key = some r then
    match next with
    | none => p.pending.erase (p.ticket r).key
    | some q => p.pending.insert (p.ticket r).key q
  else p.pending

theorem lookup_yield (p : PendingRequests) (r : Nat) (next : Option Nat) (key : RequestKey) :
    (p.yield r next).lookup key =
      if key = (p.ticket r).key ∧ p.pending.lookup key = some r then next
      else p.pending.lookup key := by
  unfold yield
  split
  next hown =>
    have hlookup : ∀ q : Option Nat, (if key = (p.ticket r).key then q else p.pending.lookup key) =
        if key = (p.ticket r).key ∧ p.pending.lookup key = some r then q
        else p.pending.lookup key := by
      intro q
      by_cases hk : key = (p.ticket r).key
      · rw [if_pos hk, if_pos ⟨hk, hk ▸ hown⟩]
      · rw [if_neg hk, if_neg fun hc => hk hc.1]
    cases next with
    | none => rw [GoMap.lookup_erase_eq, hlookup]
    | some q => rw [GoMap.lookup_insert_eq, hlookup]
  next hown =>
    rw [if_neg]
    rintro ⟨rfl, hc⟩
    exact hown hc

theorem outcome_false_pending (p : PendingRequests) (r : Nat) : (p.outcome r false).pending =
    p.yield r (survivor (p.outcome r false).ticket p.allocated (p.ticket r).previous) := by
  rw [congrArg PendingRequests.ticket (outcome_false_eq p r)]
  unfold outcome yield setTicket
  rw [if_neg Bool.false_ne_true]
  simp only [Function.update_self]
  split
  next hown =>
    rw [Function.update_self] at hown
    rw [if_pos hown]
    split <;> simp only [*]
  next hown =>
    rw [Function.update_self] at hown
    rw [if_neg hown]

theorem cancel_pending (p : PendingRequests) (r : Nat) : (p.cancel r).pending = p.yield r none := by
  unfold cancel yield setTicket
  simp only [Function.update_self]
  split
  all_goals
    rename_i hown
    rw [Function.update_self] at hown
    simp only [hown, if_true, if_false]

/-- A ticket that fails or is cancelled is spent, and the survivor of its chain takes over the key
it owns. -/
structure Spends (p q : PendingRequests) (r : Nat) : Prop where
  reserved : q.reserved = p.reserved
  allocated : q.allocated = p.allocated
  key : ∀ a, (q.ticket a).key = (p.ticket a).key
  previous : ∀ a, (q.ticket a).previous = (p.ticket a).previous
  spent : ∀ a, Spent (q.ticket a) ↔ Spent (p.ticket a) ∨ a = r
  lookup : ∀ key, q.pending.lookup key =
    if key = (p.ticket r).key ∧ p.pending.lookup key = some r then
      survivor q.ticket p.allocated (p.ticket r).previous
    else p.pending.lookup key

theorem Spends.of_update {p q : PendingRequests}
    (hreserved : q.reserved = p.reserved) (hallocated : q.allocated = p.allocated)
    (hticket : q.ticket = Function.update p.ticket r t) (hkey : t.key = (p.ticket r).key)
    (hprevious : t.previous = (p.ticket r).previous) (hspent : Spent t)
    (hpending : q.pending =
      p.yield r (survivor q.ticket p.allocated (p.ticket r).previous)) : Spends p q r := by
  refine ⟨hreserved, hallocated, fun a => ?_, fun a => ?_, fun a => ?_, fun key => ?_⟩
  · rw [hticket]
    exact update_field _ hkey a
  · rw [hticket]
    exact update_field _ hprevious a
  · rw [hticket]
    exact update_mark _ hspent a
  · rw [hpending, lookup_yield]

theorem spends_outcome (p : PendingRequests) (r : Nat) : Spends p (p.outcome r false) r :=
  .of_update (by rw [outcome_false_eq]) (by rw [outcome_false_eq])
    (congrArg ticket (outcome_false_eq p r)) rfl rfl (.inl rfl) (outcome_false_pending p r)

theorem spends_cancel (hprevious : (p.ticket r).previous = none) :
    Spends p (p.cancel r) r := by
  refine .of_update (by rw [cancel_eq]) (by rw [cancel_eq]) (congrArg ticket (cancel_eq p r)) rfl
    rfl (.inr rfl) ?_
  rw [cancel_pending, hprevious, survivor]

end PendingRequests
end Diameter.Pending
