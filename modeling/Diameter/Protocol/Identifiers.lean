import Diameter.Protocol.Order

/-!
# Protocol.Identifiers

The identifiers of a core's own requests, over a whole run. What a core was granted it has given
back or still holds for an exchange, and it gives everything back in the end
(`identifiers_conserved`). It holds identifiers exactly while an answer or a write needs them, and
for one exchange of a command at a time (`exchange_discipline`).
-/

namespace Diameter.Protocol

open Lib

variable {c : Core} {v : Reservation}

/-- An exchange needs its identifiers while its answer is awaited or a write of it has no final
result. -/
def Leases.Needs (l : Leases) (r : Nat) (k : Control) : Prop :=
  k.logical = true ∨ ∃ t op, l.operations.lookup t = some op ∧ op.control = some r

theorem Leases.Balanced.released_iff {l : Leases} (hl : l.Balanced) {r : Nat} {k : Control}
    (hk : l.heap[r]? = some k) : k.released = true ↔ ¬ l.Needs r k := by
  have hsends := hl.writers r k hk
  refine ⟨fun hrel => ?_, fun hn => ?_⟩
  · obtain ⟨hlog, hw⟩ := hl.needless r k hk hrel
    rintro (h | ⟨t, op, hop, hr⟩)
    · rw [hlog] at h
      cases h
    · have hpos : 0 < l.sends r := GoMap.count_pos hop (decide_eq_true hr)
      omega
  · rw [Needs, not_or, Bool.not_eq_true] at hn
    refine hl.settled r k hk hn.1 ?_
    have hzero : l.sends r = 0 := GoMap.count_eq_zero fun t op hop =>
      decide_eq_false fun hr => hn.2 ⟨t, op, hop, hr⟩
    omega

variable [BasePackage]

/-- The identifiers a call grants: those of a ReserveResult that the core waits for. -/
def Core.grants (c : Core) (v : Reservation) : Event → Nat
  | .input i => if i.connection = c.cfg.connection then c.leases.owed i v else 0
  | .refresh _ => 0

/-- How often these identifiers are granted in a run. -/
def granted (c : Core) (v : Reservation) (events : List Event) : Nat :=
  (events.foldl (fun p e => ((p.1.apply e).1, p.2 + p.1.grants v e)) (c, 0)).2

theorem granted_concat (c : Core) (v : Reservation) (events : List Event) (e : Event) :
    granted c v (events ++ [e]) = granted c v events + (run c events).core.grants v e := by
  have hcore : (events.foldl (fun p e => ((p.1.apply e).1, p.2 + p.1.grants v e)) (c, 0)).1 =
      (run c events).core := by
    induction events using List.reverseRecOn with
    | nil => rfl
    | append_singleton events e ih =>
      rw [run_concat, List.foldl_append, List.foldl_cons, List.foldl_nil, ih]
      rfl
  rw [granted, List.foldl_append, List.foldl_cons, List.foldl_nil, hcore]
  rfl

theorem Batch.reserved_taken (b : Batch) (i : Input) :
    (b.reserved i).core.reservations.lookup i.token = none := by
  have hend : ∀ b' : Batch, b'.core.reservations = b.core.reservations.erase i.token →
      (b'.terminate .closed).core.reservations.lookup i.token = none := by
    intro b' h
    have hs := congrArg (fun s => s.leases.reservations) (terminate_spec b' .closed).1
    have hres : (b'.terminate .closed).core.reservations = b.core.reservations.erase i.token :=
      hs.trans ((Leases.abandonAll_reservations _).trans h)
    rw [hres]
    exact AList.lookup_erase _ _
  unfold reserved
  split
  · assumption
  dsimp only
  split
  · split
    · exact AList.lookup_erase _ _
    · exact hend _ (by unfold Core.noteHandshake; dsimp only [update]; split <;> rfl)
  split
  · exact AList.lookup_erase _ _
  unfold openExchange
  split
  · exact hend _ (by unfold Core.noteHandshake; dsimp only [update]; split <;> rfl)
  · exact AList.lookup_erase _ _

/-- A call gives back or comes to hold what it grants. -/
theorem apply_account (hwf : c.state.WF) (hx : Exchanges c.state) (e : Event) :
    released (c.apply e).2 v + (c.apply e).1.leases.held v = c.leases.held v + c.grants v e := by
  have hacc := (hx.step (apply_step hwf e)).2 v
  have hbare : released ((c.apply e).2.map Effect.bare) v = released (c.apply e).2 v := by
    rw [released, List.countP_map]
    rfl
  rw [hbare] at hacc
  cases e with
  | refresh peer => exact hacc
  | input i =>
    by_cases hconn : i.connection = c.cfg.connection
    · have htaken : Leases.owed (c.apply (.input i)).1.leases i v = 0 := by
        by_cases hk : i.kind = .reserveResult
        · have hb : Batch.handleInto { core := c } i = Batch.reserved { core := c } i := by
            simp [Batch.handleInto, hconn, hk]
          refine owed_taken ?_
          show (Batch.handleInto { core := c } i).core.reservations.lookup i.token = none
          rw [hb]
          exact Batch.reserved_taken _ i
        · exact owed_of_kind hk
      change _ + _ + Leases.owed (c.apply (.input i)).1.leases i v = _ at hacc
      rw [htaken] at hacc
      rw [Core.grants, if_pos hconn]
      exact hacc
    · have hb : c.apply (.input i) = (c, []) := by
        simp [Core.apply, Batch.handleInto, hconn]
      rw [hb, Core.grants, if_neg hconn]
      exact Nat.zero_add _

/-- In every run, what a core was granted is what it has given back and what its exchanges hold.
After the end, when no write of an exchange is left, all of it has been given back. -/
theorem identifiers_conserved (hc : Created c) (events : List Event) (v : Reservation) :
    granted c v events =
      released (run c events).effects v + (run c events).core.leases.held v ∧
    ((run c events).core.phase.ended = true →
      (∀ t op, (run c events).core.operations.lookup t = some op → op.control = none) →
      released (run c events).effects v = granted c v events) := by
  have hsum : granted c v events =
      released (run c events).effects v + (run c events).core.leases.held v := by
    induction events using List.reverseRecOn with
    | nil => rcases hc.cases_init with ⟨cfg, rfl⟩ | ⟨cfg, peer, -, rfl⟩ <;> rfl
    | append_singleton events e ih =>
      have hstep := apply_account (v := v) (run_wf hc events) (run_inOrder hc events).exchanges e
      rw [granted_concat, run_concat, Run.effects_next, released_append, ih]
      show _ = _ + _ + ((run c events).core.apply e).1.leases.held v
      omega
  refine ⟨hsum, fun hend hops => ?_⟩
  have hx := (run_inOrder hc events).exchanges
  have hheld : (run c events).core.leases.held v = 0 := by
    refine List.countP_eq_zero.2 fun k hk => ?_
    obtain ⟨r, hr⟩ := List.mem_iff_getElem?.1 hk
    have hawaited := List.countP_eq_zero.1 (hx.ended hend k.command) k hk
    have hrel : k.released = true := by
      refine (hx.balanced.released_iff hr).2 ?_
      rintro (h | ⟨t, op, hop, h⟩)
      · simp [h] at hawaited
      · rw [hops t op hop] at h
        cases h
    simp [hrel]
  rw [hsum, hheld]
  rfl

/-- An initiator, which asks for the identifiers of its CER when it starts. -/
def dialer : Core := @Core.init samplePackage { sampleConfig false with role := .initiator }

/-- It is aborted before it has them, and gives them back when they come. -/
def lateGrant : List Event :=
  [.input (sampleInput .start 0), .input (sampleInput .abort 0),
   .input { sampleInput .reserveResult 1 with reservation := ⟨3, 7, 9⟩ }]

omit [BasePackage] in
theorem dialer_created : @Created samplePackage dialer :=
  @Created.new samplePackage { sampleConfig false with role := .initiator } _ rfl

omit [BasePackage] in
theorem identifiers_conserved_late :
    @granted samplePackage dialer ⟨3, 7, 9⟩ lateGrant = 1 ∧
    released (@run samplePackage dialer lateGrant).effects ⟨3, 7, 9⟩ = 1 := by
  have hgranted : @granted samplePackage dialer ⟨3, 7, 9⟩ lateGrant = 1 := by decide +kernel
  have hheld : (@run samplePackage dialer lateGrant).core.leases.held ⟨3, 7, 9⟩ = 0 := by
    decide +kernel
  have h := (@identifiers_conserved _ samplePackage dialer_created lateGrant ⟨3, 7, 9⟩).1
  exact ⟨hgranted, by omega⟩

/-- In every state of a run: a command is asked for or awaited at most once; an exchange has given
its identifiers back exactly when nothing needs them; a request other than a CER was written at most
once; and after the end no answer is awaited. -/
theorem exchange_discipline (hc : Created c) (events : List Event) :
    (∀ cmd, GoMap.count (run c events).core.reservations (fun x => x = cmd) +
      (run c events).core.leases.awaited cmd ≤ 1) ∧
    (∀ (r : Nat) (k : Control), (run c events).core.heap[r]? = some k →
      (k.released = true ↔ ¬ (run c events).core.leases.Needs r k) ∧
      (k.command ≠ .capabilitiesExchange → k.attempts ≤ 1)) ∧
    ((run c events).core.phase.ended = true →
      ∀ k ∈ (run c events).core.heap, k.logical = false) := by
  have hx := (run_inOrder hc events).exchanges
  refine ⟨hx.single, fun r k hk => ⟨hx.balanced.released_iff hk, (hx.balanced.attempts r k hk).2⟩,
    fun hend k hk => ?_⟩
  have hawaited := List.countP_eq_zero.1 (hx.ended hend k.command) k hk
  simpa using hawaited

omit [BasePackage] in
theorem exchange_discipline_started :
    GoMap.count (@run samplePackage dialer [.input (sampleInput .start 0)]).core.reservations
      (fun x => x = .capabilitiesExchange) = 1 ∧
    (@run samplePackage dialer [.input (sampleInput .start 0)]).core.leases.awaited
      .capabilitiesExchange = 0 := by
  have hasked : GoMap.count (@run samplePackage dialer
      [.input (sampleInput .start 0)]).core.reservations
        (fun x => x = .capabilitiesExchange) = 1 := by decide +kernel
  have h := (@exchange_discipline _ samplePackage dialer_created
    [.input (sampleInput .start 0)]).1 .capabilitiesExchange
  exact ⟨hasked, by omega⟩

end Diameter.Protocol
