import Diameter.Pending.Chain

/-!
# Pending.Tidy

What the log says of the tickets (`Tidy`), kept by every call as long as a reserved ticket carries
one transmission: each transmission has a ticket of its own, which is marked failed and cancelled
exactly as the log has it.
-/

namespace Diameter.Pending

open Lib PendingRequests

namespace System

/-- What the log says of the tickets. -/
structure Tidy (s : System) : Prop where
  closing : s.p.closing = true ↔ .closed ∈ s.log
  prepared : ∀ key r, .prepared key r ∈ s.log →
    r < s.p.allocated ∧ (s.p.ticket r).key = key ∧ (s.p.ticket r).previous = none
  reserved : ∀ key r, s.p.reserved.lookup key = some r → .prepared key r ∈ s.log
  cancelled : ∀ r < s.p.allocated, (s.p.ticket r).cancelled = true ↔ .cancelled r ∈ s.log
  cancelledPrepared : ∀ r, .cancelled r ∈ s.log → ∃ key, .prepared key r ∈ s.log
  begun : ∀ tx key reservation, .begun tx key reservation ∈ s.log → tx < s.callbacks.length
  begunOnce : ∀ tx key key' reservation reservation', .begun tx key reservation ∈ s.log →
    .begun tx key' reservation' ∈ s.log → key = key' ∧ reservation = reservation'
  reported : ∀ tx written, .reported tx written ∈ s.log → tx < s.callbacks.length
  reportedOnce : ∀ tx, .reported tx true ∈ s.log → .reported tx false ∉ s.log
  carrier : ∀ (tx r : Nat), s.callbacks[tx]? = some (some r) → r < s.p.allocated ∧
    ∃ reservation, .begun tx (s.p.ticket r).key reservation ∈ s.log ∧
      (reservation = some r ∨ reservation = none ∧ ∀ key, .prepared key r ∉ s.log) ∧
      ((s.p.ticket r).failed = true ↔ .reported tx false ∈ s.log)
  failed : ∀ r < s.p.allocated, (s.p.ticket r).failed = true →
    ∃ tx : Nat, s.callbacks[tx]? = some (some r)
  carrierOnce : ∀ (tx tx' r : Nat), s.callbacks[tx]? = some (some r) →
    s.callbacks[tx']? = some (some r) → tx = tx'
  begunPrepared : ∀ tx key r, .begun tx key (some r) ∈ s.log → ∃ key', .prepared key' r ∈ s.log
  older : ∀ r < s.p.allocated, ∀ q, (s.p.ticket r).previous = some q →
    q < r ∧ (s.p.ticket q).key = (s.p.ticket r).key

/-- A transmission that was written without a reservation: only an answer ends it. -/
def Settled (s : System) (r : Nat) : Prop :=
  ∃ tx key, s.callbacks[tx]? = some (some r) ∧ .begun tx key none ∈ s.log ∧
    .reported tx true ∈ s.log

theorem mem_snoc {log : List Event} {e x : Event} : x ∈ log ++ [e] ↔ x ∈ log ∨ x = e := by
  rw [List.mem_append, List.mem_singleton]

section

variable {s : System}

theorem Tidy.not_spent_of_alive (h : Tidy s) {tx r : Nat} {key : RequestKey}
    {reservation : Option Nat} (hr : s.callbacks[tx]? = some (some r))
    (halive : Alive s.log key tx reservation) : ¬ Spent (s.p.ticket r) := by
  obtain ⟨hlt, reservation', hbegun, hres, hfailed⟩ := h.carrier tx r hr
  obtain ⟨-, rfl⟩ := h.begunOnce _ _ _ _ _ halive.mem hbegun
  obtain ⟨before, after, hlog, -, -, hnot, hcancelled⟩ := halive
  rintro (hf | hc)
  · exact hnot (hfailed.1 hf)
  rw [h.cancelled r hlt] at hc
  rcases hres with rfl | ⟨rfl, hnone⟩
  · exact hcancelled r rfl hc
  · obtain ⟨key, hkey⟩ := h.cancelledPrepared r hc
    exact hnone key hkey

theorem Tidy.not_spent_of_settled (h : Tidy s) {r : Nat} (hr : s.Settled r) :
    ¬ Spent (s.p.ticket r) := by
  obtain ⟨tx, key, hcb, hbegun, hwritten⟩ := hr
  obtain ⟨hlt, reservation, hbegun', hres, hfailed⟩ := h.carrier tx r hcb
  obtain ⟨-, rfl⟩ := h.begunOnce _ _ _ _ _ hbegun hbegun'
  have hnone : ∀ key, .prepared key r ∉ s.log := by simpa using hres
  rintro (hf | hc)
  · exact h.reportedOnce tx hwritten (hfailed.1 hf)
  · obtain ⟨key, hkey⟩ := h.cancelledPrepared r ((h.cancelled r hlt).1 hc)
    exact hnone key hkey

theorem Tidy.below (h : Tidy s) {r q : Nat} (hr : r < s.p.allocated)
    (hq : Below s.p.ticket r q) : q < s.p.allocated ∧ (s.p.ticket q).key = (s.p.ticket r).key := by
  induction hq with
  | refl => exact ⟨hr, rfl⟩
  | tail _ hstep ih =>
    obtain ⟨hlt, hkey⟩ := h.older _ ih.1 _ hstep
    exact ⟨by omega, hkey.trans ih.2⟩

/-! ## The calls -/

theorem Tidy.prepareWrite (h : Tidy s) (hd : Header) : Tidy (s.apply (.prepareWrite hd)) := by
  have hnew : ∀ key, .prepared key s.p.allocated ∉ s.log := fun key hmem =>
    absurd (h.prepared key _ hmem).1 (lt_irrefl _)
  obtain ⟨s', hs'⟩ : ∃ s', s' = s.apply (.prepareWrite hd) := ⟨_, rfl⟩
  have hlog : s'.log = s.log ++ [.prepared (keyForRequest hd) s.p.allocated] := by rw [hs']; rfl
  have hcallbacks : s'.callbacks = s.callbacks := by rw [hs']; rfl
  have hclosing : s'.p.closing = s.p.closing := by rw [hs']; rfl
  have hreserved : s'.p.reserved = s.p.reserved.insert (keyForRequest hd) s.p.allocated := by
    rw [hs']; rfl
  have hallocated : s'.p.allocated = s.p.allocated + 1 := by rw [hs']; rfl
  have hold : ∀ r < s.p.allocated, s'.p.ticket r = s.p.ticket r := fun r hr => by
    rw [hs']
    exact Function.update_of_ne (by omega) _ _
  have hself : s'.p.ticket s.p.allocated = { key := keyForRequest hd } := by
    rw [hs']
    exact Function.update_self ..
  rw [← hs']
  clear hs'
  refine {
    closing := by simpa [hlog, hclosing] using h.closing
    prepared := ?_
    reserved := ?_
    cancelled := ?_
    cancelledPrepared := ?_
    begun := by simpa [hlog, hcallbacks] using h.begun
    begunOnce := by simpa [hlog] using h.begunOnce
    reported := by simpa [hlog, hcallbacks] using h.reported
    reportedOnce := by simpa [hlog] using h.reportedOnce
    carrier := ?_
    failed := ?_
    carrierOnce := by simpa [hcallbacks] using h.carrierOnce
    begunPrepared := ?_
    older := ?_ }
  · intro key r hmem
    rw [hlog, mem_snoc] at hmem
    rw [hallocated]
    rcases hmem with hmem | heq
    · obtain ⟨hlt, hrest⟩ := h.prepared key r hmem
      rw [hold r hlt]
      exact ⟨by omega, hrest⟩
    · cases heq
      rw [hself]
      exact ⟨by omega, rfl, rfl⟩
  · intro key r hr
    rw [hreserved, GoMap.lookup_insert_eq] at hr
    rw [hlog, mem_snoc]
    split at hr
    next hkey =>
      cases hr
      exact .inr (by rw [hkey])
    · exact .inl (h.reserved key r hr)
  · intro r hr
    rw [hlog, mem_snoc, or_iff_left (by simp)]
    rcases Nat.lt_succ_iff_lt_or_eq.1 (hallocated ▸ hr) with hlt | rfl
    · rw [hold r hlt]
      exact h.cancelled r hlt
    rw [hself]
    refine ⟨nofun, fun hmem => ?_⟩
    obtain ⟨key, hkey⟩ := h.cancelledPrepared _ hmem
    exact absurd hkey (hnew key)
  · intro r hmem
    rw [hlog, mem_snoc, or_iff_left (by simp)] at hmem
    obtain ⟨key, hkey⟩ := h.cancelledPrepared r hmem
    exact ⟨key, hlog ▸ mem_snoc.2 (.inl hkey)⟩
  · intro tx r hcb
    rw [hcallbacks] at hcb
    obtain ⟨hlt, reservation, hbegun, hres, hfailed⟩ := h.carrier tx r hcb
    rw [hallocated, hold r hlt, hlog]
    refine ⟨by omega, reservation, mem_snoc.2 (.inl hbegun), hres.imp_right ?_, ?_⟩
    · rintro ⟨hnone, hnot⟩
      refine ⟨hnone, fun key hmem => ?_⟩
      rcases mem_snoc.1 hmem with hmem | heq
      · exact hnot key hmem
      · cases heq
        omega
    · rw [mem_snoc, or_iff_left (by simp)]
      exact hfailed
  · intro r hr hf
    rw [hcallbacks]
    rcases Nat.lt_succ_iff_lt_or_eq.1 (hallocated ▸ hr) with hlt | rfl
    · exact h.failed r hlt (hold r hlt ▸ hf)
    · rw [hself] at hf
      cases hf
  · intro tx key r hmem
    rw [hlog, mem_snoc, or_iff_left (by simp)] at hmem
    obtain ⟨key', hkey⟩ := h.begunPrepared tx key r hmem
    exact ⟨key', hlog ▸ mem_snoc.2 (.inl hkey)⟩
  · intro r hr q hq
    rcases Nat.lt_succ_iff_lt_or_eq.1 (hallocated ▸ hr) with hlt | rfl
    · rw [hold r hlt] at hq ⊢
      obtain ⟨hqr, hkey⟩ := h.older r hlt q hq
      rw [hold q (by omega)]
      exact ⟨hqr, hkey⟩
    · rw [hself] at hq
      cases hq
theorem getElem?_snoc_callbacks {cbs : List (Option Nat)} {cb : Option Nat} {tx r : Nat} :
    (cbs ++ [cb])[tx]? = some (some r) ↔
      cbs[tx]? = some (some r) ∨ tx = cbs.length ∧ cb = some r := by
  rw [List.getElem?_append]
  split
  next hlt => exact ⟨.inl, fun h => h.resolve_right fun h => by omega⟩
  rename_i hge
  rw [List.getElem?_eq_none (by omega : cbs.length ≤ tx)]
  constructor
  · intro h
    have htx : tx - cbs.length = 0 := by
      by_contra hne
      rw [List.getElem?_eq_none (by rw [List.length_singleton]; omega)] at h
      cases h
    rw [htx] at h
    exact .inr ⟨by omega, by simpa using h⟩
  · rintro (h | ⟨rfl, rfl⟩)
    · cases h
    · simp

theorem Tidy.begin (h : Tidy s) {s' : System} {key : RequestKey} {cb : Option Nat}
    (hlog : s'.log = s.log ++ [.begun s.callbacks.length key (s.p.reserved.lookup key)])
    (hcallbacks : s'.callbacks = s.callbacks ++ [cb]) (hclosing : s'.p.closing = s.p.closing)
    (hreserved : s'.p.reserved = s.p.reserved) (hallocated : s.p.allocated ≤ s'.p.allocated)
    (hold : ∀ r < s.p.allocated, s'.p.ticket r = s.p.ticket r)
    (hnew : ∀ r, s.p.allocated ≤ r → r < s'.p.allocated → (s'.p.ticket r).cancelled = false ∧
      (s'.p.ticket r).failed = false ∧ ∀ q, (s'.p.ticket r).previous = some q →
        q < s.p.allocated ∧ (s.p.ticket q).key = (s'.p.ticket r).key)
    (hcarrier : ∀ r, cb = some r → r < s'.p.allocated ∧ (s'.p.ticket r).key = key ∧
      (s'.p.ticket r).failed = false ∧ (s.p.reserved.lookup key = some r ∨
        s.p.reserved.lookup key = none ∧ s.p.allocated ≤ r) ∧
      ∀ tx : Nat, s.callbacks[tx]? ≠ some (some r)) : Tidy s' := by
  have hlt : ∀ tx written, .reported tx written ∈ s.log → tx ≠ s.callbacks.length :=
    fun tx written hmem => (h.reported tx written hmem).ne
  refine {
    closing := by simpa [hlog, hclosing] using h.closing
    prepared := ?_
    reserved := by simpa [hlog, hreserved] using h.reserved
    cancelled := ?_
    cancelledPrepared := by simpa [hlog] using h.cancelledPrepared
    begun := ?_
    begunOnce := ?_
    reported := ?_
    reportedOnce := by simpa [hlog] using h.reportedOnce
    carrier := ?_
    failed := ?_
    carrierOnce := ?_
    begunPrepared := ?_
    older := ?_ }
  · intro key' r hmem
    rw [hlog, mem_snoc, or_iff_left (by simp)] at hmem
    obtain ⟨hr, hrest⟩ := h.prepared key' r hmem
    rw [hold r hr]
    exact ⟨by omega, hrest⟩
  · intro r hr
    rw [hlog, mem_snoc, or_iff_left (by simp)]
    by_cases hr' : r < s.p.allocated
    · rw [hold r hr']
      exact h.cancelled r hr'
    rw [(hnew r (by omega) hr).1]
    refine ⟨nofun, fun hmem => ?_⟩
    obtain ⟨key', hkey⟩ := h.cancelledPrepared r hmem
    exact absurd (h.prepared key' r hkey).1 hr'
  · intro tx key' reservation hmem
    rw [hcallbacks, List.length_append, List.length_singleton]
    rcases mem_snoc.1 (hlog ▸ hmem) with hmem | heq
    · have := h.begun tx key' reservation hmem
      omega
    · cases heq
      omega
  · intro tx key1 key2 reservation1 reservation2 h1 h2
    rcases mem_snoc.1 (hlog ▸ h1) with h1 | h1 <;> rcases mem_snoc.1 (hlog ▸ h2) with h2 | h2
    · exact h.begunOnce tx _ _ _ _ h1 h2
    · cases h2
      exact absurd (h.begun _ _ _ h1) (lt_irrefl _)
    · cases h1
      exact absurd (h.begun _ _ _ h2) (lt_irrefl _)
    cases h1
    cases h2
    exact ⟨rfl, rfl⟩
  · intro tx written hmem
    rw [hlog, mem_snoc, or_iff_left (by simp)] at hmem
    rw [hcallbacks, List.length_append]
    exact Nat.lt_add_right _ (h.reported tx written hmem)
  · intro tx r hcb
    rw [hcallbacks, getElem?_snoc_callbacks] at hcb
    rcases hcb with hcb | ⟨rfl, rfl⟩
    · obtain ⟨hr, reservation, hbegun, hres, hfailed⟩ := h.carrier tx r hcb
      rw [hold r hr, hlog]
      refine ⟨by omega, reservation, mem_snoc.2 (.inl hbegun), hres.imp_right ?_, ?_⟩
      · exact fun hnot => ⟨hnot.1, fun key' hmem =>
          hnot.2 key' ((mem_snoc.1 hmem).resolve_right (by simp))⟩
      · rw [mem_snoc, or_iff_left (by simp)]
        exact hfailed
    · obtain ⟨hr, hkey, hf, hres, -⟩ := hcarrier r rfl
      rw [hlog, hkey, hf]
      refine ⟨hr, _, mem_snoc.2 (.inr rfl), hres.imp_right ?_, ?_⟩
      · refine fun hnot => ⟨hnot.1, fun key' hmem => ?_⟩
        have := (h.prepared key' r ((mem_snoc.1 hmem).resolve_right (by simp))).1
        omega
      · rw [mem_snoc, or_iff_left (by simp)]
        exact ⟨nofun, fun hmem => absurd rfl (hlt _ _ hmem)⟩
  · intro r hr hf
    by_cases hr' : r < s.p.allocated
    · obtain ⟨tx, htx⟩ := h.failed r hr' (hold r hr' ▸ hf)
      exact ⟨tx, by rw [hcallbacks, getElem?_snoc_callbacks]; exact .inl htx⟩
    · rw [(hnew r (by omega) hr).2.1] at hf
      cases hf
  · intro tx tx' r h1 h2
    rw [hcallbacks, getElem?_snoc_callbacks] at h1 h2
    rcases h1 with h1 | ⟨rfl, hcb⟩ <;> rcases h2 with h2 | ⟨rfl, hcb'⟩
    · exact h.carrierOnce tx tx' r h1 h2
    · exact absurd h1 ((hcarrier r hcb').2.2.2.2 tx)
    · exact absurd h2 ((hcarrier r hcb).2.2.2.2 tx')
    · rfl
  · intro tx key' r hmem
    rw [hlog] at hmem ⊢
    rcases mem_snoc.1 hmem with hmem | heq
    · obtain ⟨key'', hkey⟩ := h.begunPrepared tx key' r hmem
      exact ⟨key'', mem_snoc.2 (.inl hkey)⟩
    · obtain ⟨-, -, hres⟩ := Event.begun.inj heq
      exact ⟨key, mem_snoc.2 (.inl (h.reserved key r hres.symm))⟩
  · intro r hr q hq
    by_cases hr' : r < s.p.allocated
    · rw [hold r hr'] at hq ⊢
      obtain ⟨hqr, hkey⟩ := h.older r hr' q hq
      rw [hold q (by omega)]
      exact ⟨hqr, hkey⟩
    · obtain ⟨hq', hkey⟩ := (hnew r (by omega) hr).2.2 q hq
      rw [hold q hq']
      exact ⟨by omega, hkey⟩

theorem Tidy.mark (h : Tidy s) {s' : System} {e : Event} (hlog : s'.log = s.log ++ [e])
    (hcallbacks : s'.callbacks = s.callbacks) (hreserved : s'.p.reserved = s.p.reserved)
    (hallocated : s'.p.allocated = s.p.allocated) (hprepared : ∀ key r, .prepared key r ≠ e)
    (hbegun : ∀ tx key reservation, .begun tx key reservation ≠ e)
    (hreported : ∀ tx written, .reported tx written = e → s.Possible (.outcome tx written))
    (hpossible : ∀ r, .cancelled r = e → s.Possible (.cancel r))
    (hclosing : s'.p.closing = true ↔ s.p.closing = true ∨ .closed = e)
    (hkey : ∀ q, (s'.p.ticket q).key = (s.p.ticket q).key)
    (hprevious : ∀ q a, (s'.p.ticket q).previous = some a → (s.p.ticket q).previous = some a)
    (hcancelled : ∀ q, (s'.p.ticket q).cancelled = true ↔
      (s.p.ticket q).cancelled = true ∨ .cancelled q = e)
    (hfailed : ∀ q, (s'.p.ticket q).failed = true ↔ (s.p.ticket q).failed = true ∨
      ∃ tx, .reported tx false = e ∧ s.callbacks[tx]? = some (some q)) : Tidy s' := by
  have hmem : ∀ {x}, x ∈ s'.log ↔ x ∈ s.log ∨ x = e := by rw [hlog]; exact mem_snoc
  have hprep : ∀ {key r}, .prepared key r ∈ s'.log ↔ .prepared key r ∈ s.log := by
    simp [hmem, hprepared]
  have hbeg : ∀ {tx key reservation}, .begun tx key reservation ∈ s'.log ↔
      .begun tx key reservation ∈ s.log := by
    simp [hmem, hbegun]
  refine {
    closing := by rw [hclosing, h.closing, hmem]
    prepared := ?_
    reserved := by simpa [hprep, hreserved] using h.reserved
    cancelled := ?_
    cancelledPrepared := ?_
    begun := by simpa [hbeg, hcallbacks] using h.begun
    begunOnce := by simpa [hbeg] using h.begunOnce
    reported := ?_
    reportedOnce := ?_
    carrier := ?_
    failed := ?_
    carrierOnce := by simpa [hcallbacks] using h.carrierOnce
    begunPrepared := by simpa [hbeg, hprep] using h.begunPrepared
    older := ?_ }
  · intro key r hr
    obtain ⟨hlt, hk, hp⟩ := h.prepared key r (hprep.1 hr)
    refine ⟨by omega, (hkey r).trans hk, Option.eq_none_iff_forall_ne_some.2 fun a ha => ?_⟩
    rw [hprevious r a ha] at hp
    cases hp
  · intro q hq
    rw [hcancelled, h.cancelled q (by omega), hmem]
  · intro r hr
    simp only [hprep]
    exact (hmem.1 hr).elim (h.cancelledPrepared r) (hpossible r)
  · intro tx written hr
    rw [hcallbacks]
    exact (hmem.1 hr).elim (h.reported tx written) fun he => (hreported tx written he).1
  · intro tx h1 h2
    rcases hmem.1 h1 with h1 | he <;> rcases hmem.1 h2 with h2 | he'
    · exact h.reportedOnce tx h1 h2
    · exact (hreported tx _ he').2 _ h1
    · exact (hreported tx _ he).2 _ h2
    · cases he.trans he'.symm
  · intro tx r hcb
    rw [hcallbacks] at hcb
    obtain ⟨hlt, reservation, hbegun, hres, hf⟩ := h.carrier tx r hcb
    rw [hallocated, hkey]
    refine ⟨hlt, reservation, hbeg.2 hbegun, by simpa [hprep] using hres, ?_⟩
    rw [hfailed, hf, hmem]
    refine or_congr_right ⟨?_, fun he => ⟨tx, he, hcb⟩⟩
    rintro ⟨tx', he, hcb'⟩
    rw [h.carrierOnce tx tx' r hcb hcb', he]
  · intro r hr hf
    rw [hcallbacks]
    rcases (hfailed r).1 hf with hf | ⟨tx, -, hcb⟩
    · exact h.failed r (by omega) hf
    · exact ⟨tx, hcb⟩
  · intro r hr q hq
    rw [hkey, hkey]
    exact h.older r (by omega) q (hprevious r q hq)

end
end System
end Diameter.Pending
