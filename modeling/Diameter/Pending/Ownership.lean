import Diameter.Pending.Tidy

/-!
# Pending.Ownership

The rollback chain of the tickets of a key against the log: while each reserved ticket carries one
transmission, a key is owned exactly when a transmission of it is alive (`owns_iff_alive`).

The chain does not hold every transmission that is alive. A transmission that was written lets go
of the older ones below it, and may, because nothing but an answer ends it: `Settled`.
-/

namespace Diameter.Pending

open Lib PendingRequests

variable {r : Nat} {key : RequestKey} {s s' : System}
variable {tx : Nat} {q p : PendingRequests}

namespace System

/-- The owner of a key heads a chain whose tickets that are not spent carry transmissions that are
alive, and every other one that is alive outlasts the chain through a settled one. -/
structure Heads (s : System) (key : RequestKey) (r : Nat) : Prop where
  allocated : r < s.p.allocated
  ofKey : (s.p.ticket r).key = key
  live : ¬ Spent (s.p.ticket r)
  carried : ∀ q, Below s.p.ticket r q → ¬ Spent (s.p.ticket q) →
    ∃ tx reservation, s.callbacks[tx]? = some (some q) ∧ Alive s.log key tx reservation
  found : ∀ tx reservation, Alive s.log key tx reservation →
    ∃ q, s.callbacks[tx]? = some (some q) ∧
      (Below s.p.ticket r q ∨ ∃ b, Below s.p.ticket r b ∧ s.Settled b)

structure Sound (s : System) : Prop extends Tidy s where
  unowned : ∀ key, s.p.pending.lookup key = none → ¬ OwnedBy s.log key
  heads : ∀ key r, s.p.pending.lookup key = some r → s.Heads key r
  unused : ∀ key r, s.p.reserved.lookup key = some r →
    s.p.pending.lookup key = none ∨ ∃ tx key', .begun tx key' (some r) ∈ s.log

theorem Sound.start : Sound {} := by
  refine { toTidy := by constructor <;> simp, unowned := ?_, heads := by simp, unused := by simp }
  rintro key - ⟨tx, reservation, h⟩
  exact absurd h.mem List.not_mem_nil

section

/-- What was begun and reported stays so. -/
structure Extends (s s' : System) : Prop where
  callbacks : s.callbacks <+: s'.callbacks
  log : s.log <+: s'.log

theorem Extends.logged (hcallbacks : s'.callbacks = s.callbacks) {e : Event}
    (hlog : s'.log = s.log ++ [e]) : s.Extends s' :=
  ⟨hcallbacks ▸ List.prefix_rfl, hlog ▸ List.prefix_append _ _⟩

theorem Extends.begun {cb : Option Nat} {e : Event} (hcallbacks : s'.callbacks = s.callbacks ++ [cb])
    (hlog : s'.log = s.log ++ [e]) : s.Extends s' :=
  ⟨hcallbacks ▸ List.prefix_append _ _, hlog ▸ List.prefix_append _ _⟩

theorem Extends.carrier (h : s.Extends s') {q : Nat} (hq : s.callbacks[tx]? = some (some q)) :
    s'.callbacks[tx]? = some (some q) := by
  obtain ⟨rest, hrest⟩ := h.callbacks
  rw [← hrest, List.getElem?_append_left (List.getElem?_eq_some_iff.1 hq).1, hq]

theorem Extends.settled (h : s.Extends s') {q : Nat} (hq : s.Settled q) : s'.Settled q := by
  obtain ⟨tx, key, hcb, hbegun, hwritten⟩ := hq
  exact ⟨tx, key, h.carrier hcb, h.log.subset hbegun, h.log.subset hwritten⟩

theorem Extends.unused (h : s.Extends s') {P Q : Prop} {q : Nat} (hPQ : P → Q)
    (hq : P ∨ ∃ tx key, .begun tx key (some q) ∈ s.log) :
    Q ∨ ∃ tx key, .begun tx key (some q) ∈ s'.log :=
  hq.imp hPQ fun ⟨tx, key, hbegun⟩ => ⟨tx, key, h.log.subset hbegun⟩

theorem Heads.frame (h : Tidy s) (hh : s.Heads key r) (hx : s.Extends s')
    (halloc : s.p.allocated ≤ s'.p.allocated)
    (hticket : ∀ q < s.p.allocated, (s.p.ticket q).key = key → s'.p.ticket q = s.p.ticket q)
    (halive : ∀ tx reservation, Alive s'.log key tx reservation ↔ Alive s.log key tx reservation) :
    s'.Heads key r := by
  have hsame : ∀ q, Below s.p.ticket r q → s'.p.ticket q = s.p.ticket q := by
    intro q hq
    obtain ⟨hlt, hkey⟩ := h.below hh.allocated hq
    exact hticket q hlt (hkey.trans hh.ofKey)
  have hto : ∀ q, Below s.p.ticket r q → Below s'.p.ticket r q := by
    intro q hq
    induction hq with
    | refl => exact .refl
    | tail hb hstep ih =>
      refine ih.tail ?_
      rw [hsame _ hb]
      exact hstep
  have hfrom : ∀ q, Below s'.p.ticket r q → Below s.p.ticket r q := by
    intro q hq
    induction hq with
    | refl => exact .refl
    | tail _ hstep ih =>
      refine ih.tail ?_
      rw [← hsame _ ih]
      exact hstep
  refine ⟨by have := hh.allocated; omega, ?_, ?_, fun q hq hlive => ?_, fun tx res ha => ?_⟩
  · rw [hsame r .refl]
    exact hh.ofKey
  · rw [hsame r .refl]
    exact hh.live
  · rw [hsame q (hfrom q hq)] at hlive
    obtain ⟨tx, reservation, hcb, ha⟩ := hh.carried q (hfrom q hq) hlive
    exact ⟨tx, reservation, hx.carrier hcb, (halive tx reservation).2 ha⟩
  · obtain ⟨q, hcb, hq⟩ := hh.found tx res ((halive tx res).1 ha)
    exact ⟨q, hx.carrier hcb, hq.imp (hto q) fun ⟨b, hb, hs⟩ => ⟨b, hto b hb, hx.settled hs⟩⟩

/-! ## The calls -/

/-- Calls that leave the owners, their tickets and what is alive as they were. -/
theorem Sound.frame (h : Sound s) (htidy : Tidy s') (hx : s.Extends s')
    (hpending : s'.p.pending = s.p.pending) (halloc : s.p.allocated ≤ s'.p.allocated)
    (hticket : ∀ q < s.p.allocated, s'.p.ticket q = s.p.ticket q)
    (halive : ∀ key tx reservation, Alive s'.log key tx reservation ↔
      Alive s.log key tx reservation)
    (hreserved : ∀ key r, s'.p.reserved.lookup key = some r →
      s.p.reserved.lookup key = some r ∨ s.p.pending.lookup key = none) : Sound s' := by
  refine { htidy with unowned := ?_, heads := ?_, unused := ?_ }
  · rintro key hnone ⟨tx, reservation, ha⟩
    exact h.unowned key (hpending ▸ hnone) ⟨tx, reservation, (halive key tx reservation).1 ha⟩
  · intro key r hr
    exact (h.heads key r (hpending ▸ hr)).frame h.toTidy hx halloc (fun q hq _ => hticket q hq)
      (halive key)
  · intro key r hr
    rw [hpending]
    rcases hreserved key r hr with hr | hnone
    · exact hx.unused id (h.unused key r hr)
    · exact .inl hnone

theorem Sound.prepareWrite (h : Sound s) {hd : Header} (hfree : ¬ s.p.Owns (keyForRequest hd)) :
    Sound (s.apply (.prepareWrite hd)) := by
  refine h.frame (h.toTidy.prepareWrite hd) (.logged rfl rfl) rfl (Nat.le_succ _)
    (fun q hq => Function.update_of_ne (by omega) _ _)
    (fun _ _ _ => alive_snoc_of_ne nofun nofun nofun nofun) fun key r hr => ?_
  replace hr : (s.p.reserved.insert (keyForRequest hd) s.p.allocated).lookup key = some r := hr
  rw [GoMap.lookup_insert_eq] at hr
  split at hr
  next hkey =>
    rw [hkey]
    exact .inr (by simpa [Owns] using hfree)
  · exact .inl hr

theorem Sound.malformed (h : Sound s) :
    Sound { s with callbacks := s.callbacks ++ [none] } := by
  have hcb : ∀ {tx r : Nat}, (s.callbacks ++ [none])[tx]? = some (some r) ↔
      s.callbacks[tx]? = some (some r) := by
    intro tx r
    rw [getElem?_snoc_callbacks]
    simp
  have hlength : ∀ {tx : Nat}, tx < s.callbacks.length → tx < (s.callbacks ++ [none]).length := by
    intro tx htx
    rw [List.length_append]
    omega
  have htidy : Tidy { s with callbacks := s.callbacks ++ [none] } := { h.toTidy with
    begun := fun tx key reservation hmem => hlength (h.begun tx key reservation hmem)
    reported := fun tx written hmem => hlength (h.reported tx written hmem)
    carrier := fun tx r hr => h.carrier tx r (hcb.1 hr)
    failed := fun r hr hf => (h.failed r hr hf).imp fun tx => hcb.2
    carrierOnce := fun tx tx' r h1 h2 => h.carrierOnce tx tx' r (hcb.1 h1) (hcb.1 h2) }
  exact h.frame htidy ⟨List.prefix_append _ _, List.prefix_rfl⟩ rfl le_rfl (fun _ _ => rfl)
    (fun _ _ _ => Iff.rfl) fun _ _ => .inl

theorem Sound.refused (h : Sound s)
    (hlog : s'.log = s.log ++ [.begun s.callbacks.length key (s.p.reserved.lookup key)])
    (hcallbacks : s'.callbacks = s.callbacks ++ [none]) (hp : s'.p = s.p)
    (hrefused : s.p.closing = true ∨ ∃ r, s.p.reserved.lookup key = some r ∧
      (s.p.ticket r).cancelled = true) : Sound s' := by
  have htidy : Tidy s' := h.toTidy.begin hlog hcallbacks (by rw [hp]) (by rw [hp]) (by rw [hp])
    (fun r _ => by rw [hp]) (fun r hr hr' => by rw [hp] at hr'; omega) nofun
  have halive : ∀ key' tx reservation,
      Alive s'.log key' tx reservation ↔ Alive s.log key' tx reservation := by
    intro key' tx reservation
    rw [hlog, alive_snoc]
    constructor
    · rintro (⟨ha, -⟩ | ⟨heq, hclosed, -, hcancelled⟩)
      · exact ha
      · rcases hrefused with hclosing | ⟨r, hr, hc⟩
        · exact absurd (h.closing.1 hclosing) hclosed
        · obtain ⟨-, -, hres⟩ := Event.begun.inj heq
          have hlt := (h.prepared key r (h.reserved key r hr)).1
          exact absurd ((h.cancelled r hlt).1 hc) (hcancelled r (hres.symm.trans hr))
    · exact fun ha => .inl ⟨ha, nofun, nofun, fun _ _ => nofun⟩
  refine h.frame htidy (.begun hcallbacks hlog) (by rw [hp]) (by rw [hp]) (fun _ _ => by rw [hp])
    halive fun key' r hr => ?_
  rw [hp] at hr
  exact .inl hr

theorem Sound.admitted (h : Sound s)
    (hlog : s'.log = s.log ++ [.begun s.callbacks.length key (s.p.reserved.lookup key)])
    (hcallbacks : s'.callbacks = s.callbacks ++ [some r]) (htidy : Tidy s')
    (hpending : s'.p.pending = s.p.pending.insert key r) (hreserved : s'.p.reserved = s.p.reserved)
    (hallocated : s.p.allocated ≤ s'.p.allocated)
    (hold : ∀ q < s.p.allocated, s'.p.ticket q = s.p.ticket q) (hr : r < s'.p.allocated)
    (hkey : (s'.p.ticket r).key = key)
    (hprevious : (s'.p.ticket r).previous = s.p.pending.lookup key) (hopen : s.p.closing = false)
    (hlive : ¬ Spent (s'.p.ticket r))
    (hcancelled : ∀ q, s.p.reserved.lookup key = some q → (s.p.ticket q).cancelled = false) :
    Sound s' := by
  have hself : s'.callbacks[s.callbacks.length]? = some (some r) := by
    rw [hcallbacks, getElem?_snoc_callbacks]
    exact .inr ⟨rfl, rfl⟩
  have hx : s.Extends s' := .begun hcallbacks hlog
  have halive : ∀ key' tx reservation, Alive s'.log key' tx reservation ↔
      Alive s.log key' tx reservation ∨ tx = s.callbacks.length ∧ key' = key ∧
        reservation = s.p.reserved.lookup key := by
    intro key' tx reservation
    rw [hlog, alive_snoc]
    constructor
    · rintro (⟨ha, -⟩ | ⟨heq, -⟩)
      · exact .inl ha
      · cases heq
        exact .inr ⟨rfl, rfl, rfl⟩
    · rintro (ha | ⟨rfl, rfl, rfl⟩)
      · exact .inl ⟨ha, nofun, nofun, fun _ _ => nofun⟩
      · refine .inr ⟨rfl, ?_, ?_, fun q hq hc => ?_⟩
        · rw [← h.closing, hopen]
          exact Bool.false_ne_true
        · exact fun hbad => absurd (h.reported _ _ hbad) (lt_irrefl _)
        · have hlt := (h.prepared _ q (h.reserved _ q hq)).1
          rw [← h.cancelled q hlt, hcancelled q hq] at hc
          cases hc
  refine { htidy with unowned := ?_, heads := ?_, unused := ?_ }
  · rintro key' hnone ⟨tx, reservation, ha⟩
    rw [hpending, GoMap.lookup_insert_eq] at hnone
    split at hnone
    · cases hnone
    rename_i hne
    rcases (halive _ _ _).1 ha with ha | ⟨-, hk, -⟩
    · exact h.unowned key' hnone ⟨tx, reservation, ha⟩
    · exact hne hk
  · intro key' r' hr'
    rw [hpending, GoMap.lookup_insert_eq] at hr'
    split at hr'
    next hk =>
      subst hk
      cases hr'
      cases hp : s.p.pending.lookup key' with
      | none =>
        rw [hp] at hprevious
        refine ⟨hr, hkey, hlive, fun q hq hq' => ?_, fun tx reservation ha => ?_⟩
        · rw [(below_iff_of_none hprevious).1 hq]
          exact ⟨_, _, hself, (halive _ _ _).2 (.inr ⟨rfl, rfl, rfl⟩)⟩
        rcases (halive _ _ _).1 ha with ha | ⟨rfl, -, -⟩
        · exact absurd ⟨tx, reservation, ha⟩ (h.unowned _ hp)
        · exact ⟨r, hself, .inl .refl⟩
      | some r0 =>
        rw [hp] at hprevious
        have hheads := h.heads _ r0 hp
        have holder : ∀ a < s.p.allocated, ∀ b, (s.p.ticket a).previous = some b → b < a :=
          fun a ha b hb => (h.older a ha b hb).1
        have hto : ∀ {q}, Below s.p.ticket r0 q → Below s'.p.ticket r q := fun {q} hq =>
          (below_iff_of_some hprevious).2 (.inr (hq.of_agree (fun a ha => by rw [hold a ha])
            holder hheads.allocated).1)
        have hfrom : ∀ {q}, Below s'.p.ticket r0 q → Below s.p.ticket r0 q ∧ q < s.p.allocated :=
          fun {q} hq => hq.of_agree (fun a ha => by rw [hold a ha])
            (fun a ha b hb => holder a ha b (hold a ha ▸ hb)) hheads.allocated
        refine ⟨hr, hkey, hlive, fun q hq hq' => ?_, fun tx reservation ha => ?_⟩
        · rcases (below_iff_of_some hprevious).1 hq with rfl | hq
          · exact ⟨_, _, hself, (halive _ _ _).2 (.inr ⟨rfl, rfl, rfl⟩)⟩
          · obtain ⟨hq, hlt⟩ := hfrom hq
            rw [hold q hlt] at hq'
            obtain ⟨tx, reservation, hcbq, ha⟩ := hheads.carried q hq hq'
            exact ⟨tx, reservation, hx.carrier hcbq, (halive _ _ _).2 (.inl ha)⟩
        · rcases (halive _ _ _).1 ha with ha | ⟨rfl, -, -⟩
          · obtain ⟨q, hcbq, hq⟩ := hheads.found tx reservation ha
            exact ⟨q, hx.carrier hcbq, hq.imp hto fun ⟨b, hb, hs⟩ => ⟨b, hto hb, hx.settled hs⟩⟩
          · exact ⟨r, hself, .inl .refl⟩
    next hne =>
      refine (h.heads key' r' hr').frame h.toTidy hx hallocated (fun q hq _ => hold q hq)
        fun tx reservation => ?_
      rw [halive, or_iff_left fun hk => hne hk.2.1]
  · intro key' q hq
    rw [hreserved] at hq
    rw [hpending, GoMap.lookup_insert_eq]
    split
    next hk =>
      rw [hk] at hq
      refine .inr ⟨s.callbacks.length, key, ?_⟩
      rw [hlog, hq]
      exact mem_snoc.2 (.inr rfl)
    · exact hx.unused id (h.unused key' q hq)

theorem Sound.beginWrite (h : Sound s) {b : Bytes} (hfirst : s.FirstUse (.beginWrite b)) :
    Sound (s.apply (.beginWrite b)) := by
  unfold apply begunEvent PendingRequests.beginWrite
  dsimp only
  cases hb : publicationHeader b with
  | none =>
    simp only [List.append_nil]
    exact h.malformed
  | some hd =>
    dsimp only
    have hkey : ∀ r, s.p.reserved.lookup (keyForRequest hd) = some r →
        r < s.p.allocated ∧ (s.p.ticket r).key = keyForRequest hd ∧
          (s.p.ticket r).previous = none := fun r hr => h.prepared _ r (h.reserved _ r hr)
    cases hclosing : s.p.closing with
    | true =>
      rw [if_pos rfl]
      exact h.refused rfl rfl rfl (.inl hclosing)
    | false =>
      rw [if_neg Bool.false_ne_true]
      cases hr : s.p.reserved.lookup (keyForRequest hd) with
      | some r =>
        dsimp only
        cases hc : (s.p.ticket r).cancelled with
        | true =>
          rw [if_pos rfl, ← hr]
          exact h.refused rfl rfl rfl (.inr ⟨r, hr, hc⟩)
        | false =>
          rw [if_neg Bool.false_ne_true]
          obtain ⟨hlt, hk, hprevious⟩ := hkey r hr
          have hunused := hfirst hd r hb hr hclosing hc
          have hnone : s.p.pending.lookup (keyForRequest hd) = none :=
            (h.unused _ r hr).resolve_right fun ⟨tx, key, hmem⟩ => hunused tx key hmem
          have hfree : ∀ tx : Nat, s.callbacks[tx]? ≠ some (some r) := by
            intro tx hcb
            obtain ⟨-, reservation, hbegun, hres, -⟩ := h.carrier tx r hcb
            rcases hres with rfl | ⟨-, hnot⟩
            · exact hunused _ _ hbegun
            · exact hnot _ (h.reserved _ r hr)
          have hf : (s.p.ticket r).failed = false := by
            by_contra hf
            obtain ⟨tx, hcb⟩ := h.failed r hlt (by simpa using hf)
            exact hfree tx hcb
          rw [own_unowned hprevious (by rw [hk, hnone]), hk]
          refine h.admitted (by rw [hr]) rfl (h.toTidy.begin (by rw [hr]) rfl rfl rfl le_rfl (fun _ _ => rfl)
            (fun q hq hq' => absurd hq' (by simpa using hq)) ?_) rfl rfl le_rfl (fun _ _ => rfl) hlt
            hk (by rw [hnone]; exact hprevious) hclosing (by simp [Spent, hf, hc]) ?_
          · rintro q heq
            cases heq
            exact ⟨hlt, hk, hf, .inl hr, hfree⟩
          · intro q hq
            rw [hr] at hq
            cases hq
            exact hc
      | none =>
        dsimp only
        have hne : s.p.pending.lookup (keyForRequest hd) ≠ some s.p.allocated := fun hp =>
          absurd (h.heads _ _ hp).allocated (lt_irrefl _)
        rw [own_allocated hne, ← hr]
        have hself : ∀ t, (s.p.allocate t).ticket s.p.allocated = t := fun t =>
          Function.update_self ..
        have hold : ∀ t, ∀ q < s.p.allocated, (s.p.allocate t).ticket q = s.p.ticket q :=
          fun t q hq => Function.update_of_ne (by omega) _ _
        refine h.admitted rfl rfl (h.toTidy.begin rfl rfl rfl rfl (Nat.le_succ _) (hold _) ?_ ?_)
          rfl rfl (Nat.le_succ _) (hold _) (Nat.lt_succ_self _) ?_ ?_ hclosing ?_ ?_
        · intro q hq hq'
          obtain rfl : q = s.p.allocated := Nat.le_antisymm (Nat.lt_succ_iff.1 hq') hq
          dsimp only
          rw [hself]
          refine ⟨rfl, rfl, fun a ha => ?_⟩
          exact ⟨(h.heads _ _ ha).allocated, (h.heads _ _ ha).ofKey⟩
        · rintro q heq
          cases heq
          dsimp only
          rw [hself]
          refine ⟨Nat.lt_succ_self _, rfl, rfl, .inr ⟨hr, le_rfl⟩, fun tx hcb => ?_⟩
          exact absurd (h.carrier tx _ hcb).1 (lt_irrefl _)
        · dsimp only
          rw [hself]
        · dsimp only
          rw [hself]
        · dsimp only
          rw [hself]
          simp [Spent]
        · intro q hq
          rw [hr] at hq
          cases hq

theorem Sound.carried (h : Sound s) {reservation : Option Nat}
    (ha : Alive s.log key tx reservation) : ∃ q, s.callbacks[tx]? = some (some q) := by
  cases hp : s.p.pending.lookup key with
  | none => exact absurd ⟨tx, reservation, ha⟩ (h.unowned key hp)
  | some r =>
    obtain ⟨q, hq, -⟩ := (h.heads key r hp).found tx reservation ha
    exact ⟨q, hq⟩

theorem Sound.outcome_unheard (h : Sound s) {written : Bool}
    (hposs : s.Possible (.outcome tx written)) (hcb : ∀ r, s.callbacks[tx]? ≠ some (some r)) :
    Sound { s with log := s.log ++ [.reported tx written] } := by
  have halive : ∀ key tx' reservation, Alive (s.log ++ [.reported tx written]) key tx' reservation ↔
      Alive s.log key tx' reservation := by
    intro key tx' reservation
    rw [alive_snoc_of_begun (by nofun)]
    refine and_iff_left_of_imp fun ha => ⟨nofun, fun heq => ?_, fun _ _ => nofun⟩
    cases heq
    obtain ⟨q, hq⟩ := h.carried ha
    exact hcb q hq
  have htidy : Tidy { s with log := s.log ++ [.reported tx written] } :=
    h.toTidy.mark rfl rfl rfl rfl nofun nofun (by rintro _ _ ⟨⟩; exact hposs) nofun (by simp)
      (fun _ => rfl) (fun _ _ ha => ha) (by simp) fun q => by simpa using fun _ hc => absurd hc (hcb q)
  exact h.frame htidy (.logged rfl rfl) rfl le_rfl (fun _ _ => rfl) halive fun _ _ => .inl

theorem Sound.outcome_written (h : Sound s) {r : Nat}
    (hposs : s.Possible (.outcome tx true)) (hcb : s.callbacks[tx]? = some (some r)) :
    Sound { s with p := s.p.outcome r true, log := s.log ++ [.reported tx true] } := by
  obtain ⟨hlt, reservation, hbegun, hres, -⟩ := h.carrier tx r hcb
  have hp : s.p.outcome r true = s.p.setTicket r { s.p.ticket r with previous := none } := rfl
  have halive : ∀ key tx' reservation, Alive (s.log ++ [.reported tx true]) key tx' reservation ↔
      Alive s.log key tx' reservation := fun _ _ _ => alive_snoc_of_ne nofun nofun nofun nofun
  have hx : s.Extends { s with p := s.p.outcome r true, log := s.log ++ [.reported tx true] } :=
    .logged rfl rfl
  have hflags : ∀ q, ((s.p.outcome r true).ticket q).key = (s.p.ticket q).key ∧
      ((s.p.outcome r true).ticket q).cancelled = (s.p.ticket q).cancelled ∧
      ((s.p.outcome r true).ticket q).failed = (s.p.ticket q).failed := fun q =>
    ⟨update_field (·.key) (by rfl) q, update_field (·.cancelled) (by rfl) q,
      update_field (·.failed) (by rfl) q⟩
  have hcut : ∀ {a q}, Below (s.p.outcome r true).ticket a q → Below s.p.ticket a q :=
    fun hq => Below.of_cut (a := r) hq
  have hspent : ∀ q, Spent ((s.p.outcome r true).ticket q) ↔ Spent (s.p.ticket q) := by
    intro q
    unfold Spent
    rw [(hflags q).2.1, (hflags q).2.2]
  have htidy : Tidy { s with p := s.p.outcome r true, log := s.log ++ [.reported tx true] } := by
    refine h.toTidy.mark rfl rfl rfl rfl nofun nofun (by rintro _ _ ⟨⟩; exact hposs) nofun
      (by simp [hp, setTicket]) (fun q => (hflags q).1) (fun q a ha => ?_) (fun q => ?_) fun q => ?_
    · by_cases hq : q = r
      · rw [hq, hp] at ha
        unfold setTicket at ha
        dsimp only at ha
        rw [Function.update_self] at ha
        cases ha
      · rw [hp] at ha
        unfold setTicket at ha
        dsimp only at ha
        rwa [Function.update_of_ne hq] at ha
    · simp [(hflags q).2.1]
    · simp [(hflags q).2.2]
  refine { htidy with unowned := ?_, heads := ?_, unused := ?_ }
  · rintro key hnone ⟨tx', reservation, ha⟩
    exact h.unowned key hnone ⟨tx', reservation, (halive _ _ _).1 ha⟩
  · intro key a ha
    have hheads := h.heads key a ha
    rcases hres with rfl | ⟨rfl, -⟩
    · -- A reserved ticket has nothing below it to let go of.
      obtain ⟨key', hkey⟩ := h.begunPrepared _ _ _ hbegun
      have hprevious := (h.prepared key' r hkey).2.2
      have hsame : s.p.outcome r true = s.p := by
        rw [hp, ← hprevious]
        unfold setTicket
        rw [Function.update_eq_self]
      rw [hsame]
      exact hheads.frame h.toTidy (.logged rfl rfl) le_rfl (fun _ _ _ => rfl) (halive key)
    · have hsettled : Settled { s with
          p := s.p.outcome r true, log := s.log ++ [.reported tx true] } r :=
        ⟨tx, _, hcb, hx.log.subset hbegun, mem_snoc.2 (.inr rfl)⟩
      refine ⟨hheads.allocated, (hflags a).1.trans hheads.ofKey,
        fun hs => hheads.live ((hspent a).1 hs), fun q hq hlive => ?_, fun tx' reservation ha => ?_⟩
      · obtain ⟨tx', reservation, hq', ha⟩ := hheads.carried q (hcut hq)
          fun hs => hlive ((hspent q).2 hs)
        exact ⟨tx', reservation, hq', (halive _ _ _).2 ha⟩
      · obtain ⟨q, hq, hbelow⟩ := hheads.found tx' reservation ((halive _ _ _).1 ha)
        refine ⟨q, hq, ?_⟩
        rcases hbelow with hbelow | ⟨b, hbelow, hs⟩
        · exact (hbelow.cut (a := r)).imp_right fun hr => ⟨r, hr, hsettled⟩
        rcases hbelow.cut (a := r) with hbelow | hr
        · exact .inr ⟨b, hbelow, hx.settled hs⟩
        · exact .inr ⟨r, hr, hsettled⟩
  · intro key q hq
    exact hx.unused id (h.unused key q hq)

/-- The chain of a key after its ticket `r` was spent. What the other tickets carry is as alive as
before, and a survivor takes the place of `r` at its head. -/
theorem Heads.spend {a r : Nat} (h : Tidy s) (h' : Tidy s')
    (hh : s.Heads key a) (hx : s.Extends s') (hspends : Spends s.p s'.p r)
    (halive : ∀ tx reservation, Alive s'.log key tx reservation ↔
      Alive s.log key tx reservation ∧ s.callbacks[tx]? ≠ some (some r))
    {b : Nat} (hb : Below s.p.ticket a b) (hlive : ¬ Spent (s'.p.ticket b))
    (hrest : ∀ q, Below s.p.ticket a q → Spent (s'.p.ticket q) ∨ Below s.p.ticket b q) :
    s'.Heads key b := by
  have hbelow : ∀ {c q}, Below s'.p.ticket c q ↔ Below s.p.ticket c q :=
    below_congr hspends.previous
  obtain ⟨hlt, hk⟩ := h.below hh.allocated hb
  refine ⟨hspends.allocated ▸ hlt, ?_, hlive, fun q hq hq' => ?_, fun tx reservation ha => ?_⟩
  · rw [hspends.key, hk, hh.ofKey]
  · have hq'' := mt (hspends.spent q).2 hq'
    rw [not_or] at hq''
    obtain ⟨tx, reservation, hcb, ha⟩ := hh.carried q (hb.trans (hbelow.1 hq)) hq''.1
    refine ⟨tx, reservation, hx.carrier hcb, (halive tx reservation).2 ⟨ha, ?_⟩⟩
    rw [hcb]
    simpa using hq''.2
  · obtain ⟨q, hcb, hq⟩ := hh.found tx reservation ((halive tx reservation).1 ha).1
    refine ⟨q, hx.carrier hcb, hq.imp (fun hq => ?_) fun ⟨c, hc, hsettled⟩ => ?_⟩
    · rcases hrest q hq with hs | hq
      · exact absurd hs (h'.not_spent_of_alive (hx.carrier hcb) ha)
      · exact hbelow.2 hq
    · rcases hrest c hc with hs | hc
      · exact absurd hs (h'.not_spent_of_settled (hx.settled hsettled))
      · exact ⟨c, hbelow.2 hc, hx.settled hsettled⟩

theorem Heads.spend_all {a : Nat} (h' : Tidy s') (hh : s.Heads key a) (hx : s.Extends s')
    (halive : ∀ tx reservation, Alive s'.log key tx reservation → Alive s.log key tx reservation)
    (hspent : ∀ q, Below s.p.ticket a q → Spent (s'.p.ticket q)) : ¬ OwnedBy s'.log key := by
  rintro ⟨tx, reservation, ha⟩
  obtain ⟨q, hcb, hq⟩ := hh.found tx reservation (halive tx reservation ha)
  rcases hq with hq | ⟨c, hc, hsettled⟩
  · exact h'.not_spent_of_alive (hx.carrier hcb) ha (hspent q hq)
  · exact h'.not_spent_of_settled (hx.settled hsettled) (hspent c hc)

theorem Sound.spend (h : Sound s) (htidy : Tidy s') (hx : s.Extends s')
    (hspends : Spends s.p s'.p r)
    (halive : ∀ key tx reservation, Alive s'.log key tx reservation ↔
      Alive s.log key tx reservation ∧ s.callbacks[tx]? ≠ some (some r)) : Sound s' := by
  have hcongr : ∀ {c q}, Below s'.p.ticket c q ↔ Below s.p.ticket c q :=
    below_congr hspends.previous
  -- What is left of the chain of `r`.
  have hrest : ∀ key, s.p.pending.lookup key = some r →
      Leaves s'.p.ticket r (survivor s'.p.ticket s.p.allocated (s.p.ticket r).previous) := by
    intro key hkey
    have hlt := (h.heads key r hkey).allocated
    have hspent : Spent (s'.p.ticket r) := (hspends.spent r).2 (.inr rfl)
    have hspec := survivor_spec (fun a ha b hb => (h.older a ha b (hspends.previous a ▸ hb)).1) hlt
      (Nat.lt_succ_of_lt hlt)
    rwa [survivor, if_pos (by simpa [Spent] using hspent), hspends.previous] at hspec
  refine { htidy with unowned := ?_, heads := ?_, unused := ?_ }
  · intro key hnone
    rw [hspends.lookup] at hnone
    split at hnone
    next hown =>
      have hrest := hrest key hown.2
      rw [hnone] at hrest
      exact (h.heads key r hown.2).spend_all htidy hx
        (fun _ _ ha => ((halive _ _ _).1 ha).1) fun q hq => hrest q (hcongr.2 hq)
    · rintro ⟨tx, reservation, ha⟩
      exact h.unowned key hnone ⟨tx, reservation, ((halive _ _ _).1 ha).1⟩
  · intro key a ha
    rw [hspends.lookup] at ha
    split at ha
    next hown =>
      have hrest := hrest key hown.2
      rw [ha] at hrest
      obtain ⟨hbelow, hlive, hall⟩ := hrest
      exact (h.heads key r hown.2).spend h.toTidy htidy hx hspends (halive key)
        (hcongr.1 hbelow) hlive fun q hq => (hall q (hcongr.2 hq)).imp_right hcongr.1
    next hown =>
      have hheads := h.heads key a ha
      have hne : a ≠ r := by
        rintro rfl
        exact hown ⟨hheads.ofKey.symm, ha⟩
      exact hheads.spend h.toTidy htidy hx hspends (halive key) .refl
        (fun hs => ((hspends.spent a).1 hs).elim hheads.live hne) fun q hq => .inr hq
  · intro key q hq
    rw [hspends.reserved] at hq
    refine hx.unused (fun hnone => ?_) (h.unused key q hq)
    rw [hspends.lookup, hnone]
    simp

theorem Sound.outcome_failed (h : Sound s) {r : Nat}
    (hposs : s.Possible (.outcome tx false)) (hcb : s.callbacks[tx]? = some (some r)) :
    Sound { s with p := s.p.outcome r false, log := s.log ++ [.reported tx false] } := by
  have hspends := spends_outcome s.p r
  have hsame : ∀ q, s.callbacks[tx]? = some (some q) ↔ q = r := fun q => by
    rw [hcb]
    simp [eq_comm]
  have htidy : Tidy { s with p := s.p.outcome r false, log := s.log ++ [.reported tx false] } :=
    h.toTidy.mark rfl rfl hspends.reserved hspends.allocated nofun nofun
      (by rintro _ _ ⟨⟩; exact hposs) nofun (by rw [outcome_false_eq]; simp) hspends.key
      (fun q a ha => hspends.previous q ▸ ha)
      (fun q => by rw [outcome_false_eq]; simp [update_field (·.cancelled)])
      fun q => by rw [outcome_false_eq]; simp [update_mark (·.failed = true), hsame]
  refine h.spend htidy (.logged rfl rfl) hspends fun key tx' reservation => ?_
  show Alive (s.log ++ [.reported tx false]) key tx' reservation ↔ _
  rw [alive_snoc_of_begun (by nofun)]
  refine and_congr_right fun _ => ⟨fun hne hcb' => ?_, fun hne => ⟨nofun, fun heq => ?_, ?_⟩⟩
  · rw [h.carrierOnce tx' tx r hcb' hcb] at hne
    exact hne.2.1 rfl
  · cases heq
    exact hne hcb
  · exact fun _ _ => nofun

theorem Sound.outcome (h : Sound s) {written : Bool}
    (hposs : s.Possible (.outcome tx written)) : Sound (s.apply (.outcome tx written)) := by
  unfold apply
  dsimp only
  split
  next r hcb =>
    cases written with
    | true => exact h.outcome_written hposs hcb
    | false => exact h.outcome_failed hposs hcb
  next hcb => exact h.outcome_unheard hposs hcb

theorem Sound.cancel (h : Sound s) (hposs : s.Possible (.cancel r)) :
    Sound (s.apply (.cancel r)) := by
  obtain ⟨key0, hprepared⟩ := hposs
  have hspends := spends_cancel (h.prepared key0 r hprepared).2.2
  have htidy : Tidy { s with p := s.p.cancel r, log := s.log ++ [.cancelled r] } :=
    h.toTidy.mark rfl rfl hspends.reserved hspends.allocated nofun nofun nofun
      (by rintro _ ⟨⟩; exact ⟨key0, hprepared⟩) (by rw [cancel_eq]; simp) hspends.key
      (fun q a ha => hspends.previous q ▸ ha)
      (fun q => by rw [cancel_eq]; simp [update_mark (·.cancelled = true)])
      fun q => by rw [cancel_eq]; simp [update_field (·.failed)]
  refine h.spend htidy (.logged rfl rfl) hspends fun key tx reservation => ?_
  show Alive (s.log ++ [.cancelled r]) key tx reservation ↔ _
  rw [alive_snoc_of_begun (by nofun)]
  refine and_congr_right fun ha => ?_
  -- The transmission of a reserved ticket is the one with that reservation.
  have hreservation : s.callbacks[tx]? = some (some r) ↔ reservation = some r := by
    obtain ⟨q, hq⟩ := h.carried ha
    obtain ⟨-, reservation', hbegun, hres, -⟩ := h.carrier tx q hq
    obtain ⟨-, rfl⟩ := h.begunOnce _ _ _ _ _ ha.mem hbegun
    rw [hq, Option.some.injEq]
    rcases hres with rfl | ⟨rfl, hnot⟩
    · rfl
    refine ⟨fun heq => ?_, nofun⟩
    cases heq
    exact absurd hprepared (hnot key0)
  refine Iff.trans ?_ (not_congr hreservation).symm
  refine ⟨fun hne heq => hne.2.2 r heq rfl, fun hne => ⟨nofun, nofun, fun q hq heq => hne ?_⟩⟩
  cases heq
  exact hq

theorem Sound.release (h : Sound s) (r : Nat) : Sound (s.apply (.release r)) := by
  have hp := release_eq s.p r
  have htidy : Tidy (s.apply (.release r)) := by
    show Tidy { s with p := s.p.release r }
    rw [hp]
    exact { h.toTidy with reserved := fun key q hq => h.reserved key q (release_reserved hq) }
  have hticket : (s.p.release r).ticket = s.p.ticket := by rw [hp]
  exact h.frame htidy ⟨List.prefix_rfl, List.prefix_rfl⟩
    (by show (s.p.release r).pending = _; rw [hp])
    (by show _ ≤ (s.p.release r).allocated; rw [hp]) (fun q _ => congrFun hticket q)
    (fun _ _ _ => Iff.rfl) fun key q hq => .inl (release_reserved hq)

theorem Sound.closeAdmission (h : Sound s) : Sound (s.apply .closeAdmission) :=
  h.frame
    (h.toTidy.mark rfl rfl rfl rfl nofun nofun nofun nofun
      (by simp [apply, PendingRequests.closeAdmission]) (fun _ => rfl) (fun _ _ => id)
      (fun _ => (or_iff_left nofun).symm) fun _ => (or_iff_left nofun).symm)
    (.logged rfl rfl) rfl le_rfl (fun _ _ => rfl)
    (fun _ _ _ => alive_snoc_of_ne nofun nofun nofun nofun) fun _ _ => .inl

theorem Sound.consume (h : Sound s) (key : RequestKey) :
    Sound { s with
      p := { s.p with pending := s.p.pending.erase key }
      log := s.log ++ [.consumed key] } := by
  have halive : ∀ key' tx reservation, Alive (s.log ++ [.consumed key]) key' tx reservation ↔
      Alive s.log key' tx reservation ∧ key' ≠ key := by
    intro key' tx reservation
    rw [alive_snoc_of_begun (by nofun)]
    simp [eq_comm]
  have hx : s.Extends { s with
      p := { s.p with pending := s.p.pending.erase key }
      log := s.log ++ [.consumed key] } := .logged rfl rfl
  have htidy : Tidy { s with
      p := { s.p with pending := s.p.pending.erase key }
      log := s.log ++ [.consumed key] } :=
    h.toTidy.mark rfl rfl rfl rfl nofun nofun nofun nofun (by simp) (fun _ => rfl)
      (fun _ _ ha => ha) (by simp) (by simp)
  refine { htidy with unowned := ?_, heads := ?_, unused := ?_ }
  · rintro key' hnone ⟨tx, reservation, ha⟩
    obtain ⟨ha, hne⟩ := (halive _ _ _).1 ha
    dsimp only at hnone
    rw [GoMap.lookup_erase_eq, if_neg hne] at hnone
    exact h.unowned key' hnone ⟨tx, reservation, ha⟩
  · intro key' r hr
    dsimp only at hr
    rw [GoMap.lookup_erase_eq] at hr
    split at hr
    · cases hr
    rename_i hne
    exact (h.heads key' r hr).frame h.toTidy hx le_rfl (fun _ _ _ => rfl)
      fun tx reservation => by rw [halive, and_iff_left hne]
  · intro key' r hr
    dsimp only
    rw [GoMap.lookup_erase_eq]
    split
    · exact .inl rfl
    · exact hx.unused id (h.unused key' r hr)

theorem Sound.matchAnswer (h : Sound s) (hd : Option Header) :
    Sound (s.apply (.matchAnswer hd)) := by
  unfold apply consumedEvent PendingRequests.matchAnswer
  cases hd with
  | none => simpa using h
  | some hd =>
    dsimp only
    split
    · simpa using h
    cases hp : s.p.pending.lookup (keyForRequest hd) with
    | none => simpa [hp] using h
    | some r => simpa [hp] using h.consume (keyForRequest hd)

end
end System

/-- Calls that keep to the contract and use a reservation once keep the invariant. -/
theorem System.Sound.apply (h : Sound s) {c : Call} (hposs : s.Possible c) (hdisc : s.Disciplined c)
    (hfirst : s.FirstUse c) : Sound (s.apply c) := by
  cases c with
  | prepareWrite hd => exact h.prepareWrite hdisc
  | beginWrite b => exact h.beginWrite hfirst
  | outcome tx written => exact h.outcome hposs
  | cancel r => exact h.cancel hposs
  | release r => exact h.release r
  | matchAnswer hd => exact h.matchAnswer hd
  | closeAdmission => exact h.closeAdmission

theorem System.Reached.sound
    (h : Reached (fun s c => s.Possible c ∧ s.Disciplined c ∧ s.FirstUse c) s) : Sound s := by
  induction h with
  | start => exact Sound.start
  | call _ hc ih => exact ih.apply hc.1 hc.2.1 hc.2.2

theorem System.Sound.owns_iff (h : Sound s) (key : RequestKey) :
    s.p.Owns key ↔ OwnedBy s.log key := by
  unfold Owns
  cases hp : s.p.pending.lookup key with
  | none => simpa using h.unowned key hp
  | some r =>
    have hheads := h.heads key r hp
    obtain ⟨tx, reservation, -, ha⟩ := hheads.carried r .refl hheads.live
    exact iff_of_true rfl ⟨tx, reservation, ha⟩

/-! ## What becomes owned -/

/-- The reservations are under the keys of their tickets. -/
def Keyed (p : PendingRequests) : Prop :=
  ∀ key r, p.reserved.lookup key = some r → r < p.allocated ∧ (p.ticket r).key = key

/-- What a call leaves of the tickets there are. -/
structure Keeps (p q : PendingRequests) : Prop where
  closing : p.closing = true → q.closing = true
  allocated : p.allocated ≤ q.allocated
  key : ∀ r < p.allocated, (q.ticket r).key = (p.ticket r).key
  reserved : ∀ key r, q.reserved.lookup key = some r →
    p.reserved.lookup key = some r ∨ r < q.allocated ∧ (q.ticket r).key = key

theorem Keyed.keep (h : Keyed p) (hq : Keeps p q) : Keyed q := by
  intro key r hr
  rcases hq.reserved key r hr with hr | hnew
  · obtain ⟨hlt, hk⟩ := h key r hr
    exact ⟨hlt.trans_le hq.allocated, (hq.key r hlt).trans hk⟩
  · exact hnew

section

theorem Keeps.of_key (hclosing : p.closing = true → q.closing = true)
    (hallocated : q.allocated = p.allocated)
    (hreserved : ∀ key r, q.reserved.lookup key = some r → p.reserved.lookup key = some r)
    (hkey : ∀ r, (q.ticket r).key = (p.ticket r).key) : Keeps p q :=
  ⟨hclosing, hallocated.ge, fun r _ => hkey r, fun key r hr => .inl (hreserved key r hr)⟩

theorem Keeps.refl : Keeps p p := .of_key id rfl (fun _ _ => id) fun _ => rfl

theorem allocate_key (t : RequestWrite) (hr : r < p.allocated) :
    ((p.allocate t).ticket r).key = (p.ticket r).key := by
  show (Function.update p.ticket p.allocated t r).key = _
  rw [Function.update_of_ne (by omega)]

theorem Keeps.own (h : Keeps p q) (r : Nat) : Keeps p (q.own r) := by
  have hown : Keeps q (q.own r) := by
    unfold PendingRequests.own
    dsimp only
    split
    · exact .of_key id rfl (fun _ _ => id) fun _ => rfl
    · exact .of_key id rfl (fun _ _ => id) fun a => update_field _ (by rfl) a
  refine ⟨hown.closing ∘ h.closing, h.allocated.trans hown.allocated, fun a ha => ?_,
    fun key a ha => ?_⟩
  · rw [hown.key a (ha.trans_le h.allocated), h.key a ha]
  rcases hown.reserved key a ha with ha | hnew
  · refine (h.reserved key a ha).imp_right fun ⟨hlt, hk⟩ => ⟨hlt.trans_le hown.allocated, ?_⟩
    rw [hown.key a hlt, hk]
  · exact .inr hnew

end

theorem apply_outcome_cases (s : System) (tx : Nat) (written : Bool) :
    (s.apply (.outcome tx written)).p = s.p ∨
      ∃ r, (s.apply (.outcome tx written)).p = s.p.outcome r written := by
  unfold System.apply
  dsimp only
  split
  · exact .inr ⟨_, rfl⟩
  · exact .inl rfl

theorem keeps_apply (s : System) (c : Call) : Keeps s.p (s.apply c).p := by
  cases c with
  | prepareWrite hd =>
    refine ⟨id, Nat.le_succ _, fun r hr => allocate_key _ hr, fun key r hr => ?_⟩
    replace hr : (s.p.reserved.insert (keyForRequest hd) s.p.allocated).lookup key = some r := hr
    rw [GoMap.lookup_insert_eq] at hr
    split at hr
    next hk =>
      cases hr
      refine .inr ⟨Nat.lt_succ_self _, ?_⟩
      show (Function.update s.p.ticket s.p.allocated _ s.p.allocated).key = _
      rw [Function.update_self, hk]
    · exact .inl hr
  | beginWrite b =>
    show Keeps s.p (s.p.beginWrite b).1
    rcases beginWrite_cases s.p b with hp | ⟨-, hd, q, r, -, hp, ⟨rfl, -⟩ | ⟨rfl, rfl⟩⟩
    · rw [hp]
      exact .refl
    · rw [hp]
      exact Keeps.refl.own r
    rw [hp]
    refine .own ?_ _
    exact ⟨id, Nat.le_succ _, fun r hr => allocate_key _ hr, fun _ _ => .inl⟩
  | outcome tx written =>
    rcases apply_outcome_cases s tx written with hp | ⟨r, hp⟩
    · rw [hp]
      exact .refl
    rw [hp]
    cases written with
    | true => exact .of_key id rfl (fun _ _ => id) fun q => update_field _ (by rfl) q
    | false =>
      rw [outcome_false_eq]
      exact .of_key id rfl (fun _ _ => id) fun q => update_field _ (by rfl) q
  | cancel r =>
    show Keeps s.p (s.p.cancel r)
    rw [cancel_eq]
    exact .of_key id rfl (fun _ _ => id) fun q => update_field _ (by rfl) q
  | release r =>
    refine .of_key ?_ ?_ (fun _ _ => release_reserved) ?_
    all_goals
      show _
      simp only [System.apply]
      rw [release_eq]
    · exact id
    · exact fun _ => rfl
  | matchAnswer hd =>
    show Keeps s.p (s.p.matchAnswer hd true).1
    rw [matchAnswer_eq]
    exact .of_key id rfl (fun _ _ => id) fun _ => rfl
  | closeAdmission => exact .of_key (fun _ => rfl) rfl (fun _ _ => id) fun _ => rfl

theorem owns_of_own (h : (p.own r).Owns key) :
    p.Owns key ∨ key = (p.ticket r).key := by
  have hp : (p.own r).pending = p.pending.insert (p.ticket r).key r := by
    unfold PendingRequests.own
    dsimp only
    split <;> rfl
  unfold Owns at h
  rw [hp, GoMap.lookup_insert_eq] at h
  split at h
  next hk => exact .inr hk
  · exact .inl h

theorem owns_of_yield {next : Option Nat} (hq : q.pending = p.yield r next)
    (h : q.Owns key) : p.Owns key := by
  unfold Owns at h ⊢
  rw [hq, lookup_yield] at h
  split at h
  next hown =>
    rw [hown.2]
    rfl
  · exact h

/-- Nothing but a `BeginWrite` before closing makes a key owned. -/
theorem owns_of_apply (hkeyed : Keyed s.p) {c : Call} (h : (s.apply c).p.Owns key) :
    s.p.Owns key ∨ s.p.closing = false ∧
      ∃ b hd, c = .beginWrite b ∧ publicationHeader b = some hd ∧ keyForRequest hd = key := by
  cases c with
  | prepareWrite hd => exact .inl h
  | beginWrite b =>
    replace h : (s.p.beginWrite b).1.Owns key := h
    rcases beginWrite_cases s.p b with hp | ⟨hopen, hd, q, r, hb, hp, hq⟩
    · exact .inl (hp ▸ h)
    rw [hp] at h
    rcases hq with ⟨rfl, hr⟩ | ⟨rfl, rfl⟩
    · refine (owns_of_own h).imp_right fun hk => ⟨hopen, b, hd, rfl, hb, ?_⟩
      rw [hk, (hkeyed _ r hr).2]
    refine (owns_of_own h).imp_right fun hk => ⟨hopen, b, hd, rfl, hb, ?_⟩
    rw [hk]
    show _ = (Function.update s.p.ticket s.p.allocated _ s.p.allocated).key
    rw [Function.update_self]
  | outcome tx written =>
    left
    rcases apply_outcome_cases s tx written with hp | ⟨r, hp⟩
    · exact hp ▸ h
    rw [hp] at h
    cases written with
    | true => exact h
    | false => exact owns_of_yield (outcome_false_pending s.p _) h
  | cancel r => exact .inl (owns_of_yield (cancel_pending s.p r) h)
  | release r =>
    replace h : (s.p.release r).Owns key := h
    rw [release_eq] at h
    exact .inl h
  | matchAnswer hd =>
    left
    replace h : (s.p.matchAnswer hd true).1.Owns key := h
    unfold PendingRequests.matchAnswer at h
    split at h
    · exact h
    split at h
    · exact h
    split at h
    · exact h
    · exact GoMap.isSome_of_erase h
  | closeAdmission => exact .inl h

theorem owns_of_run_closing {calls : List Call} (hkeyed : Keyed s.p) (hclosing : s.p.closing = true)
    (h : (s.run calls).p.Owns key) : s.p.Owns key := by
  induction calls generalizing s with
  | nil => exact h
  | cons c calls ih =>
    have howns := ih (hkeyed.keep (keeps_apply s c)) ((keeps_apply s c).closing hclosing) h
    refine (owns_of_apply hkeyed howns).resolve_right fun hopen => ?_
    rw [hclosing] at hopen
    cases hopen.1

theorem not_owns_run {calls : List Call} (hkeyed : Keyed s.p)
    (hcalls : ∀ b hd, .beginWrite b ∈ calls → publicationHeader b = some hd →
      keyForRequest hd ≠ key) (h : ¬ s.p.Owns key) : ¬ (s.run calls).p.Owns key := by
  induction calls generalizing s with
  | nil => exact h
  | cons c calls ih =>
    refine ih (hkeyed.keep (keeps_apply s c))
      (fun b hd hb => hcalls b hd (List.mem_cons_of_mem _ hb)) fun howns => ?_
    rcases owns_of_apply hkeyed howns with howns | ⟨-, b, hd, rfl, hb, hk⟩
    · exact h howns
    · exact hcalls b hd List.mem_cons_self hb hk

theorem not_owns_matchAnswer {hd : Header} (hanswer : hd.commandFlags &&& requestFlag = 0) :
    ¬ (s.apply (.matchAnswer (some hd))).p.Owns (keyForRequest hd) := by
  show ¬ (s.p.matchAnswer (some hd) true).1.Owns (keyForRequest hd)
  unfold PendingRequests.matchAnswer
  dsimp only
  rw [if_neg (not_not_intro hanswer)]
  split
  next hp => simp [Owns, hp]
  · simp [Owns]

/-- Whatever the order of the calls, as long as no reserved ticket carries a second transmission:
an answer is matched exactly when some transmission of its request was begun since the key was last
consumed and before closing, has not reported failure, and was not cancelled. After closing the
owned keys only become fewer, and a consumed key is owned again only after a new `BeginWrite`. -/
theorem owns_iff_alive {s : System}
    (h : System.Reached (fun s c => s.Possible c ∧ s.Disciplined c ∧ s.FirstUse c) s) :
    (∀ hd : Header, hd.commandFlags &&& requestFlag = 0 → ∀ consume,
      (s.p.matchAnswer (some hd) consume).2 = true ↔ OwnedBy s.log (keyForRequest hd)) ∧
    (s.p.closing = true → ∀ calls key, (s.run calls).p.Owns key → s.p.Owns key) ∧
    ∀ hd : Header, hd.commandFlags &&& requestFlag = 0 → ∀ calls,
      (∀ b hd', .beginWrite b ∈ calls → publicationHeader b = some hd' →
        keyForRequest hd' ≠ keyForRequest hd) →
      ¬ ((s.apply (.matchAnswer (some hd))).run calls).p.Owns (keyForRequest hd) := by
  have hsound := h.sound
  have hkeyed : Keyed s.p := fun key r hr =>
    have hprepared := hsound.prepared key r (hsound.reserved key r hr)
    ⟨hprepared.1, hprepared.2.1⟩
  refine ⟨fun hd hanswer consume => ?_, fun hclosing calls key => ?_, fun hd hanswer calls hcalls => ?_⟩
  · rw [matchAnswer_iff_owns hanswer, hsound.owns_iff]
  · exact owns_of_run_closing hkeyed hclosing
  · exact not_owns_run (hkeyed.keep (keeps_apply s _)) hcalls (not_owns_matchAnswer hanswer)

/-! ## A reservation used twice -/

def sampleHeader : Header := ⟨1, 20, requestFlag, 999, 42, 1, 2⟩

def sampleFrame : Bytes := sampleHeader.serialize

def sampleAnswer : Header := { sampleHeader with commandFlags := 0 }

def onceCalls : List Call :=
  [.prepareWrite sampleHeader, .beginWrite sampleFrame, .outcome 0 true]

theorem log_once : (System.run {} onceCalls).log =
    [.prepared (keyForRequest sampleHeader) 0, .begun 0 (keyForRequest sampleHeader) (some 0),
      .reported 0 true] := by
  decide +kernel

theorem reached_once {P : System → Call → Prop}
    (hprepare : ∀ s hd, ¬ s.p.Owns (keyForRequest hd) → P s (.prepareWrite hd))
    (hbegin : ∀ s b, (∀ tx key r, .begun tx key (some r) ∉ s.log) → P s (.beginWrite b))
    (houtcome : ∀ s tx written, tx < s.callbacks.length → (∀ w, .reported tx w ∉ s.log) →
      P s (.outcome tx written)) : System.Reached P (System.run {} onceCalls) := by
  show System.Reached P (((System.apply {} (.prepareWrite sampleHeader)).apply
    (.beginWrite sampleFrame)).apply (.outcome 0 true))
  refine .call (.call (.call .start (hprepare _ _ ?_)) (hbegin _ _ ?_)) (houtcome _ _ _ ?_ ?_)
  · decide
  · intro tx key r hmem
    simp [System.apply] at hmem
  · decide
  · decide +kernel

theorem owns_iff_alive_once :
    ((System.run {} onceCalls).p.matchAnswer (some sampleAnswer) true).2 = true ∧
      OwnedBy (System.run {} onceCalls).log (keyForRequest sampleAnswer) := by
  have hreached := @reached_once (fun s c => s.Possible c ∧ s.Disciplined c ∧ s.FirstUse c)
    (fun s hd hfree => ⟨trivial, hfree, trivial⟩)
    (fun s b hnone => ⟨trivial, fun h r _ _ tx key hmem => absurd hmem (hnone tx key r),
      fun h r _ _ _ _ tx key hmem => hnone tx key r hmem⟩)
    (fun s tx written htx honce => ⟨⟨htx, honce⟩, trivial, trivial⟩)
  have hmatch : ((System.run {} onceCalls).p.matchAnswer (some sampleAnswer) true).2 = true := by
    decide +kernel
  exact ⟨hmatch, ((owns_iff_alive hreached).1 sampleAnswer (by decide) true).1 hmatch⟩

/-- A reserved ticket whose second transmission fails loses the answer to its first one, which was
written. -/
theorem not_owns_second_use : ∃ s : System,
    System.Reached (fun s c => s.Possible c ∧ s.Disciplined c) s ∧
      sampleAnswer.commandFlags &&& requestFlag = 0 ∧
      (s.p.matchAnswer (some sampleAnswer) true).2 = false ∧
      OwnedBy s.log (keyForRequest sampleAnswer) := by
  have hreached := @reached_once (fun s c => s.Possible c ∧ s.Disciplined c)
    (fun s hd hfree => ⟨trivial, hfree⟩)
    (fun s b hnone => ⟨trivial, fun h r _ _ tx key hmem => absurd hmem (hnone tx key r)⟩)
    (fun s tx written htx honce => ⟨⟨htx, honce⟩, trivial⟩)
  have htwice : System.Reached (fun s c => s.Possible c ∧ s.Disciplined c)
      (((System.run {} onceCalls).apply (.beginWrite sampleFrame)).apply (.outcome 1 false)) := by
    refine .call (.call hreached ⟨trivial, fun h r _ _ tx key hmem => ?_⟩) ⟨⟨?_, ?_⟩, trivial⟩
    · rw [log_once] at hmem ⊢
      obtain ⟨rfl, -, -⟩ : tx = 0 ∧ key = keyForRequest sampleHeader ∧ r = 0 := by simpa using hmem
      exact ⟨true, by simp⟩
    · decide +kernel
    · decide +kernel
  refine ⟨_, htwice, by decide, by decide +kernel, 0, some 0,
    [.prepared (keyForRequest sampleHeader) 0],
    [.reported 0 true, .begun 1 (keyForRequest sampleHeader) (some 0), .reported 1 false],
    by decide +kernel, by decide, by decide +kernel, by decide +kernel, fun r hr => ?_⟩
  cases hr
  decide +kernel

end Diameter.Pending
