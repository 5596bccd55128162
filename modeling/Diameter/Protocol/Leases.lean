import Diameter.Lib.Slots
import Diameter.Protocol.Runs

/-!
# Protocol.Leases

What the operations on identifiers do to the exchanges of a core.

* `Exchanging`: disposing of an exchange never makes one logical again, and a new exchange takes the
  place of its reservation.
* `Indexed`: the current exchange of a command is one of that command.
* `Balanced`: an exchange is released exactly when nothing needs it any more, that is when it is
  not logical and has no write without a final result. What is released leaves the count of the
  identifiers that are `held`.
-/

namespace Diameter.Protocol

open Lib

variable {ops : GoMap Nat Operation} {t r : Nat} {control : Option Nat} {op : Operation}

namespace Leases

variable {l : Leases} {k : Control} {f : Control → Control} {cmd : BaseCommand}

/-- A command is being exchanged: its identifiers are asked for, or its answer is awaited. -/
def Exchanging (l : Leases) (cmd : BaseCommand) : Prop :=
  (∃ t, l.reservations.lookup t = some cmd) ∨
    ∃ k ∈ l.heap, k.command = cmd ∧ k.logical = true

/-- A change to an exchange that keeps its command and does not make it logical again. -/
structure Subdues (f : Control → Control) : Prop where
  command : ∀ k, (f k).command = k.command
  logical : ∀ k, (f k).logical = true → k.logical = true

/-- What a write that never reached the transport does to its exchange. -/
theorem subdues_skipped : Subdues fun k =>
    { k with writers := k.writers - 1, logical := k.logical && !(k.writers = 1 && !k.written) } :=
  ⟨fun _ => rfl, fun _ h => (Bool.and_eq_true_iff.1 h).1⟩

theorem Exchanging.of_modify {controls : BaseCommand → Option Nat}
    (h : Exchanging ⟨l.reservations, controls, l.heap.modify r f, ops⟩ cmd) (hf : Subdues f) :
    l.Exchanging cmd := by
  rcases h with h | ⟨k, hk, hcmd, hlog⟩
  · exact .inl h
  obtain ⟨n, hn⟩ := List.mem_iff_getElem?.1 hk
  rw [List.getElem?_modify] at hn
  obtain ⟨k0, hk0, rfl⟩ := Option.map_eq_some_iff.1 hn
  have hmem := List.mem_of_getElem? hk0
  split at hcmd
  next hr =>
    rw [if_pos hr] at hlog
    exact .inr ⟨k0, hmem, (hf.command k0).symm.trans hcmd, hf.logical k0 hlog⟩
  next hr =>
    rw [if_neg hr] at hlog
    exact .inr ⟨k0, hmem, hcmd, hlog⟩

theorem Exchanging.of_release (h : (l.release r).1.Exchanging cmd) : l.Exchanging cmd := by
  unfold release at h
  split at h
  · exact h
  split at h
  · exact h
  · exact h.of_modify ⟨fun _ => rfl, fun _ => id⟩

theorem Exchanging.of_drop
    (h : (l.drop r f).1.Exchanging cmd) (hf : Subdues f) : l.Exchanging cmd :=
  h.of_release.of_modify hf

theorem Exchanging.of_settle (h : (l.settle r).1.Exchanging cmd) : l.Exchanging cmd :=
  h.of_drop ⟨fun _ => rfl, fun _ h => (Bool.false_ne_true h).elim⟩

theorem Exchanging.of_finish
    (h : (l.finish t control f).1.Exchanging cmd) (hf : Subdues f) : l.Exchanging cmd := by
  unfold finish at h
  cases control with
  | none => exact h
  | some r => exact Exchanging.of_drop (l := { l with operations := l.operations.erase t }) h hf

theorem Exchanging.of_exchange
    (ht : l.reservations.lookup t = some k.command) (h : (l.exchange t k).Exchanging cmd) :
    l.Exchanging cmd := by
  rcases h with ⟨t', ht'⟩ | ⟨k', hk', hcmd, hlog⟩
  · rw [show (l.exchange t k).reservations = l.reservations.erase t from rfl,
      GoMap.lookup_erase_eq] at ht'
    split at ht'
    · cases ht'
    · exact .inl ⟨t', ht'⟩
  · rcases List.mem_append.1 hk' with hk' | hk'
    · exact .inr ⟨k', hk', hcmd, hlog⟩
    · rw [List.mem_singleton.1 hk'] at hcmd
      exact .inl ⟨t, hcmd ▸ ht⟩

theorem Exchanging.of_erase
    (h : Exchanging { l with reservations := l.reservations.erase t } cmd) : l.Exchanging cmd := by
  rcases h with ⟨t', ht'⟩ | h
  · rw [GoMap.lookup_erase_eq] at ht'
    split at ht'
    · cases ht'
    · exact .inl ⟨t', ht'⟩
  · exact .inr h

theorem Exchanging.of_reserve {s : State} {cmd cmd' : BaseCommand}
    (h : (s.reserve cmd').leases.Exchanging cmd) : cmd = cmd' ∨ s.leases.Exchanging cmd := by
  rcases h with ⟨t, ht⟩ | h
  · rw [show (s.reserve cmd').leases.reservations =
      s.leases.reservations.insert (s.serial + 1) cmd' from rfl, GoMap.lookup_insert_eq] at ht
    split at ht
    · exact .inl (Option.some.inj ht).symm
    · exact .inr (.inl ⟨t, ht⟩)
  · exact .inr (.inr h)

theorem abandonAll_induct {P : Leases → Prop} (hl : P l)
    (h : ∀ l cmd, P l → P (l.abandon cmd).1) : P l.abandonAll.1 := by
  have hfold : ∀ (cmds : List BaseCommand) (p : Leases × List Reservation), P p.1 →
      P (cmds.foldl (fun p cmd => ((p.1.abandon cmd).1, p.2 ++ (p.1.abandon cmd).2)) p).1 := by
    intro cmds
    induction cmds with
    | nil => exact fun _ hp => hp
    | cons cmd cmds ih => exact fun p hp => ih _ (h p.1 cmd hp)
  exact hfold _ (l, []) hl

/-! ## The current exchanges -/

def Indexed (l : Leases) : Prop :=
  ∀ cmd r, l.controls cmd = some r → ∃ k, l.heap[r]? = some k ∧ k.command = cmd

namespace Indexed

variable (hl : l.Indexed)
include hl

theorem modify (hf : ∀ k, (f k).command = k.command) :
    Indexed { l with heap := l.heap.modify r f } := by
  intro cmd r' h
  obtain ⟨k, hk, hcmd⟩ := hl cmd r' h
  refine ⟨if r = r' then f k else k, ?_, ?_⟩
  · show (l.heap.modify r f)[r']? = _
    rw [List.getElem?_modify, hk]
    rfl
  · split
    · rw [hf, hcmd]
    · exact hcmd

theorem release : (l.release r).1.Indexed := by
  unfold Leases.release
  split
  · exact hl
  split
  · exact hl
  intro cmd r' h
  refine hl.modify (f := fun k => { k with released := true }) (fun _ => rfl) cmd r' ?_
  dsimp only at h ⊢
  split at h
  · rw [Function.update_apply] at h
    split at h
    · cases h
    · exact h
  · exact h

theorem drop (hf : ∀ k, (f k).command = k.command) : (l.drop r f).1.Indexed :=
  (hl.modify hf).release

theorem settle : (l.settle r).1.Indexed := hl.drop fun _ => rfl

theorem abandonAll : l.abandonAll.1.Indexed := by
  refine abandonAll_induct hl fun l cmd hl => ?_
  unfold Leases.abandon
  split
  · exact hl.drop fun _ => rfl
  · exact hl

theorem finish
    (hf : ∀ k, (f k).command = k.command) : (l.finish t control f).1.Indexed := by
  unfold Leases.finish
  cases control with
  | none => exact hl
  | some r => exact Indexed.drop (l := { l with operations := l.operations.erase t }) hl hf

theorem exchange : (l.exchange t k).Indexed := by
  intro cmd r h
  have hctl : (l.exchange t k).controls = Function.update l.controls k.command
      (some l.heap.length) := rfl
  rw [hctl, Function.update_apply] at h
  split at h
  next hcmd =>
    obtain rfl := Option.some.inj h
    exact ⟨k, List.getElem?_concat_length, hcmd.symm⟩
  · obtain ⟨k', hk', hcmd⟩ := hl cmd r h
    refine ⟨k', ?_, hcmd⟩
    show (l.heap ++ [k])[r]? = _
    rw [List.getElem?_append_left (List.getElem?_eq_some_iff.1 hk').1, hk']

end Indexed

/-! ## Balance -/

/-- The writes of the exchange `r` that have no final result. -/
def sends (l : Leases) (r : Nat) : Nat := GoMap.count l.operations fun op => op.control = some r

/-- The exchanges that hold the identifiers `v`. -/
def held (l : Leases) (v : Reservation) : Nat :=
  l.heap.countP fun k => k.reservation = v && !k.released

/-- The tables agree with each other. -/
structure Tied (l : Leases) : Prop where
  indexed : l.Indexed
  current : ∀ (r : Nat) (k : Control), l.heap[r]? = some k → k.logical = true →
    l.controls k.command = some r
  writers : ∀ (r : Nat) (k : Control), l.heap[r]? = some k → k.writers = (l.sends r : Int)
  known : ∀ t op, l.operations.lookup t = some op → ∀ r, op.control = some r → r < l.heap.length
  attempts : ∀ (r : Nat) (k : Control), l.heap[r]? = some k → k.writers ≤ k.attempts ∧
    (k.command ≠ .capabilitiesExchange → k.attempts ≤ 1)
  needless : ∀ (r : Nat) (k : Control), l.heap[r]? = some k → k.released = true →
    k.logical = false ∧ k.writers = 0

/-- The exchange at `r` is released if nothing needs it. -/
def SettledAt (l : Leases) (r : Nat) : Prop :=
  ∀ k : Control, l.heap[r]? = some k → k.logical = false → k.writers = 0 → k.released = true

structure Balanced (l : Leases) : Prop extends Tied l where
  settled : ∀ r, l.SettledAt r

theorem held_modify (hk : l.heap[r]? = some k) (hres : (f k).reservation = k.reservation)
    (hrel : (f k).released = k.released) (v : Reservation) (ops : GoMap Nat Operation) :
    held { l with heap := l.heap.modify r f, operations := ops } v = l.held v := by
  have hcount := countP_modify (f := f) (fun k => k.reservation = v && !k.released) hk
  rw [hres, hrel] at hcount
  exact Nat.add_right_cancel hcount

theorem Tied.modify (hl : l.Tied)
    (hk : l.heap[r]? = some k) (hf : Subdues f)
    (hw : (f k).writers = (GoMap.count ops fun op => op.control = some r : Nat))
    (hother : ∀ r' ≠ r, (GoMap.count ops fun op => op.control = some r') = l.sends r')
    (hknown : ∀ t op, ops.lookup t = some op → ∀ r', op.control = some r' →
      r' < l.heap.length)
    (hatt : (f k).writers ≤ (f k).attempts ∧
      (k.command ≠ .capabilitiesExchange → (f k).attempts ≤ 1))
    (hrel : (f k).released = true → (f k).logical = false ∧ (f k).writers = 0) :
    Tied { l with heap := l.heap.modify r f, operations := ops } := by
  have hcases : ∀ r' k', (l.heap.modify r f)[r']? = some k' →
      r' = r ∧ k' = f k ∨ r' ≠ r ∧ l.heap[r']? = some k' := by
    intro r' k' h
    by_cases hr : r' = r
    · rw [hr, getElem?_modify_self hk] at h
      exact .inl ⟨hr, (Option.some.inj h).symm⟩
    · rw [getElem?_modify_ne hr] at h
      exact .inr ⟨hr, h⟩
  refine ⟨?_, ?_, ?_, ?_, ?_, ?_⟩
  · exact hl.indexed.modify hf.command
  · intro r' k' h hlog
    rcases hcases r' k' h with ⟨rfl, rfl⟩ | ⟨-, h⟩
    · show l.controls (f k).command = some r'
      rw [hf.command]
      exact hl.current r' k hk (hf.logical k hlog)
    · exact hl.current r' k' h hlog
  · intro r' k' h
    rcases hcases r' k' h with ⟨rfl, rfl⟩ | ⟨hr, h⟩
    · exact hw
    · exact (hl.writers r' k' h).trans (congrArg Nat.cast (hother r' hr).symm)
  · intro t op h r' hr
    show r' < (l.heap.modify r f).length
    rw [List.length_modify]
    exact hknown t op h r' hr
  · intro r' k' h
    rcases hcases r' k' h with ⟨rfl, rfl⟩ | ⟨-, h⟩
    · rw [hf.command]
      exact hatt
    · exact hl.attempts r' k' h
  · intro r' k' h hr
    rcases hcases r' k' h with ⟨rfl, rfl⟩ | ⟨-, h⟩
    · exact hrel hr
    · exact hl.needless r' k' h hr

theorem release_needed (hk : l.heap[r]? = some k)
    (hn : k.logical = true ∨ k.writers ≠ 0 ∨ k.released = true) : l.release r = (l, []) := by
  simp [release, hk, or_assoc, hn]

theorem release_due (hk : l.heap[r]? = some k)
    (hlog : k.logical = false) (hw : k.writers = 0) (hrel : k.released = false) :
    l.release r = ({ l with
      heap := l.heap.modify r fun k => { k with released := true }
      controls := if l.controls k.command = some r
        then Function.update l.controls k.command none else l.controls }, [k.reservation]) := by
  simp [release, hk, hlog, hw, hrel]

theorem current_release (hk : l.heap[r]? = some k)
    (hlog : k.logical = false) {r' : Nat} {k' : Control} (hk' : l.heap[r']? = some k')
    (hlog' : k'.logical = true) (hc : l.controls k'.command = some r') :
    (if l.controls k.command = some r then Function.update l.controls k.command none
      else l.controls) k'.command = some r' := by
  split
  next hr =>
    rw [Function.update_apply]
    split
    next hcmd =>
      rw [hcmd, hr] at hc
      obtain rfl := Option.some.inj hc
      rw [hk] at hk'
      obtain rfl := Option.some.inj hk'
      rw [hlog] at hlog'
      cases hlog'
    · exact hc
  · exact hc

/-- Releasing the one exchange that may be due settles them all. -/
theorem Tied.release (hl : l.Tied) (hs : ∀ r' ≠ r, l.SettledAt r') : (l.release r).1.Balanced ∧
      ∀ v, l.held v = (l.release r).1.held v + (l.release r).2.count v := by
  have hindexed := hl.indexed.release (r := r)
  cases hk : l.heap[r]? with
  | none =>
    have heq : l.release r = (l, []) := by simp [Leases.release, hk]
    rw [heq]
    refine ⟨⟨hl, fun r' k hk' => ?_⟩, fun v => rfl⟩
    by_cases hr : r' = r
    · rw [hr, hk] at hk'
      cases hk'
    · exact hs r' hr k hk'
  | some k =>
    by_cases hn : k.logical = true ∨ k.writers ≠ 0 ∨ k.released = true
    · rw [release_needed hk hn]
      refine ⟨⟨hl, fun r' k' hk' hlog hw => ?_⟩, fun v => rfl⟩
      by_cases hr : r' = r
      · rw [hr, hk] at hk'
        obtain rfl := Option.some.inj hk'
        simpa [hlog, hw] using hn
      · exact hs r' hr k' hk' hlog hw
    · simp only [not_or, not_not, Bool.not_eq_true] at hn
      obtain ⟨hlog, hw, hrel⟩ := hn
      rw [release_due hk hlog hw hrel] at hindexed ⊢
      have ht := hl.modify (f := fun k => { k with released := true }) hk
        ⟨fun _ => rfl, fun _ => id⟩ (hl.writers r k hk) (fun _ _ => rfl) hl.known
        (hl.attempts r k hk) fun _ => ⟨hlog, hw⟩
      refine ⟨⟨⟨hindexed, ?_, ht.writers, ht.known, ht.attempts, ht.needless⟩, ?_⟩, fun v => ?_⟩
      · intro r' k' hk' hlog'
        by_cases hr : r' = r
        · rw [hr, getElem?_modify_self hk] at hk'
          obtain rfl := Option.some.inj hk'
          rw [hlog] at hlog'
          cases hlog'
        · rw [getElem?_modify_ne hr] at hk'
          exact current_release hk hlog hk' hlog' (hl.current r' k' hk' hlog')
      · intro r' k' hk' hlog' hw'
        by_cases hr : r' = r
        · rw [hr, getElem?_modify_self hk] at hk'
          obtain rfl := Option.some.inj hk'
          rfl
        · rw [getElem?_modify_ne hr] at hk'
          exact hs r' hr k' hk' hlog' hw'
      · have hcount := countP_modify (f := fun k => { k with released := true })
          (fun k => k.reservation = v && !k.released) hk
        simp only [hrel, Bool.not_false, Bool.not_true, Bool.and_true, Bool.and_false,
          Bool.toNat_false, Nat.add_zero] at hcount
        rw [held, ← hcount, held, List.count_singleton]
        by_cases hv : k.reservation = v
        · simp [hv]
        · simp [hv]

/-- The exchanges of a command whose answer is awaited. -/
def awaited (l : Leases) (cmd : BaseCommand) : Nat :=
  l.heap.countP fun k => k.command = cmd && k.logical

theorem awaited_modify_le (hf : Subdues f)
    (controls : BaseCommand → Option Nat) (ops : GoMap Nat Operation) (cmd : BaseCommand) :
    awaited ⟨l.reservations, controls, l.heap.modify r f, ops⟩ cmd ≤ l.awaited cmd := by
  refine countP_modify_le fun k hk => ?_
  rw [Bool.and_eq_true] at hk ⊢
  rw [hf.command] at hk
  exact ⟨hk.1, hf.logical k hk.2⟩

theorem awaited_release_le (l : Leases) (r : Nat) (cmd : BaseCommand) :
    (l.release r).1.awaited cmd ≤ l.awaited cmd := by
  unfold release
  split
  · exact Nat.le_refl _
  split
  · exact Nat.le_refl _
  · exact awaited_modify_le (f := fun k => { k with released := true })
      ⟨fun _ => rfl, fun _ => id⟩ _ _ cmd

/-- Disposing of exchanges: the tables stay balanced, and what is given back was held. -/
structure Frees (l : Leases) (p : Leases × List Reservation) : Prop where
  balanced : p.1.Balanced
  held : ∀ v, l.held v = p.1.held v + p.2.count v
  awaited : ∀ cmd, p.1.awaited cmd ≤ l.awaited cmd

theorem Balanced.frees (hl : l.Balanced) : l.Frees (l, []) :=
  ⟨hl, fun _ => rfl, fun _ => Nat.le_refl _⟩

theorem Frees.trans {p p' : Leases × List Reservation} (h : l.Frees p)
    (h' : p.1.Frees p') : l.Frees (p'.1, p.2 ++ p'.2) := by
  refine ⟨h'.balanced, fun v => ?_, fun cmd => (h'.awaited cmd).trans (h.awaited cmd)⟩
  have h1 := h.held v
  have h2 := h'.held v
  show l.held v = p'.1.held v + (p.2 ++ p'.2).count v
  rw [List.count_append]
  omega

/-- A change that can only bring an exchange closer to its release. -/
structure Disposes (f : Control → Control) : Prop extends Subdues f where
  reservation : ∀ k, (f k).reservation = k.reservation
  released : ∀ k, (f k).released = k.released
  attempts : ∀ k, (f k).attempts = k.attempts
  writers : ∀ k, (f k).writers ≤ k.writers

theorem Balanced.drop (hl : l.Balanced) (hk : l.heap[r]? = some k)
    (hf : Disposes f) (hw : (f k).writers = (GoMap.count ops fun op => op.control = some r : Nat))
    (hother : ∀ r' ≠ r, (GoMap.count ops fun op => op.control = some r') = l.sends r')
    (hknown : ∀ t op, ops.lookup t = some op → ∀ r', op.control = some r' →
      r' < l.heap.length) : l.Frees (Leases.drop { l with operations := ops } r f) := by
  have hatt := hl.attempts r k hk
  have hle := hf.writers k
  have ht := hl.toTied.modify hk hf.toSubdues hw hother hknown
    (by rw [hf.attempts]; exact ⟨hle.trans hatt.1, hatt.2⟩) fun hrel => by
      rw [hf.released] at hrel
      obtain ⟨hlog, hzero⟩ := hl.needless r k hk hrel
      refine ⟨?_, ?_⟩
      · cases h : (f k).logical with
        | false => rfl
        | true => rw [hf.logical k h] at hlog; cases hlog
      · omega
  obtain ⟨hb, hheld⟩ := ht.release (r := r) fun r' hr k' hk' => by
    rw [getElem?_modify_ne hr] at hk'
    exact hl.settled r' k' hk'
  refine ⟨hb, fun v => ?_, fun cmd => ?_⟩
  · rw [← held_modify hk (hf.reservation k) (hf.released k) v ops]
    exact hheld v
  · exact (awaited_release_le _ r cmd).trans (awaited_modify_le hf.toSubdues _ _ cmd)

theorem Balanced.settle (hl : l.Balanced) (hk : l.heap[r]? = some k) : l.Frees (l.settle r) :=
  hl.drop hk
    ⟨⟨fun _ => rfl, fun _ h => (Bool.false_ne_true h).elim⟩, fun _ => rfl, fun _ => rfl,
      fun _ => rfl, fun _ => Int.le_refl _⟩ (hl.writers r k hk) (fun _ _ => rfl) hl.known

theorem Balanced.abandon (hl : l.Balanced) (cmd : BaseCommand) : l.Frees (l.abandon cmd) := by
  unfold Leases.abandon
  split
  next r hr =>
    obtain ⟨k, hk, -⟩ := hl.indexed cmd r hr
    exact hl.drop hk
      ⟨⟨fun _ => rfl, fun _ h => (Bool.false_ne_true h).elim⟩, fun _ => rfl, fun _ => rfl,
        fun _ => rfl, fun _ => Int.le_refl _⟩ (hl.writers r k hk) (fun _ _ => rfl) hl.known
  · exact hl.frees

theorem abandon_awaited (hl : l.Balanced) (cmd : BaseCommand) :
    (l.abandon cmd).1.awaited cmd = 0 := by
  unfold Leases.abandon
  split
  next r hr =>
    refine Nat.eq_zero_of_le_zero ((awaited_release_le _ r cmd).trans (Nat.le_of_eq ?_))
    refine List.countP_eq_zero.2 fun k' hk' => ?_
    obtain ⟨r', hr'⟩ := List.mem_iff_getElem?.1 hk'
    -- At `r` nothing is awaited any more; anywhere else only another command can be.
    by_cases heq : r' = r
    · obtain ⟨k, hk, -⟩ := hl.indexed cmd r hr
      rw [heq, getElem?_modify_self hk] at hr'
      simp [← Option.some.inj hr']
    · rw [getElem?_modify_ne heq] at hr'
      intro h
      rw [Bool.and_eq_true, decide_eq_true_eq] at h
      have hcur := hl.current r' k' hr' h.2
      rw [h.1, hr] at hcur
      exact heq (Option.some.inj hcur).symm
  next hnone =>
    refine List.countP_eq_zero.2 fun k hk h => ?_
    rw [Bool.and_eq_true, decide_eq_true_eq] at h
    obtain ⟨r, hr⟩ := List.mem_iff_getElem?.1 hk
    have hcur := hl.current r k hr h.2
    rw [h.1, hnone] at hcur
    cases hcur

theorem Balanced.abandonAll (hl : l.Balanced) :
    l.Frees l.abandonAll ∧ ∀ cmd, l.abandonAll.1.awaited cmd = 0 := by
  have hfold : ∀ (cmds : List BaseCommand) (p : Leases × List Reservation), l.Frees p →
      ∀ p', p' = cmds.foldl (fun p cmd => ((p.1.abandon cmd).1, p.2 ++ (p.1.abandon cmd).2)) p →
      l.Frees p' ∧ (∀ cmd, p'.1.awaited cmd ≤ p.1.awaited cmd) ∧
        ∀ cmd ∈ cmds, p'.1.awaited cmd = 0 := by
    intro cmds
    induction cmds with
    | nil =>
      rintro p hp _ rfl
      exact ⟨hp, fun _ => Nat.le_refl _, List.forall_mem_nil _⟩
    | cons cmd cmds ih =>
      intro p hp p' hp'
      have hcmd := hp.balanced.abandon cmd
      obtain ⟨hfrees, hle, hzero⟩ := ih _ (hp.trans hcmd) p' hp'
      refine ⟨hfrees, fun c => (hle c).trans (hcmd.awaited c), fun c hc => ?_⟩
      rcases List.mem_cons.1 hc with rfl | hc
      · exact Nat.eq_zero_of_le_zero ((hle c).trans (Nat.le_of_eq (abandon_awaited hp.balanced c)))
      · exact hzero c hc
  obtain ⟨hfrees, -, hzero⟩ := hfold BaseCommand.all _ hl.frees _ rfl
  exact ⟨hfrees, fun cmd => hzero cmd (by cases cmd <;> decide)⟩

theorem Balanced.operations (hl : l.Balanced)
    (hsends : ∀ r, (GoMap.count ops fun op => op.control = some r) = l.sends r)
    (hknown : ∀ t op, ops.lookup t = some op → ∀ r, op.control = some r → r < l.heap.length) :
    Balanced { l with operations := ops } :=
  ⟨⟨hl.indexed, hl.current, fun r k hk => (hl.writers r k hk).trans (congrArg _ (hsends r).symm),
    hknown, hl.attempts, hl.needless⟩, hl.settled⟩

theorem Balanced.reservations (hl : l.Balanced) (m : GoMap Nat BaseCommand) :
    Balanced { l with reservations := m } :=
  ⟨⟨hl.indexed, hl.current, hl.writers, hl.known, hl.attempts, hl.needless⟩, hl.settled⟩

theorem sends_erase (h : l.operations.lookup t = some op)
    (r : Nat) : (GoMap.count (l.operations.erase t) fun op => op.control = some r) +
      (decide (op.control = some r)).toNat = l.sends r :=
  GoMap.count_erase (fun op => decide (op.control = some r)) h

theorem Balanced.known_erase (hl : l.Balanced) (t : Nat) :
    ∀ t' op, (l.operations.erase t).lookup t' = some op → ∀ r, op.control = some r →
      r < l.heap.length := by
  intro t' op h
  rw [GoMap.lookup_erase_eq] at h
  split at h
  · cases h
  · exact hl.known t' op h

theorem Balanced.finish (hl : l.Balanced)
    (hop : l.operations.lookup t = some op) (hf : Disposes f)
    (hw : ∀ k, (f k).writers = k.writers - 1) : l.Frees (l.finish t op.control f) := by
  unfold Leases.finish
  cases hc : op.control with
  | none =>
    have hsends : ∀ r, (GoMap.count (l.operations.erase t) fun op => op.control = some r) =
        l.sends r := by
      intro r
      simpa [hc] using sends_erase hop r
    exact ⟨hl.operations hsends (hl.known_erase t), fun _ => rfl, fun _ => Nat.le_refl _⟩
  | some r =>
    obtain ⟨k, hk⟩ : ∃ k, l.heap[r]? = some k :=
      ⟨_, List.getElem?_eq_getElem (hl.known t op hop r hc)⟩
    refine hl.drop hk hf ?_ (fun r' hr => ?_) (hl.known_erase t)
    · have hsends := sends_erase hop r
      rw [hc, decide_eq_true rfl, Bool.toNat_true] at hsends
      rw [hw, hl.writers r k hk, ← hsends]
      omega
    · have hsends := sends_erase hop r'
      have hne : ¬ some r = some r' := fun h => hr (Option.some.inj h).symm
      rw [hc, decide_eq_false hne, Bool.toNat_false, Nat.add_zero] at hsends
      exact hsends

theorem Balanced.writeDone (hl : l.Balanced)
    (written : Bool) (hop : l.operations.lookup t = some op) : l.Frees (l.writeDone t op written) :=
  hl.finish hop
    ⟨⟨fun _ => rfl, fun _ => id⟩, fun _ => rfl, fun _ => rfl, fun _ => rfl,
      fun _ => Int.sub_le_self _ (by decide)⟩ fun _ => rfl

theorem Balanced.writeSkipped (hl : l.Balanced)
    (hop : l.operations.lookup t = some op) (hc : op.control = some r) :
    l.Frees (l.writeSkipped t r) := by
  have h := hl.finish hop (f := fun k => { k with writers := k.writers - 1, logical :=
    k.logical && !(k.writers = 1 && !k.written) }) ⟨subdues_skipped, fun _ => rfl, fun _ => rfl,
      fun _ => rfl, fun _ => Int.sub_le_self _ (by decide)⟩ fun _ => rfl
  rw [hc] at h
  exact h

theorem awaited_drop_lt
    (hk : l.heap[r]? = some k) (hlog : k.logical = true) (hf : (f k).logical = false)
    (ops : GoMap Nat Operation) :
    (Leases.drop { l with operations := ops } r f).1.awaited k.command + 1 ≤
      l.awaited k.command := by
  have hcount := countP_modify (f := f) (fun k' => k'.command = k.command && k'.logical) hk
  simp only [decide_true, Bool.true_and, hlog, hf, Bool.and_false, Bool.toNat_true,
    Bool.toNat_false, Nat.add_zero] at hcount
  have hle := awaited_release_le
    { l with heap := l.heap.modify r f, operations := ops } r k.command
  exact (Nat.add_le_add_right hle 1).trans (Nat.le_of_eq hcount)

/-- A command other than the retried CER is written once, so a skipped write gives it up. -/
theorem Balanced.skipped_awaited (hl : l.Balanced)
    (hop : l.operations.lookup t = some op) (hc : op.control = some r)
    (hk : l.heap[r]? = some k) (hcmd : k.command ≠ .capabilitiesExchange)
    (hw : k.written = false) (hlog : k.logical = true) :
    (l.writeSkipped t r).1.awaited k.command + 1 ≤ l.awaited k.command := by
  have hone : k.writers = 1 := by
    have hpos : 0 < l.sends r := GoMap.count_pos hop (decide_eq_true hc)
    have hwriters := hl.writers r k hk
    obtain ⟨hatt, hle⟩ := hl.attempts r k hk
    have hle := hle hcmd
    omega
  exact awaited_drop_lt hk hlog (by simp [hone, hw]) _

theorem Balanced.send (hl : l.Balanced)
    (hk : l.heap[r]? = some k) (hlog : k.logical = true)
    (hatt : k.attempts = 0 ∨ k.command = .capabilitiesExchange) (hc : op.control = some r)
    (ht : l.operations.lookup t = none) :
    (l.send t r op).Balanced ∧ (∀ v, (l.send t r op).held v = l.held v) ∧
      ∀ cmd, (l.send t r op).awaited cmd ≤ l.awaited cmd := by
  have hsends : ∀ r', (GoMap.count (l.operations.insert t op) fun op => op.control = some r') =
      l.sends r' + (decide (some r = some r')).toNat := by
    intro r'
    rw [← hc]
    exact GoMap.count_insert_new op (fun op => decide (op.control = some r')) ht
  have hnot : k.released ≠ true := by
    intro hrel
    rw [(hl.needless r k hk hrel).1] at hlog
    cases hlog
  have hsub : Subdues fun k => { k with writers := k.writers + 1, attempts := k.attempts + 1 } :=
    ⟨fun _ => rfl, fun _ => id⟩
  have htied : Tied (l.send t r op) :=
    hl.toTied.modify hk hsub ?_ ?_ ?_ ?_ fun hrel => (hnot hrel).elim
  · refine ⟨⟨htied, fun r' k' hk' hlog' hw' => ?_⟩, fun v => ?_, awaited_modify_le hsub _ _⟩
    · by_cases hr : r' = r
      · rw [hr, show (l.send t r op).heap[r]? = _ from getElem?_modify_self hk] at hk'
        rw [← Option.some.inj hk', hlog] at hlog'
        cases hlog'
      · rw [show (l.send t r op).heap[r']? = _ from getElem?_modify_ne hr] at hk'
        exact hl.settled r' k' hk' hlog' hw'
    · exact held_modify (f := fun k => { k with
        writers := k.writers + 1, attempts := k.attempts + 1 }) hk rfl rfl v _
  · show k.writers + 1 = _
    rw [hsends, decide_eq_true rfl, Bool.toNat_true, hl.writers r k hk]
    rfl
  · intro r' hr
    have hne : ¬ some r = some r' := fun h => hr (Option.some.inj h).symm
    rw [hsends, decide_eq_false hne, Bool.toNat_false, Nat.add_zero]
  · intro t' op' h r' hr'
    rw [GoMap.lookup_insert_eq] at h
    split at h
    · rw [← Option.some.inj h, hc] at hr'
      exact Option.some.inj hr' ▸ (List.getElem?_eq_some_iff.1 hk).1
    · exact hl.known t' op' h r' hr'
  · have h := hl.attempts r k hk
    refine ⟨?_, fun hcmd => ?_⟩
    · show k.writers + 1 ≤ ((k.attempts + 1 : Nat) : Int)
      omega
    show k.attempts + 1 ≤ 1
    have := hatt.resolve_right hcmd
    omega

theorem Balanced.consume (hl : l.Balanced) (r : Nat)
    (hf : f = fun k => { k with answered := true }) :
    Balanced { l with heap := l.heap.modify r f } ∧
      (∀ v, held { l with heap := l.heap.modify r f } v = l.held v) ∧
      ∀ cmd, awaited { l with heap := l.heap.modify r f } cmd ≤ l.awaited cmd := by
  have hsub : Subdues f := hf ▸ ⟨fun _ => rfl, fun _ => id⟩
  cases hk : l.heap[r]? with
  | none =>
    rw [List.modify_eq_self (List.getElem?_eq_none_iff.1 hk)]
    exact ⟨hl, fun _ => rfl, fun _ => Nat.le_refl _⟩
  | some k =>
    have hfk : f k = { k with answered := true } := by rw [hf]
    refine ⟨⟨hl.toTied.modify hk hsub ?_ (fun _ _ => rfl) hl.known ?_ ?_, ?_⟩,
      fun v => held_modify hk (by rw [hfk]) (by rw [hfk]) v _, awaited_modify_le hsub _ _⟩
    · rw [hfk]
      exact hl.writers r k hk
    · rw [hfk]
      exact hl.attempts r k hk
    · rw [hfk]
      exact hl.needless r k hk
    intro r' k' hk' hlog' hw'
    by_cases hr : r' = r
    · rw [hr, getElem?_modify_self hk, hfk] at hk'
      obtain rfl := Option.some.inj hk'
      exact hl.settled r k hk hlog' hw'
    · rw [getElem?_modify_ne hr] at hk'
      exact hl.settled r' k' hk' hlog' hw'

theorem getElem?_exchange {k k' : Control} (h : (l.exchange t k).heap[r]? = some k') :
    r = l.heap.length ∧ k' = k ∨ r < l.heap.length ∧ l.heap[r]? = some k' := by
  rw [show (l.exchange t k).heap = l.heap ++ [k] from rfl] at h
  by_cases hr : r < l.heap.length
  · rw [List.getElem?_append_left hr] at h
    exact .inr ⟨hr, h⟩
  have hlt := (List.getElem?_eq_some_iff.1 h).1
  rw [List.length_append, List.length_singleton] at hlt
  obtain rfl : r = l.heap.length := by omega
  rw [List.getElem?_concat_length] at h
  exact .inl ⟨rfl, (Option.some.inj h).symm⟩

theorem Balanced.exchange (hl : l.Balanced)
    (hnone : l.awaited k.command = 0) (hlog : k.logical = true) (hrel : k.released = false)
    (hw : k.writers = 0) (hatt : k.attempts = 0) :
    (l.exchange t k).Balanced ∧
      (∀ v, (l.exchange t k).held v = l.held v + (decide (k.reservation = v)).toNat) ∧
      ∀ cmd, (l.exchange t k).awaited cmd = l.awaited cmd + (decide (k.command = cmd)).toNat := by
  have hnew : l.sends l.heap.length = 0 := GoMap.count_eq_zero fun t' op h => by
    refine decide_eq_false fun hc => ?_
    exact Nat.lt_irrefl _ (hl.known t' op h _ hc)
  refine ⟨⟨⟨hl.indexed.exchange, ?_, ?_, ?_, ?_, ?_⟩, ?_⟩, fun v => ?_, fun cmd => ?_⟩
  · intro r k' hk' hlog'
    rw [show (l.exchange t k).controls = Function.update l.controls k.command
      (some l.heap.length) from rfl, Function.update_apply]
    rcases getElem?_exchange hk' with ⟨rfl, rfl⟩ | ⟨-, hk'⟩
    · rw [if_pos rfl]
    have hne : k'.command ≠ k.command := by
      intro hcmd
      refine List.countP_eq_zero.1 hnone k' (List.mem_of_getElem? hk') ?_
      rw [hlog', decide_eq_true hcmd]
      rfl
    rw [if_neg hne]
    exact hl.current r k' hk' hlog'
  · intro r k' hk'
    rcases getElem?_exchange hk' with ⟨rfl, rfl⟩ | ⟨-, hk'⟩
    · rw [hw]
      exact (congrArg Nat.cast hnew).symm
    · exact hl.writers r k' hk'
  · intro t' op h r hr
    refine Nat.lt_of_lt_of_le (hl.known t' op h r hr) ?_
    exact (List.sublist_append_left l.heap [k]).length_le
  · intro r k' hk'
    rcases getElem?_exchange hk' with ⟨rfl, rfl⟩ | ⟨-, hk'⟩
    · rw [hw, hatt]
      exact ⟨Int.le_refl _, fun _ => Nat.zero_le _⟩
    · exact hl.attempts r k' hk'
  · intro r k' hk' hrel'
    rcases getElem?_exchange hk' with ⟨rfl, rfl⟩ | ⟨-, hk'⟩
    · rw [hrel] at hrel'
      cases hrel'
    · exact hl.needless r k' hk' hrel'
  · intro r k' hk' hlog' hw'
    rcases getElem?_exchange hk' with ⟨rfl, rfl⟩ | ⟨-, hk'⟩
    · rw [hlog] at hlog'
      cases hlog'
    · exact hl.settled r k' hk' hlog' hw'
  · show (l.heap ++ [k]).countP _ = _
    rw [List.countP_append, List.countP_singleton, held, hrel]
    cases decide (k.reservation = v) <;> rfl
  · show (l.heap ++ [k]).countP _ = _
    rw [List.countP_append, List.countP_singleton, awaited, hlog]
    cases decide (k.command = cmd) <;> rfl

end Leases

variable [BasePackage] {i : Input}

omit [BasePackage] in
theorem Refresh.leases {s s' : State} (h : Refresh s s') : s'.leases = s.leases := by
  cases h <;> rfl

theorem Move.indexed {w w' : Work} (hm : Move i w w') (hw : w.state.leases.Indexed) :
    w'.state.leases.Indexed := by
  cases hm
  case settleCER | credit | dpaSettled => exact hw.settle
  case terminate | disconnected => exact hw.abandonAll
  case exchange => exact hw.exchange
  case request => exact hw.exchange.modify fun _ => rfl
  case consume | retransmit => exact hw.modify fun _ => rfl
  case finishWrite | skipped | skippedProbe => exact hw.finish fun _ => rfl
  all_goals exact hw

end Diameter.Protocol
