import Mathlib.Data.List.Basic
import Mathlib.Data.List.Nodup

/-!
# Lib.Linked

Doubly linked lists. `Links` holds the four kinds of pointers, `Represents` says which list they
form: every split of the list gives the neighbours of the element at the split.

* `Represents.pushBack`, `Represents.unlink`: the two operations.
* `walk_next`, `walk_previous`: following the pointers visits the list, from either end.
-/

namespace Lib

structure Links (α : Type) where
  head : Option α
  tail : Option α
  next : α → Option α
  previous : α → Option α

namespace Links

variable {α : Type}

structure Represents (l : Links α) (xs : List α) : Prop where
  nodup : xs.Nodup
  head : l.head = xs.head?
  tail : l.tail = xs.getLast?
  next : ∀ ys a zs, xs = ys ++ a :: zs → l.next a = zs.head?
  previous : ∀ ys a zs, xs = ys ++ a :: zs → l.previous a = ys.getLast?

/-! ## Walks -/

/-- The first `n` elements from `a` on. -/
def walk (step : α → Option α) : Nat → Option α → List α
  | 0, _ => []
  | _, none => []
  | n + 1, some a => a :: walk step n (step a)

theorem walk_none (step : α → Option α) (n : Nat) : walk step n none = [] := by
  cases n <;> rfl

theorem Represents.walk_next {l : Links α} {xs : List α} (h : l.Represents xs) {n : Nat}
    (hn : xs.length ≤ n) : walk l.next n l.head = xs := by
  have hrest : ∀ zs ys n, xs = ys ++ zs → zs.length ≤ n → walk l.next n zs.head? = zs := by
    intro zs
    induction zs with
    | nil =>
      intro ys n _ _
      exact walk_none _ n
    | cons a zs ih =>
      intro ys n hxs hlen
      obtain ⟨n, rfl⟩ : ∃ m, n = m + 1 := ⟨n - 1, by simp at hlen; omega⟩
      rw [List.head?_cons, walk, h.next ys a zs hxs, ih (ys ++ [a]) n (by simp [hxs])
        (by simp at hlen; omega)]
  rw [h.head]
  exact hrest xs [] n rfl hn

theorem Represents.walk_previous {l : Links α} {xs : List α} (h : l.Represents xs) {n : Nat}
    (hn : xs.length ≤ n) : walk l.previous n l.tail = xs.reverse := by
  have hrest : ∀ (k : Nat) ys zs n, ys.length = k → xs = ys ++ zs → k ≤ n →
      walk l.previous n ys.getLast? = ys.reverse := by
    intro k
    induction k with
    | zero =>
      intro ys zs n hk _ _
      rw [List.length_eq_zero_iff.1 hk]
      exact walk_none _ n
    | succ k ih =>
      intro ys zs n hk hxs hn
      obtain ⟨n, rfl⟩ : ∃ m, n = m + 1 := ⟨n - 1, by omega⟩
      rcases List.eq_nil_or_concat ys with rfl | ⟨ys, a, rfl⟩
      · cases hk
      rw [List.concat_eq_append] at hk hxs ⊢
      have hsplit : xs = ys ++ a :: zs := by simp [hxs]
      rw [List.getLast?_append, List.getLast?_singleton, Option.some_or, walk,
        h.previous ys a zs hsplit, ih ys (a :: zs) n (by simpa using hk) hsplit (by omega)]
      simp
  rw [h.tail]
  exact hrest xs.length xs [] n rfl (by simp) hn

/-! ## Operations -/

variable [DecidableEq α]

/-- A new element at the end. -/
def pushBack (l : Links α) (a : α) : Links α where
  head := if l.tail = none then some a else l.head
  tail := some a
  next x := if x = a then none else if l.tail = some x then some a else l.next x
  previous x := if x = a then l.tail else l.previous x

/-- The neighbours of an element point past it. -/
def unlink (l : Links α) (a : α) : Links α where
  head := if l.previous a = none then l.next a else l.head
  tail := if l.next a = none then l.previous a else l.tail
  next x := if x = a then none else if l.previous a = some x then l.next a else l.next x
  previous x := if x = a then none else if l.next a = some x then l.previous a else l.previous x

omit [DecidableEq α] in
theorem getLast?_eq_some_iff_of_nodup {xs ys zs : List α} {b : α} (hnodup : xs.Nodup)
    (hxs : xs = ys ++ b :: zs) : xs.getLast? = some b ↔ zs = [] := by
  subst hxs
  rw [List.getLast?_append, List.getLast?_cons]
  constructor
  · intro h
    cases zs with
    | nil => rfl
    | cons z zs =>
      exfalso
      have hb : (z :: zs).getLast (by simp) = b := by
        simpa [List.getLast?_eq_getLast_of_ne_nil] using h
      have hmem : b ∈ z :: zs := hb ▸ List.getLast_mem _
      exact (List.nodup_cons.1 (List.nodup_append.1 hnodup).2.1).1 hmem
  · rintro rfl
    rfl

theorem Represents.pushBack {l : Links α} {xs : List α} (h : l.Represents xs) {a : α}
    (ha : a ∉ xs) : (l.pushBack a).Represents (xs ++ [a]) := by
  have hsplit : ∀ ys b zs, xs ++ [a] = ys ++ b :: zs →
      (zs = [] ∧ b = a ∧ ys = xs) ∨ ∃ zs', zs = zs' ++ [a] ∧ xs = ys ++ b :: zs' := by
    intro ys b zs heq
    rcases List.eq_nil_or_concat zs with rfl | ⟨zs', c, rfl⟩
    · obtain ⟨h1, h2⟩ := List.append_inj' heq rfl
      cases h2
      exact .inl ⟨rfl, rfl, h1.symm⟩
    · rw [List.concat_eq_append, ← List.cons_append, ← List.append_assoc] at heq
      obtain ⟨h1, h2⟩ := List.append_inj' heq rfl
      cases h2
      exact .inr ⟨zs', List.concat_eq_append, h1⟩
  have hne : ∀ ys b zs, xs = ys ++ b :: zs → b ≠ a := by
    rintro ys b zs rfl rfl
    exact ha (by simp)
  refine ⟨?_, ?_, ?_, fun ys b zs heq => ?_, fun ys b zs heq => ?_⟩
  · exact h.nodup.append (List.nodup_singleton a) (by simpa using ha)
  · show (if l.tail = none then some a else l.head) = (xs ++ [a]).head?
    rw [h.tail, h.head]
    cases xs <;> simp
  · simp [Links.pushBack]
  · show (if b = a then none else if l.tail = some b then some a else l.next b) = zs.head?
    rcases hsplit ys b zs heq with ⟨rfl, rfl, -⟩ | ⟨zs', rfl, hxs⟩
    · simp
    rw [if_neg (hne ys b zs' hxs), h.tail, h.next ys b zs' hxs]
    by_cases hlast : zs' = []
    · rw [if_pos ((getLast?_eq_some_iff_of_nodup h.nodup hxs).2 hlast), hlast]
      rfl
    rw [if_neg (mt (getLast?_eq_some_iff_of_nodup h.nodup hxs).1 hlast)]
    cases zs' with
    | nil => exact absurd rfl hlast
    | cons z zs' => rfl
  · show (if b = a then l.tail else l.previous b) = ys.getLast?
    rcases hsplit ys b zs heq with ⟨-, rfl, rfl⟩ | ⟨zs', -, hxs⟩
    · rw [if_pos rfl, h.tail]
    · rw [if_neg (hne ys b zs' hxs), h.previous ys b zs' hxs]

theorem Represents.unlink {l : Links α} {us vs : List α} {a : α}
    (h : l.Represents (us ++ a :: vs)) : (l.unlink a).Represents (us ++ vs) := by
  have hprevious := h.previous us a vs rfl
  have hnext := h.next us a vs rfl
  have hnodup : (us ++ vs).Nodup := h.nodup.sublist (by simp)
  have hmem : a ∉ us ++ vs := by
    have := (List.perm_middle.nodup_iff.1 h.nodup)
    exact (List.nodup_cons.1 this).1
  have hdisjoint : ∀ x ∈ us, x ∉ vs := fun x hu hv => (List.nodup_append.1 hnodup).2.2 x hu x hv rfl
  refine ⟨hnodup, ?_, ?_, fun ys b zs heq => ?_, fun ys b zs heq => ?_⟩
  · show (if l.previous a = none then l.next a else l.head) = (us ++ vs).head?
    rw [hprevious, hnext, h.head]
    cases us with
    | nil => simp
    | cons u us => simp [List.getLast?_cons]
  · show (if l.next a = none then l.previous a else l.tail) = (us ++ vs).getLast?
    rw [hprevious, hnext, h.tail]
    cases vs with
    | nil => simp
    | cons v vs => simp [List.getLast?_append, List.getLast?_cons]
  · show (if b = a then none else if l.previous a = some b then l.next a else l.next b) = zs.head?
    have hba : b ≠ a := by
      rintro rfl
      exact hmem (by simp [heq])
    rw [if_neg hba, hprevious, hnext]
    rcases List.append_eq_append_iff.1 heq with ⟨cs, hys, hvs⟩ | ⟨cs, hus, hzs⟩
    · -- `b` comes after `a`.
      have hvb : b ∈ vs := by simp [hvs]
      rw [if_neg, h.next (us ++ a :: cs) b zs (by simp [hvs])]
      intro hlast
      exact hdisjoint b (List.mem_of_getLast? hlast) hvb
    · cases cs with
      | nil =>
        obtain rfl : us = ys := by simpa using hus
        have hvs : vs = b :: zs := by simpa using hzs.symm
        rw [if_neg, h.next (us ++ [a]) b zs (by simp [hvs])]
        intro hlast
        exact hdisjoint b (List.mem_of_getLast? hlast) (by simp [hvs])
      | cons c cs =>
        obtain ⟨rfl, rfl⟩ : b = c ∧ zs = cs ++ vs := by simpa using hzs
        rw [h.next ys b (cs ++ a :: vs) (by simp [hus])]
        by_cases hcs : cs = []
        · rw [if_pos, hcs]
          · rfl
          · rw [hus, hcs]
            simp
        · rw [if_neg]
          · cases cs with
            | nil => exact absurd rfl hcs
            | cons c cs => rfl
          · have hsub : us.Nodup := hnodup.sublist (by simp)
            exact mt (getLast?_eq_some_iff_of_nodup hsub hus).1 hcs
  · show (if b = a then none else if l.next a = some b then l.previous a else l.previous b) =
      ys.getLast?
    have hba : b ≠ a := by
      rintro rfl
      exact hmem (by simp [heq])
    rw [if_neg hba, hprevious, hnext]
    rcases List.append_eq_append_iff.1 heq with ⟨cs, hys, hvs⟩ | ⟨cs, hus, hzs⟩
    · rw [h.previous (us ++ a :: cs) b zs (by simp [hvs]), hys]
      cases cs with
      | nil => simp [hvs]
      | cons c cs =>
        have hbc : b ≠ c := by
          rintro rfl
          have hsub : vs.Nodup := hnodup.sublist (by simp)
          rw [hvs, List.cons_append] at hsub
          exact (List.nodup_cons.1 hsub).1 (by simp)
        simp [hvs, Ne.symm hbc, List.getLast?_append, List.getLast?_cons]
    · cases cs with
      | nil =>
        obtain rfl : us = ys := by simpa using hus
        have hvs : vs = b :: zs := by simpa using hzs.symm
        simp [hvs]
      | cons c cs =>
        obtain ⟨rfl, rfl⟩ : b = c ∧ zs = cs ++ vs := by simpa using hzs
        rw [if_neg, h.previous ys b (cs ++ a :: vs) (by simp [hus])]
        intro hhead
        exact hdisjoint b (by simp [hus]) (List.mem_of_head? hhead)

end Links
end Lib
