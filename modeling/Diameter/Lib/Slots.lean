import Mathlib.Data.List.Basic

/-!
# Lib.Slots

A list as a store of records that are referred to by their position: records are appended and
changed in place (`List.modify`), never moved.
-/

namespace Lib

variable {α β : Type}
variable {f : α → α} {l : List α} {n : Nat}

theorem modify_length_append (l : List α) (a : α) (f : α → α) :
    (l ++ [a]).modify l.length f = l ++ [f a] := by
  induction l with
  | nil => rfl
  | cons x l ih => simpa using ih

theorem map_modify_of_eq {g : α → β} (h : ∀ a, g (f a) = g a) (l : List α) (n : Nat) :
    (l.modify n f).map g = l.map g := by
  induction l generalizing n with
  | nil => simp
  | cons x l ih =>
    cases n with
    | zero => simp [h]
    | succ n => simpa using ih n

theorem modify_congr {a : α} {g : α → α} (ha : l[n]? = some a)
    (h : f a = g a) : l.modify n f = l.modify n g := by
  induction l generalizing n with
  | nil => simp
  | cons x l ih =>
    cases n with
    | zero =>
      simp only [List.getElem?_cons_zero, Option.some.injEq] at ha
      simp [ha, h]
    | succ n => simpa using ih (by simpa using ha)

theorem getElem?_modify_self {a : α} (ha : l[n]? = some a) :
    (l.modify n f)[n]? = some (f a) := by
  simp [ha]

theorem getElem?_modify_ne {m : Nat} (h : m ≠ n) :
    (l.modify n f)[m]? = l[m]? := by
  simp [Ne.symm h]

theorem countP_modify {a : α} (p : α → Bool)
    (ha : l[n]? = some a) :
    (l.modify n f).countP p + (p a).toNat = l.countP p + (p (f a)).toNat := by
  induction l generalizing n with
  | nil => cases ha
  | cons x l ih =>
    cases n with
    | zero =>
      obtain rfl : x = a := by simpa using ha
      rw [List.modify_zero_cons, List.countP_cons, List.countP_cons]
      cases p x <;> cases p (f x) <;> simp
    | succ n =>
      have htail := ih (n := n) (by simpa using ha)
      rw [List.modify_succ_cons, List.countP_cons, List.countP_cons]
      omega

theorem countP_modify_le {p : α → Bool}
    (h : ∀ a, p (f a) = true → p a = true) : (l.modify n f).countP p ≤ l.countP p := by
  cases ha : l[n]? with
  | none => exact Nat.le_of_eq (congrArg _ (List.modify_eq_self (List.getElem?_eq_none_iff.1 ha)))
  | some a =>
    have hcount := countP_modify (f := f) p ha
    have hle : (p (f a)).toNat ≤ (p a).toNat := by
      cases hf : p (f a) with
      | false => exact Nat.zero_le _
      | true => exact Nat.le_of_eq (congrArg _ (h a hf).symm)
    omega

end Lib
