import Mathlib.Tactic

/-!
# Lib.InOrder

Lists that start with given keys in a given order, and bounds on how often something occurs.

A scanner sees a list one element at a time, so what it enforces is a condition on each element
and the part of the list before it. The lemmas here turn such conditions into statements about
the whole list:

* `inOrder_iff_split`, `inOrder_iff`: every element comes after nothing that is later in the order,
  exactly if the list is `f₁ … f₁ f₂ … f₂ …` followed by elements outside the order.
* `countP_le_iff_split`: no occurrence exceeds a bound, exactly if the total does not.
-/

namespace Lib

variable {K : Type} [DecidableEq K]

/-- Keys are in the order of `fs`, and keys outside `fs` come last. -/
def InOrder (fs ks : List K) : Prop := ks.Pairwise fun k k' => fs.idxOf k ≤ fs.idxOf k'

theorem inOrder_append_singleton {fs ks : List K} {k : K} :
    InOrder fs (ks ++ [k]) ↔ InOrder fs ks ∧ ∀ k' ∈ ks, fs.idxOf k' ≤ fs.idxOf k := by
  simp [InOrder, List.pairwise_append]

theorem InOrder.cons_order {f : K} {fs ks : List K} (h : InOrder (f :: fs) ks) :
    ∃ n ks', ks = List.replicate n f ++ ks' ∧ f ∉ ks' ∧ InOrder fs ks' := by
  induction ks with
  | nil => exact ⟨0, [], rfl, by simp, List.Pairwise.nil⟩
  | cons k ks ih =>
    obtain ⟨hk, hks⟩ := List.pairwise_cons.1 h
    by_cases hkf : k = f
    · obtain ⟨n, ks', rfl, hnot, hord⟩ := ih hks
      exact ⟨n + 1, ks', by rw [hkf]; rfl, hnot, hord⟩
    have hpos : 0 < (f :: fs).idxOf k := by rw [List.idxOf_cons_ne _ (Ne.symm hkf)]; omega
    have hnot : f ∉ k :: ks := by
      intro hmem
      rcases List.mem_cons.1 hmem with rfl | hmem
      · exact hkf rfl
      have hle := hk f hmem
      rw [List.idxOf_cons_self] at hle
      omega
    refine ⟨0, k :: ks, rfl, hnot, ?_⟩
    refine h.imp_of_mem ?_
    intro a b ha hb hab
    have hne : ∀ x ∈ k :: ks, f ≠ x := fun x hx hfx => hnot (hfx ▸ hx)
    rw [List.idxOf_cons_ne _ (hne a ha), List.idxOf_cons_ne _ (hne b hb)] at hab
    omega

theorem inOrder_iff {fs ks : List K} (hfs : fs.Nodup) :
    InOrder fs ks ↔ ∃ (n : K → Nat) (rest : List K),
      ks = (fs.flatMap fun f => List.replicate (n f) f) ++ rest ∧ ∀ k ∈ rest, k ∉ fs := by
  constructor
  · intro h
    induction fs generalizing ks with
    | nil => exact ⟨fun _ => 0, ks, rfl, by simp⟩
    | cons f fs ih =>
      obtain ⟨hf, hfs⟩ := List.nodup_cons.1 hfs
      obtain ⟨n0, ks', rfl, hnot, hord⟩ := h.cons_order
      obtain ⟨n, rest, rfl, hrest⟩ := ih hfs hord
      refine ⟨Function.update n f n0, rest, ?_, ?_⟩
      · have hflat : (fs.flatMap fun g => List.replicate (Function.update n f n0 g) g)
            = fs.flatMap fun g => List.replicate (n g) g := by
          refine List.flatMap_congr fun g hg => ?_
          have hgf : g ≠ f := fun hgf => hf (hgf ▸ hg)
          rw [Function.update_of_ne hgf]
        rw [List.flatMap_cons, Function.update_self, hflat, List.append_assoc]
      · intro k hk hmem
        rcases List.mem_cons.1 hmem with rfl | hmem
        · exact hnot (List.mem_append_right _ hk)
        · exact hrest k hk hmem
  · rintro ⟨n, rest, rfl, hrest⟩
    have hlast : ∀ k ∈ rest, fs.idxOf k = fs.length := fun k hk =>
      List.idxOf_eq_length_iff.2 (hrest k hk)
    refine List.pairwise_append.2 ⟨List.pairwise_flatMap.2 ⟨?_, ?_⟩, ?_, ?_⟩
    · intro f _
      exact List.pairwise_replicate.2 (.inr (Nat.le_refl _))
    · rw [List.pairwise_iff_getElem]
      intro i j hi hj hij x hx y hy
      rw [List.eq_of_mem_replicate hx, List.eq_of_mem_replicate hy,
        hfs.idxOf_getElem i hi, hfs.idxOf_getElem j hj]
      omega
    · refine List.Pairwise.imp_of_mem ?_ (List.pairwise_of_forall (fun _ _ => trivial))
      intro a b ha hb _
      rw [hlast a ha, hlast b hb]
    · intro a _ b hb
      rw [hlast b hb]
      exact List.idxOf_le_length

theorem countP_le_iff_split {α : Type} {p : α → Bool} {l : List α} {bound : Int} :
    (l.countP p ≤ bound.toNat) ↔
      ∀ pre a post, l = pre ++ a :: post → p a = true → (pre.countP p : Int) + 1 ≤ bound := by
  constructor
  · rintro h pre a post rfl ha
    rw [List.countP_append, List.countP_cons_of_pos ha] at h
    omega
  · intro h
    induction l using List.reverseRecOn with
    | nil => simp
    | append_singleton l a ih =>
      have hl := ih fun pre b post hl hb => h pre b (post ++ [a]) (by simp [hl]) hb
      by_cases ha : p a = true
      · have hlast := h l a [] rfl ha
        rw [List.countP_append, List.countP_cons_of_pos ha, List.countP_nil]
        omega
      · rw [List.countP_append, List.countP_cons_of_neg ha, List.countP_nil]
        omega

end Lib
