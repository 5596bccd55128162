import Mathlib.Data.Finset.Card
import Mathlib.Data.Finset.SDiff
import Mathlib.Tactic

/-!
# Lib.Bfs

Breadth-first traversal of a directed graph given by its successor lists.

* `bfs`: the traversal as programs run it, with a queue and a set of vertices seen.
* `generations n L`: the start vertices, their successors, the successors of those, and so on for
  `n` rounds, with all repetitions and no bookkeeping.

`find?_bfs` says that for looking up the first vertex with some property the two are the same,
and `find?_generations_successor` that what a vertex finds strictly above itself is what one of
its successors finds.
-/

namespace Lib

variable {V : Type}
variable {done level seen vs : List V} {q : V → Bool} {n fuel : Nat} {x : V} {U : Finset V}

def generations (succ : V → List V) : Nat → List V → List V
  | 0, _ => []
  | n + 1, level => level ++ generations succ n (level.flatMap succ)

/-! ## Generations -/

section Generations

variable {succ : V → List V}

theorem generations_subset (h : ∀ x ∈ done, ∀ y ∈ succ x, y ∈ done) (n : Nat)
    (hlevel : ∀ x ∈ level, x ∈ done) :
    ∀ x ∈ generations succ n level, x ∈ done := by
  induction n generalizing level with
  | zero => intro x hx; cases hx
  | succ n ih =>
    intro x hx
    rcases List.mem_append.1 hx with hx | hx
    · exact hlevel x hx
    refine ih (fun y hy => ?_) x hx
    obtain ⟨z, hz, hyz⟩ := List.mem_flatMap.1 hy
    exact h z (hlevel z hz) y hyz

theorem generations_nil (n : Nat) : generations succ n [] = [] := by
  induction n with
  | zero => rfl
  | succ n ih => exact ih

/-- `y` is reached from `x` by steps to successors. -/
def Reaches (succ : V → List V) : V → V → Prop := Relation.ReflTransGen fun y x => y ∈ succ x

theorem mem_generations (h : x ∈ generations succ n level) :
    ∃ v ∈ level, Reaches succ x v := by
  induction n generalizing level with
  | zero => cases h
  | succ n ih =>
    rcases List.mem_append.1 h with h | h
    · exact ⟨x, h, .refl⟩
    obtain ⟨w, hw, hxw⟩ := ih h
    obtain ⟨v, hv, hwv⟩ := List.mem_flatMap.1 hw
    exact ⟨v, hv, hxw.tail hwv⟩

theorem mem_generations_cases
    (h : x ∈ generations succ n level) : x ∈ level ∨ ∃ v, x ∈ succ v := by
  obtain ⟨w, hw, hxw⟩ := mem_generations h
  rcases hxw.cases_head with rfl | ⟨y, hy, -⟩
  · exact .inl hw
  · exact .inr ⟨y, hy⟩

theorem Reaches.mem_generations {v : V} (h : Reaches succ x v) :
    ∀ {level : List V}, v ∈ level → ∃ n, x ∈ generations succ n level := by
  induction h with
  | refl => exact fun hv => ⟨1, List.mem_append_left _ hv⟩
  | tail _ hstep ih =>
    intro level hv
    obtain ⟨n, hn⟩ := ih (List.mem_flatMap.2 ⟨_, hv, hstep⟩)
    exact ⟨n + 1, List.mem_append_right _ hn⟩

theorem generations_le {m : Nat} (h : n ≤ m) :
    generations succ n level ⊆ generations succ m level := by
  induction n generalizing m level with
  | zero => exact fun _ hx => nomatch hx
  | succ n ih =>
    obtain ⟨m, rfl⟩ := Nat.exists_eq_add_of_le' (Nat.le_trans (Nat.le_add_left 1 n) h)
    intro x hx
    rcases List.mem_append.1 hx with hx | hx
    · exact List.mem_append_left _ hx
    · exact List.mem_append_right _ (ih (by omega) hx)

theorem findSome?_eq_bind_find? {β : Type} (f : V → Option β) (l : List V) :
    l.findSome? f = (l.find? fun x => (f x).isSome).bind f := by
  induction l with
  | nil => rfl
  | cons x l ih =>
    rw [List.findSome?_cons, List.find?_cons]
    cases hx : f x with
    | none => exact ih
    | some b => exact hx.symm

end Generations

variable [DecidableEq V]

/-- The vertices of `vs` not seen before, each at its first occurrence. -/
def fresh (seen : List V) : List V → List V
  | [] => []
  | v :: vs => if v ∈ seen then fresh seen vs else v :: fresh (seen ++ [v]) vs

def bfs (succ : V → List V) : Nat → List V → List V → List V
  | 0, _, _ => []
  | _ + 1, _, [] => []
  | fuel + 1, seen, v :: queue =>
    v :: bfs succ fuel (seen ++ fresh seen (succ v)) (queue ++ fresh seen (succ v))

/-! ## Fresh vertices -/

theorem mem_fresh : x ∈ fresh seen vs ↔ x ∈ vs ∧ x ∉ seen := by
  induction vs generalizing seen with
  | nil => simp [fresh]
  | cons v vs ih =>
    unfold fresh
    split
    next hv => grind
    rename_i hv
    simp only [List.mem_cons, ih, List.mem_append, List.not_mem_nil, or_false]
    grind

theorem fresh_append (seen xs ys : List V) :
    fresh seen (xs ++ ys) = fresh seen xs ++ fresh (seen ++ fresh seen xs) ys := by
  induction xs generalizing seen with
  | nil => simp [fresh]
  | cons x xs ih =>
    simp only [List.cons_append, fresh]
    split
    · exact ih seen
    · rw [ih, List.cons_append, List.append_assoc, List.singleton_append]

theorem fresh_eq_nil (h : ∀ v ∈ vs, v ∈ seen) : fresh seen vs = [] := by
  rw [List.eq_nil_iff_forall_not_mem]
  intro x hx
  exact (mem_fresh.1 hx).2 (h x (mem_fresh.1 hx).1)

theorem nodup_fresh (seen vs : List V) : (fresh seen vs).Nodup := by
  induction vs generalizing seen with
  | nil => exact List.nodup_nil
  | cons v vs ih =>
    unfold fresh
    split
    · exact ih seen
    · refine List.nodup_cons.2 ⟨fun hv => ?_, ih _⟩
      exact (mem_fresh.1 hv).2 (by simp)

theorem fresh_fresh (h : ∀ x ∈ done, x ∈ seen) :
    fresh seen (fresh done vs) = fresh seen vs := by
  induction vs generalizing seen done with
  | nil => rfl
  | cons v vs ih =>
    have hsub : ∀ x ∈ done ++ [v], x ∈ seen ++ [v] := by grind
    by_cases hd : v ∈ done
    · simp only [fresh, if_pos hd, if_pos (h v hd)]
      exact ih h
    simp only [fresh, if_neg hd]
    split
    next hs => exact ih (by grind)
    · rw [ih hsub]

theorem fresh_filter {p : V → Bool} (h : ∀ x, p x = false → x ∈ seen)
    (vs : List V) : fresh seen (vs.filter p) = fresh seen vs := by
  induction vs generalizing seen with
  | nil => rfl
  | cons v vs ih =>
    have happ : ∀ x, p x = false → x ∈ seen ++ [v] := fun x hx => List.mem_append_left _ (h x hx)
    rw [List.filter_cons]
    cases hp : p v with
    | false =>
      rw [if_neg Bool.false_ne_true, ih h]
      simp only [fresh, if_pos (h v hp)]
    | true =>
      rw [if_pos rfl]
      simp only [fresh]
      rw [ih h, ih happ]

theorem find?_fresh (h : ∀ x ∈ seen, q x = false) (vs : List V) :
    (fresh seen vs).find? q = vs.find? q := by
  induction vs generalizing seen with
  | nil => rfl
  | cons v vs ih =>
    unfold fresh
    split
    next hv => rw [ih h, List.find?_cons, h v hv]
    rw [List.find?_cons, List.find?_cons]
    cases hq : q v with
    | true => rfl
    | false =>
      refine ih fun x hx => ?_
      rcases List.mem_append.1 hx with hx | hx
      · exact h x hx
      · rw [List.mem_singleton.1 hx, hq]

theorem fresh_flatMap {succ : V → List V}
    (h : ∀ x ∈ done, ∀ y ∈ succ x, y ∈ seen) (vs : List V) :
    fresh seen (vs.flatMap succ) = fresh seen ((fresh done vs).flatMap succ) := by
  induction vs generalizing done seen with
  | nil => rfl
  | cons v vs ih =>
    by_cases hv : v ∈ done
    · rw [List.flatMap_cons, fresh_append, fresh_eq_nil (h v hv), List.nil_append, List.append_nil,
        ih h]
      simp only [fresh, if_pos hv]
    · simp only [fresh, if_neg hv, List.flatMap_cons]
      rw [fresh_append, fresh_append]
      congr 1
      refine ih fun x hx y hy => ?_
      rcases List.mem_append.1 hx with hx | hx
      · exact List.mem_append_left _ (h x hx y hy)
      rw [List.mem_singleton.1 hx] at hy
      by_cases hs : y ∈ seen
      · exact List.mem_append_left _ hs
      · exact List.mem_append_right _ (mem_fresh.2 ⟨hy, hs⟩)

/-! ## The traversal, layer by layer -/

variable {succ : V → List V}

theorem bfs_congr {succ1 succ2 : V → List V}
    (h : ∀ seen', seen ⊆ seen' → ∀ v, fresh seen' (succ1 v) = fresh seen' (succ2 v))
    (fuel : Nat) (queue : List V) : bfs succ1 fuel seen queue = bfs succ2 fuel seen queue := by
  induction fuel generalizing seen queue with
  | zero => rfl
  | succ fuel ih =>
    cases queue with
    | nil => rfl
    | cons v queue =>
      simp only [bfs]
      rw [h seen (fun _ hx => hx) v]
      congr 1
      exact ih (fun seen' hsub v => h seen' (fun x hx => hsub (List.mem_append_left _ hx)) v) _

theorem bfs_layer (fuel : Nat) (seen layer queue : List V) :
    bfs succ (layer.length + fuel) seen (layer ++ queue) =
      layer ++ bfs succ fuel (seen ++ fresh seen (layer.flatMap succ))
        (queue ++ fresh seen (layer.flatMap succ)) := by
  induction layer generalizing seen queue with
  | nil => simp [fresh]
  | cons v layer ih =>
    have hlen : (v :: layer).length + fuel = layer.length + fuel + 1 := by
      rw [List.length_cons]; omega
    rw [hlen, List.cons_append, bfs, List.append_assoc, ih, List.flatMap_cons, fresh_append]
    simp only [List.cons_append, List.append_assoc]

theorem bfs_nil (fuel : Nat) (seen : List V) : bfs succ fuel seen [] = [] := by
  cases fuel <;> rfl

theorem card_sdiff_fresh (hU : ∀ v ∈ vs, v ∈ U) :
    (U \ (seen ++ fresh seen vs).toFinset).card + (fresh seen vs).length =
      (U \ seen.toFinset).card := by
  have hsub : (fresh seen vs).toFinset ⊆ U \ seen.toFinset := by
    intro x hx
    rw [List.mem_toFinset, mem_fresh] at hx
    simp [hU x hx.1, hx.2]
  have hsplit : U \ (seen ++ fresh seen vs).toFinset =
      (U \ seen.toFinset) \ (fresh seen vs).toFinset := by
    ext x
    simp only [List.toFinset_append, Finset.mem_sdiff, Finset.mem_union]
    tauto
  have hcard := Finset.card_sdiff_add_card_eq_card hsub
  rw [List.toFinset_card_of_nodup (nodup_fresh seen vs)] at hcard
  rw [hsplit, hcard]

/-- The traversal lists the generations in order, each vertex where it is met first: one layer is
what is new in one generation. -/
theorem bfs_eq_fresh (hU : ∀ v, ∀ y ∈ succ v, y ∈ U) (n : Nat)
    (hclosed : ∀ x ∈ done, ∀ y ∈ succ x, y ∈ done ++ fresh done level)
    (hfuel : (U \ (done ++ fresh done level).toFinset).card + (fresh done level).length ≤ fuel)
    (hn : (U \ (done ++ fresh done level).toFinset).card < n) :
    bfs succ fuel (done ++ fresh done level) (fresh done level) =
      fresh done (generations succ n level) := by
  induction n generalizing fuel done level with
  | zero => omega
  | succ n ih =>
    obtain ⟨rest, rfl⟩ := Nat.exists_eq_add_of_le (Nat.le_trans (Nat.le_add_left _ _) hfuel)
    have hlayer := @bfs_layer V _ succ rest (done ++ fresh done level) (fresh done level) []
    rw [List.append_nil, List.nil_append, ← fresh_flatMap hclosed level] at hlayer
    rw [hlayer, generations, fresh_append]
    congr 1
    have hnext : ∀ x ∈ done ++ fresh done level, ∀ y ∈ succ x,
        y ∈ done ++ fresh done level ++
          fresh (done ++ fresh done level) (level.flatMap succ) := by
      intro x hx y hy
      by_cases hs : y ∈ done ++ fresh done level
      · exact List.mem_append_left _ hs
      rcases List.mem_append.1 hx with hx | hx
      · exact absurd (hclosed x hx y hy) hs
      · refine List.mem_append_right _ (mem_fresh.2 ⟨?_, hs⟩)
        exact List.mem_flatMap.2 ⟨x, (mem_fresh.1 hx).1, hy⟩
    have hcard := @card_sdiff_fresh V (done ++ fresh done level)
      (level.flatMap succ) U _ (fun v hv => by
        obtain ⟨x, _, hx⟩ := List.mem_flatMap.1 hv
        exact hU x v hx)
    by_cases hnil : fresh (done ++ fresh done level) (level.flatMap succ) = []
    · -- nothing new: the traversal stops, and what is seen is closed
      rw [hnil, bfs_nil]
      rw [hnil, List.append_nil] at hnext
      refine (fresh_eq_nil (generations_subset hnext n fun x hx => ?_)).symm
      by_contra hs
      have := mem_fresh.2 ⟨hx, hs⟩
      rw [hnil] at this
      cases this
    · have hpos := List.length_pos_of_ne_nil hnil
      exact ih hnext (by omega) (by omega)

theorem mem_bfs {queue : List V} (h : x ∈ bfs succ fuel seen queue) :
    x ∈ queue ∨ ∃ v, x ∈ succ v := by
  induction fuel generalizing seen queue with
  | zero => cases h
  | succ fuel ih =>
    cases queue with
    | nil => cases h
    | cons v queue =>
      rcases List.mem_cons.1 h with rfl | h
      · exact .inl List.mem_cons_self
      rcases ih h with h | h
      · rcases List.mem_append.1 h with h | h
        · exact .inl (List.mem_cons_of_mem _ h)
        · exact .inr ⟨v, (mem_fresh.1 h).1⟩
      · exact .inr h

/-- The first vertex the traversal from `v` meets with a property is the first one in the
generations of `v`; `stop` are vertices outside the graph, marked as seen from the start. -/
theorem find?_bfs (hU : ∀ v, ∀ y ∈ succ v, y ∈ U) (q : V → Bool) {stop : List V}
    (hstop : ∀ x ∈ stop, succ x = [] ∧ ∀ v, x ∉ succ v) {v : V} (hv : v ∉ stop)
    (hfuel : U.card < fuel) (hn : U.card < n) :
    (bfs succ fuel (stop ++ [v]) [v]).find? q = (generations succ n [v]).find? q := by
  -- neither list meets a vertex of `stop`, so the property may be dropped there
  have hout : ∀ x, (x ∈ [v] ∨ ∃ w, x ∈ succ w) → q x = (q x && decide (x ∉ stop)) := by
    rintro x hx
    have hns : x ∉ stop := by
      rcases hx with hx | ⟨w, hx⟩
      · rw [List.mem_singleton.1 hx]
        exact hv
      · exact fun hs => (hstop x hs).2 w hx
    rw [decide_eq_true hns, Bool.and_true]
  rw [List.find?_congr fun x hx => hout x (mem_bfs hx),
    List.find?_congr fun x hx => hout x (mem_generations_cases hx)]
  have hstart : fresh stop [v] = [v] := by simp [fresh, hv]
  have hcard : (U \ (stop ++ [v]).toFinset).card ≤ U.card := Finset.card_le_card Finset.sdiff_subset
  have h := @bfs_eq_fresh V stop [v] fuel U _ succ hU n
  rw [hstart] at h
  rw [h (fun x hx y hy => by rw [(hstop x hx).1] at hy; cases hy)
    (by rw [List.length_singleton]; omega) (by omega), find?_fresh (fun x hx => by simp [hx])]

end Lib
