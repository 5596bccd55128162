import Diameter.Lib.Checked
import Mathlib.Data.List.AList

/-!
# Lib.GoMap

Maps with the iteration of Go's `range`: a finite map, and an order in which the entries of any
list are visited that is only known to be a permutation. A loop over a map is modelled by
folding over `ord.order site m.entries`; a result proved for every `RangeOrder` holds for every
order the runtime may choose.
-/

namespace Lib

abbrev GoMap (K V : Type) := AList (fun _ : K => V)

/-- The order each `range` statement, told apart by a number, visits its entries in. -/
structure RangeOrder where
  order : Nat → (α : Type) → List α → List α
  perm : ∀ site α l, (order site α l).Perm l

namespace RangeOrder

def insertionOrder : RangeOrder := ⟨fun _ _ l => l, fun _ _ l => List.Perm.refl l⟩

theorem mem_order (ord : RangeOrder) {site : Nat} {α : Type} {l : List α} {x : α} :
    x ∈ ord.order site α l ↔ x ∈ l :=
  (ord.perm site α l).mem_iff

theorem forM_order {ε α : Type} (ord : RangeOrder) {site : Nat} {check : α → Except ε Unit}
    {l : List α} : (ord.order site α l).forM check = .ok () ↔ ∀ x ∈ l, check x = .ok () := by
  rw [forM_eq_ok]
  exact forall_congr' fun x => by rw [ord.mem_order]

end RangeOrder

/-- Go's `m[k]` for a map of slices: an absent key reads as the empty slice. -/
def GoMap.at {K V : Type} [DecidableEq K] (m : GoMap K (List V)) (k : K) : List V :=
  (m.lookup k).getD []

namespace GoMap

variable {K V α : Type} [DecidableEq K]

theorem mem_entries {m : GoMap K V} {k : K} {v : V} (h : m.lookup k = some v) :
    (⟨k, v⟩ : Sigma fun _ : K => V) ∈ m.entries :=
  AList.mem_lookup_iff.1 h

theorem lookup_of_mem {m : GoMap K V} {k : K} {v : V}
    (h : (⟨k, v⟩ : Sigma fun _ : K => V) ∈ m.entries) : m.lookup k = some v :=
  AList.mem_lookup_iff.2 h

theorem forM_range {ε : Type} {ord : RangeOrder} {site : Nat} {m : GoMap K V}
    {check : (Sigma fun _ : K => V) → Except ε Unit}
    (h : (ord.order site _ m.entries).forM check = .ok ()) {k : K} {v : V}
    (hk : m.lookup k = some v) : check ⟨k, v⟩ = .ok () :=
  ord.forM_order.1 h _ (mem_entries hk)

theorem mem_keys {m : GoMap K V} {k : K} : k ∈ m.keys ↔ (m.lookup k).isSome = true := by
  rw [AList.lookup_isSome]
  exact Iff.rfl

theorem lookup_insert_eq (m : GoMap K V) (k k' : K) (v : V) :
    (m.insert k v).lookup k' = if k' = k then some v else m.lookup k' := by
  split
  next h => rw [h, AList.lookup_insert]
  next h => exact AList.lookup_insert_ne h

theorem lookup_erase_eq (m : GoMap K V) (k k' : K) :
    (m.erase k).lookup k' = if k' = k then none else m.lookup k' := by
  split
  next h => rw [h, AList.lookup_erase]
  next h => exact AList.lookup_erase_ne h

theorem isSome_of_erase {m : GoMap K V} {k k' : K} (h : ((m.erase k).lookup k').isSome = true) :
    (m.lookup k').isSome = true := by
  rw [lookup_erase_eq] at h
  split at h
  · cases h
  · exact h

/-- The number of values with a property. -/
def count (m : GoMap K V) (p : V → Bool) : Nat := m.entries.countP fun e => p e.2

theorem count_erase {m : GoMap K V} {k : K} {v : V} (p : V → Bool) (h : m.lookup k = some v) :
    count (m.erase k) p + (p v).toNat = count m p := by
  have hkey : k ∈ m.entries.keys := mem_keys.2 (by rw [h]; rfl)
  obtain ⟨v', l1, l2, hnot, hentries, herase⟩ := List.exists_of_kerase hkey
  obtain rfl : v' = v := by
    have hmem : (⟨k, v'⟩ : Sigma fun _ : K => V) ∈ m.entries := by
      rw [hentries]
      exact List.mem_append_right _ (List.mem_cons_self ..)
    exact Option.some.inj ((lookup_of_mem hmem).symm.trans h)
  have hcount : count (m.erase k) p = (l1 ++ l2).countP fun e => p e.2 := by
    rw [← herase]
    rfl
  rw [hcount, count, hentries, List.countP_append, List.countP_append, List.countP_cons]
  cases p v' <;> simp
  omega

theorem count_insert_new {m : GoMap K V} {k : K} (v : V) (p : V → Bool) (h : m.lookup k = none) :
    count (m.insert k v) p = count m p + (p v).toNat := by
  have hnot : k ∉ m := AList.lookup_eq_none.1 h
  rw [count, AList.entries_insert_of_notMem hnot, List.countP_cons, count]
  cases p v <;> simp

theorem count_insert {m : GoMap K V} {k : K} {v : V} (v' : V) (p : V → Bool)
    (h : m.lookup k = some v) :
    count (m.insert k v') p + (p v).toNat = count m p + (p v').toNat := by
  have hinsert : count (m.insert k v') p = count (m.erase k) p + (p v').toNat := by
    show List.countP _ (m.insert k v').entries = List.countP _ (List.kerase k m.entries) + _
    rw [AList.entries_insert, List.countP_cons]
    cases p v' <;> simp
  have herase := count_erase p h
  omega

theorem count_insert_le {m : GoMap K V} (k : K) (v : V) (p : V → Bool) :
    count (m.insert k v) p ≤ count m p + (p v).toNat := by
  cases h : m.lookup k with
  | none => exact Nat.le_of_eq (count_insert_new v p h)
  | some v' =>
    have := count_insert v p h
    omega

theorem count_pos {m : GoMap K V} {k : K} {v : V} {p : V → Bool} (h : m.lookup k = some v)
    (hp : p v = true) : 0 < count m p :=
  List.countP_pos_iff.2 ⟨⟨k, v⟩, mem_entries h, hp⟩

theorem count_eq_zero {m : GoMap K V} {p : V → Bool}
    (h : ∀ k v, m.lookup k = some v → p v = false) : count m p = 0 := by
  refine List.countP_eq_zero.2 fun e he => ?_
  rw [h e.1 e.2 (lookup_of_mem he)]
  decide

theorem lookup_empty_eq (k : K) : (∅ : GoMap K V).lookup k = none :=
  AList.lookup_empty k

/-! ## Filling a map -/

theorem lookup_foldl_insert (key : α → K) (val : α → V) (l : List α) (m : GoMap K V) (k : K) :
    (l.foldl (fun m a => m.insert (key a) (val a)) m).lookup k =
      ((l.filter fun a => key a = k).getLast?.map val).or (m.lookup k) := by
  induction l generalizing m with
  | nil => rfl
  | cons a l ih =>
    rw [List.foldl_cons, ih, lookup_insert_eq, List.filter_cons]
    by_cases h : key a = k
    · rw [if_pos h.symm, if_pos (decide_eq_true h), List.getLast?_cons]
      cases (l.filter fun a => decide (key a = k)).getLast? <;> rfl
    · rw [if_neg (fun h' => h h'.symm), if_neg (by simpa using h)]

/-- Writes `v` unless the key is present, as in `if _, ok := m[k]; !ok { m[k] = v }`. -/
def insertNew (m : GoMap K V) (k : K) (v : V) : GoMap K V :=
  if (m.lookup k).isSome then m else m.insert k v

theorem lookup_insertNew (m : GoMap K V) (k k' : K) (v : V) :
    (m.insertNew k v).lookup k' = (m.lookup k').or (if k' = k then some v else none) := by
  unfold insertNew
  by_cases hk : k' = k
  · subst hk
    rw [if_pos rfl]
    cases hm : m.lookup k' with
    | some w => simp [hm]
    | none => simp [AList.lookup_insert]
  · rw [if_neg hk, Option.or_none]
    split
    · rfl
    · exact AList.lookup_insert_ne hk

/-- Go's `m[k] = append(m[k], v)`. -/
def append (m : GoMap K (List V)) (k : K) (v : V) : GoMap K (List V) := m.insert k (m.at k ++ [v])

theorem at_append (m : GoMap K (List V)) (k k' : K) (v : V) :
    (m.append k v).at k' = if k' = k then m.at k ++ [v] else m.at k' := by
  unfold append GoMap.at
  rw [lookup_insert_eq]
  split <;> rfl

theorem at_foldl_append (key : α → K) (val : α → V) (l : List α) (m : GoMap K (List V)) (k : K) :
    (l.foldl (fun m a => m.append (key a) (val a)) m).at k =
      m.at k ++ (l.filter fun a => key a = k).map val := by
  induction l generalizing m with
  | nil => simp
  | cons a l ih =>
    rw [List.foldl_cons, ih, at_append, List.filter_cons]
    by_cases h : key a = k
    · rw [if_pos h.symm, if_pos (decide_eq_true h), List.map_cons, h, List.append_assoc,
        List.singleton_append]
    · rw [if_neg (fun h' => h h'.symm), if_neg (by simpa using h)]

/-! ## Filling a map once -/

section New

variable {ε : Type} {key : α → K} {val : α → V} {add : GoMap K V → α → Except ε (GoMap K V)}

section

variable
  (hnew : ∀ m a, m.lookup (key a) = none → add m a = .ok (m.insert (key a) (val a)))
  (hold : ∀ m a m', add m a = .ok m' → m.lookup (key a) = none)
include hnew hold

theorem foldlM_new_isOk {l : List α} {m : GoMap K V} : (∃ m', l.foldlM add m = .ok m') ↔
      (l.map key).Nodup ∧ ∀ a ∈ l, m.lookup (key a) = none := by
  induction l generalizing m with
  | nil => exact ⟨fun _ => ⟨List.nodup_nil, fun a ha => (List.not_mem_nil ha).elim⟩,
      fun _ => ⟨m, rfl⟩⟩
  | cons a l ih =>
    have hfresh : (∀ b ∈ l, (m.insert (key a) (val a)).lookup (key b) = none) ↔
        key a ∉ l.map key ∧ ∀ b ∈ l, m.lookup (key b) = none := by
      constructor
      · intro h
        refine ⟨fun hmem => ?_, fun b hb => ?_⟩
        · obtain ⟨b, hb, hkey⟩ := List.mem_map.1 hmem
          have := h b hb
          rw [hkey, AList.lookup_insert] at this
          cases this
        · have := h b hb
          rw [lookup_insert_eq] at this
          split at this
          · cases this
          · exact this
      · rintro ⟨hnot, h⟩ b hb
        rw [lookup_insert_eq, if_neg fun heq => hnot (List.mem_map.2 ⟨b, hb, heq⟩)]
        exact h b hb
    rw [List.map_cons, List.nodup_cons, List.forall_mem_cons]
    constructor
    · rintro ⟨m', h⟩
      rw [List.foldlM_cons] at h
      obtain ⟨m1, h1, hrest⟩ := bind_eq_ok.1 h
      have hnone := hold m a m1 h1
      rw [hnew m a hnone] at h1
      cases h1
      obtain ⟨hnodup, hl⟩ := ih.1 ⟨m', hrest⟩
      obtain ⟨hnot, hl⟩ := hfresh.1 hl
      exact ⟨⟨hnot, hnodup⟩, hnone, hl⟩
    · rintro ⟨⟨hnot, hnodup⟩, hnone, hl⟩
      obtain ⟨m', h⟩ := ih.2 ⟨hnodup, hfresh.2 ⟨hnot, hl⟩⟩
      exact ⟨m', by rw [List.foldlM_cons, hnew m a hnone]; exact h⟩

end

end New

end GoMap

end Lib
