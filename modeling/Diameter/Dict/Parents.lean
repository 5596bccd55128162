import Diameter.Dict.Index

/-!
# Dict.Parents

The check of the declared parents: `validateParents` passes exactly when base inherits nothing,
every parent is a declared AVP application, and no application is its own ancestor. Then
`ancestorApps` lists the ancestors generation by generation (`ancestorApps_generations`).

The depth-first search finds a cycle wherever it starts. What it has finished is well-founded
(`visit_sound`). Without a cycle the applications on its path are distinct and none is met twice, so
it never fails, and its fuel lasts (`visit_complete`).
-/

namespace Diameter.Dict

namespace Snapshot

open Lib

variable {state state' : GoMap UInt32 Mark} {path : List UInt32} {id : UInt32}

section Search

variable {parents : GoMap UInt32 (List UInt32)}

/-- The chains of parents from the application end. -/
def Grounded (parents : UInt32 → List UInt32) (app : UInt32) : Prop :=
  Acc (fun p a => p ∈ parents a) app

/-- Everything the search has finished is well-founded. -/
def Finished (parents : GoMap UInt32 (List UInt32)) (state : GoMap UInt32 Mark) : Prop :=
  ∀ x, state.lookup x = some .finished → Grounded parents.at x

theorem Finished.insert_active (h : Finished parents state) (id : UInt32) :
    Finished parents (state.insert id .active) := by
  intro x hx
  rw [GoMap.lookup_insert_eq] at hx
  split at hx
  · cases hx
  · exact h x hx

theorem Finished.insert_finished (h : Finished parents state) (hid : Grounded parents.at id) :
    Finished parents (state.insert id .finished) := by
  intro x hx
  rw [GoMap.lookup_insert_eq] at hx
  split at hx
  next heq => exact heq ▸ hid
  · exact h x hx

theorem foldlM_visit_sound {visit : GoMap UInt32 Mark → UInt32 → Except Error (GoMap UInt32 Mark)}
    (hvisit : ∀ {state state' id}, visit state id = .ok state' → Finished parents state →
      Finished parents state' ∧ Grounded parents.at id) {ids : List UInt32}
    (h : ids.foldlM visit state = .ok state')
    (hstate : Finished parents state) :
    Finished parents state' ∧ ∀ id ∈ ids, Grounded parents.at id := by
  induction ids generalizing state with
  | nil =>
    cases h
    exact ⟨hstate, fun id hid => (List.not_mem_nil hid).elim⟩
  | cons id ids ih =>
    rw [List.foldlM_cons] at h
    obtain ⟨state1, h1, h⟩ := bind_eq_ok.1 h
    obtain ⟨hstate1, hid⟩ := hvisit h1 hstate
    obtain ⟨hstate', hids⟩ := ih h hstate1
    exact ⟨hstate', List.forall_mem_cons.2 ⟨hid, hids⟩⟩

/-- A search that does not fail starts from a well-founded application. -/
theorem visit_sound {fuel : Nat}
    (h : visit parents fuel state id = .ok state') (hstate : Finished parents state) :
    Finished parents state' ∧ Grounded parents.at id := by
  induction fuel generalizing state state' id with
  | zero => cases h
  | succ fuel ih =>
    rw [visit] at h
    split at h
    · cases h
    next hfinished =>
      cases h
      exact ⟨hstate, hstate id hfinished⟩
    · split at h
      · cases h
      next state1 hfold =>
        cases h
        obtain ⟨hstate1, hparents⟩ := foldlM_visit_sound ih hfold (hstate.insert_active id)
        have hid : Grounded parents.at id := Acc.intro id hparents
        exact ⟨hstate1.insert_finished hid, hid⟩

/-- The applications marked active are those on the path. -/
def Active (path : List UInt32) (state : GoMap UInt32 Mark) : Prop :=
  ∀ x, state.lookup x = some .active ↔ x ∈ path

theorem Active.push (h : Active path state) (id : UInt32) :
    Active (id :: path) (state.insert id .active) := by
  intro x
  rw [GoMap.lookup_insert_eq, List.mem_cons]
  split
  next heq => exact ⟨fun _ => .inl heq, fun _ => rfl⟩
  rename_i hne
  rw [h x]
  exact ⟨.inr, fun h => h.resolve_left hne⟩

theorem Active.pop (h : Active (id :: path) state) (hnot : id ∉ path) :
    Active path (state.insert id .finished) := by
  intro x
  rw [GoMap.lookup_insert_eq]
  split
  next heq =>
    rw [heq]
    exact ⟨fun h => (by cases h), fun h => absurd h hnot⟩
  next hne =>
    rw [h x, List.mem_cons]
    exact ⟨fun h => h.resolve_left hne, .inr⟩

theorem mem_keys_of_mem_at {id p : UInt32} (h : p ∈ parents.at id) : id ∈ parents.keys := by
  rw [GoMap.mem_keys, lookup_of_mem_at h]
  rfl

/-- Without a cycle a search succeeds and leaves its path as it was. -/
theorem visit_complete (hwf : ∀ app, Grounded parents.at app) {fuel : Nat}
    (hstate : Active path state) (hnodup : path.Nodup) (hkeys : path ⊆ parents.keys)
    (habove : ∀ x ∈ path, Relation.TransGen (fun a p => p ∈ parents.at a) x id)
    (hfuel : parents.keys.length + 2 ≤ fuel + path.length) :
    ∃ state', visit parents fuel state id = .ok state' ∧ Active path state' := by
  induction fuel generalizing path state id with
  | zero =>
    have := (List.subperm_of_subset hnodup hkeys).length_le
    omega
  | succ fuel ih =>
    have hnot : id ∉ path := fun hid => by
      have hloop : Relation.TransGen (fun p a => p ∈ parents.at a) id id :=
        Relation.transGen_swap.2 (habove id hid)
      exact (WellFounded.intro hwf).transGen.irrefl.irrefl id hloop
    rw [visit]
    split
    next hactive => exact absurd ((hstate id).1 hactive) hnot
    · exact ⟨state, rfl, hstate⟩
    have hparents : ∀ p ∈ parents.at id, ∀ state', Active (id :: path) state' →
        ∃ state'', visit parents fuel state' p = .ok state'' ∧ Active (id :: path) state'' := by
      intro p hp state' hstate'
      refine ih hstate' (List.nodup_cons.2 ⟨hnot, hnodup⟩)
        (List.cons_subset.2 ⟨mem_keys_of_mem_at hp, hkeys⟩) ?_ (by rw [List.length_cons]; omega)
      intro x hx
      rcases List.mem_cons.1 hx with rfl | hx
      · exact .single hp
      · exact .tail (habove x hx) hp
    obtain ⟨state1, hfold, hstate1⟩ := foldlM_total hparents (hstate.push id)
    rw [hfold]
    exact ⟨_, rfl, hstate1.pop hnot⟩

end Search

/-- What `validateParents` checks, without an order. -/
structure GoodParents (s : Snapshot) : Prop where
  base : s.parents.at 0 = []
  parent : ∀ app, ∀ p ∈ s.parents.at app, s.checkParent app p = .ok ()
  grounded : ∀ app, Grounded s.parents.at app

theorem validateParents_iff {ord : RangeOrder} {s : Snapshot} :
    s.validateParents ord = .ok () ↔ s.GoodParents := by
  have hentries : (ord.order 0 _ s.parents.entries).forM
      (fun entry => entry.2.forM (s.checkParent entry.1)) = .ok () ↔
        ∀ app, ∀ p ∈ s.parents.at app, s.checkParent app p = .ok () := by
    rw [ord.forM_order]
    constructor
    · intro h app p hp
      exact forM_eq_ok.1 (h _ (GoMap.mem_entries (lookup_of_mem_at hp))) p hp
    rintro h ⟨app, ps⟩ hentry
    refine forM_eq_ok.2 fun p hp => h app p ?_
    rw [GoMap.at, GoMap.lookup_of_mem hentry]
    exact hp
  have hsearch : (∃ state, (ord.order 1 _ s.parents.keys).foldlM
      (visit s.parents (s.parents.keys.length + 2)) ∅ = .ok state) ↔
        ∀ app, Grounded s.parents.at app := by
    constructor
    · rintro ⟨state, h⟩ app
      obtain ⟨-, hgrounded⟩ := foldlM_visit_sound visit_sound h
        fun x hx => by rw [GoMap.lookup_empty_eq] at hx; cases hx
      refine Acc.intro app fun p hp => ?_
      exact (hgrounded app (ord.mem_order.2 (mem_keys_of_mem_at hp))).inv hp
    · intro hwf
      have hempty : Active [] ∅ := fun x => by
        rw [GoMap.lookup_empty_eq]
        exact ⟨fun h => (by cases h), fun h => (List.not_mem_nil h).elim⟩
      obtain ⟨state, h, -⟩ := foldlM_total (fun id _ state hstate =>
        @visit_complete state [] id _ hwf (s.parents.keys.length + 2) hstate List.nodup_nil
          (List.nil_subset _) (fun x hx => (List.not_mem_nil hx).elim) (Nat.le_refl _)) hempty
      exact ⟨state, h⟩
  unfold validateParents
  split
  next hbase => exact ⟨fun h => (by cases h), fun h => absurd h.base hbase⟩
  rename_i hbase
  rw [andThen_eq_ok, hentries, bind_eq_ok]
  constructor
  · rintro ⟨hparents, state, hstate, -⟩
    exact ⟨not_ne_iff.1 hbase, hparents, hsearch.1 ⟨state, hstate⟩⟩
  intro h
  obtain ⟨state, hstate⟩ := hsearch.2 h.grounded
  exact ⟨h.parent, state, hstate, rfl⟩

/-! ## The graph -/

/-- `p` is a declared parent of `app`. -/
def IsParent (s : Snapshot) (p app : UInt32) : Prop := p ∈ s.parents.at app

/-- `a` is an ancestor of `app`. -/
def Ancestor (s : Snapshot) : UInt32 → UInt32 → Prop := Relation.TransGen s.IsParent

variable {s : Snapshot} {app : UInt32}

theorem grounded_iff : (∀ app, Grounded s.parents.at app) ↔ ∀ app, ¬ s.Ancestor app app := by
  constructor
  · intro h app hcycle
    exact (WellFounded.transGen ⟨h⟩).irrefl.irrefl app hcycle
  · intro h
    have : Finite UInt32 := Finite.of_injective UInt32.toFin fun _ _ => UInt32.toFin_inj.1
    have : IsTrans UInt32 s.Ancestor := ⟨fun _ _ _ => Relation.TransGen.trans⟩
    have : Std.Irrefl s.Ancestor := ⟨h⟩
    have hwf := Finite.wellFounded_of_trans_of_irrefl s.Ancestor
    exact fun app => (Subrelation.wf Relation.TransGen.single hwf).apply app

theorem checkParent_iff {p : UInt32} : s.checkParent app p = .ok () ↔
    (p = 0 ∨ (s.appcode.lookup p).isSome = true) ∧ p ≠ relayApplication := by
  unfold checkParent
  split
  next h =>
    simp [h]
  split
  next h =>
    simp [h]
  next hrelay h =>
    refine iff_of_true rfl ⟨Decidable.or_iff_not_imp_left.2 fun h0 => ?_, hrelay⟩
    exact Option.isSome_iff_ne_none.2 (by simpa using not_and.1 h h0)

/-- The ancestors are the generations above the application in their order, each where it is met
first, and then base. -/
theorem ancestorApps_generations (hbase : s.parents.at 0 = []) (happ : app ≠ 0) {n : Nat}
    (hn : (s.parents.entries.flatMap (·.2)).length < n) : s.ancestorApps app =
      fresh [0, app] (generations s.parents.at n (s.parents.at app)) ++ [0] := by
  have hU : ∀ v, ∀ p ∈ s.parents.at v, p ∈ (s.parents.entries.flatMap (·.2)).toFinset :=
    fun v p hp => List.mem_toFinset.2
      (List.mem_flatMap.2 ⟨_, GoMap.mem_entries (lookup_of_mem_at hp), hp⟩)
  have hcard := @card_sdiff_fresh _ [0, app] _ _ _ (hU app)
  have hle : ((s.parents.entries.flatMap (·.2)).toFinset \ [0, app].toFinset).card ≤
      (s.parents.entries.flatMap (·.2)).length :=
    (Finset.card_le_card Finset.sdiff_subset).trans (List.toFinset_card_le _)
  unfold ancestorApps
  rw [if_neg happ]
  refine congrArg (· ++ [0]) (bfs_eq_fresh hU n (fun x hx p hp => ?_) (hcard.trans_le hle)
    (by omega))
  rcases List.mem_pair.1 hx with rfl | rfl
  · rw [hbase] at hp
    cases hp
  by_cases hs : p ∈ [0, x]
  · exact List.mem_append_left _ hs
  · exact List.mem_append_right _ (mem_fresh.2 ⟨hp, hs⟩)

theorem mem_generations_parents {a : UInt32} :
    (∃ n, a ∈ generations s.parents.at n (s.parents.at app)) ↔ s.Ancestor a app := by
  constructor
  · rintro ⟨n, ha⟩
    obtain ⟨p, hp, hreach⟩ := mem_generations ha
    exact Relation.TransGen.tail' hreach hp
  · intro h
    obtain ⟨p, hreach, hp⟩ := Relation.TransGen.tail'_iff.1 h
    exact Reaches.mem_generations hreach hp

/-- The check of the parents, and the ancestors of an application once it has passed: each of them
once, in breadth-first order, and base last. Base itself has none. -/
theorem validateParents_ancestors (ord : RangeOrder) (s : Snapshot) :
    (s.validateParents ord = .ok () ↔
      (∀ app, ∀ p ∈ s.parents.at app, p = 0 ∨ (s.appcode.lookup p).isSome = true) ∧
      s.parents.at 0 = [] ∧ (∀ app, relayApplication ∉ s.parents.at app) ∧
      ∀ app, ¬ s.Ancestor app app) ∧
    (s.validateParents ord = .ok () → s.ancestorApps 0 = [] ∧ (∀ a, ¬ s.Ancestor a 0) ∧
      ∀ app ≠ 0, ∃ ds, s.ancestorApps app = ds ++ [0] ∧ (ds ++ [0]).Nodup ∧
        (∀ a, a ∈ ds ↔ a ≠ 0 ∧ s.Ancestor a app) ∧
        ∃ N, ∀ n ≥ N, ds = fresh [0, app] (generations s.parents.at n (s.parents.at app))) := by
  rw [validateParents_iff]
  constructor
  · constructor
    · intro h
      have hcheck := fun app p hp => checkParent_iff.1 (h.parent app p hp)
      exact ⟨fun app p hp => (hcheck app p hp).1, h.base,
        fun app hp => (hcheck app _ hp).2 rfl, grounded_iff.1 h.grounded⟩
    · rintro ⟨hdeclared, hbase, hrelay, hacyclic⟩
      exact ⟨hbase, fun app p hp => checkParent_iff.2
        ⟨hdeclared app p hp, fun h => hrelay app (h ▸ hp)⟩, grounded_iff.2 hacyclic⟩
  · intro h
    refine ⟨rfl, fun a ha => ?_, fun app happ => ?_⟩
    · obtain ⟨p, -, hp⟩ := Relation.TransGen.tail'_iff.1 ha
      rw [IsParent, h.base] at hp
      cases hp
    have hlist := fun n => @ancestorApps_generations s app h.base happ n
    have hds := hlist _ (Nat.lt_succ_self _)
    refine ⟨_, hds, ?_, fun a => ?_, (s.parents.entries.flatMap (·.2)).length + 1, fun n hn => ?_⟩
    · refine List.nodup_append.2 ⟨nodup_fresh _ _, by simp, fun x hx y hy heq => ?_⟩
      refine (mem_fresh.1 hx).2 ?_
      rw [heq, List.mem_singleton.1 hy]
      exact List.mem_cons_self
    · rw [mem_fresh, List.mem_pair, not_or]
      constructor
      · rintro ⟨ha, h0, -⟩
        exact ⟨h0, mem_generations_parents.1 ⟨_, ha⟩⟩
      · rintro ⟨h0, ha⟩
        obtain ⟨m, hm⟩ := mem_generations_parents.2 ha
        -- More rounds than the bound do not change the list.
        have hmore := hlist (m + ((s.parents.entries.flatMap (·.2)).length + 1)) (by omega)
        have hself : a ≠ app := fun heq => grounded_iff.1 h.grounded app (heq ▸ ha)
        have hm := generations_le
          (Nat.le_add_right m ((s.parents.entries.flatMap (·.2)).length + 1)) hm
        have hmem := mem_fresh.2 ⟨hm, (by simpa using ⟨h0, hself⟩ : a ∉ [0, app])⟩
        rw [List.append_cancel_right (hmore.symm.trans hds)] at hmem
        exact ⟨(mem_fresh.1 hmem).1, h0, hself⟩
    · exact List.append_cancel_right (hds.symm.trans (hlist n (by omega)))

end Snapshot
end Diameter.Dict
