import Diameter.Dict.Index

/-!
# Dict.Lookup

The lookups of a published snapshot against a dictionary without indexes.

The reference is `Sources`: the files loaded and the AVPs registered, and a walk on demand. The
walk of an application is the application itself, its declared parents, the parents of those and
so on, generation by generation, and base last (`Sources.walk`). By code and vendor the first own
definition on the walk counts; by name the first own definition of the name that no nearer
application hides by giving its wire identity another name.

`Merged.avp_eq` and `Merged.findAVPByName_eq` read the precomputed indexes back as lookups along
`ancestorApps`; `find?_walk` replaces that traversal by the walk; `run_sources` follows the
sources through a history of calls.
-/

namespace Diameter.Dict

open Lib

variable {name : String} {app : UInt32}
variable {a : AVP} {nearer : List UInt32} {s : Snapshot} {regs regs' : List Registration}

namespace Snapshot

/-! ## What the indexes answer -/

section Indexed

theorem nearestAVP_zero (s : Snapshot) (code vendorID : UInt32) :
    s.nearestAVP 0 code vendorID = s.ownAVP 0 code vendorID := by
  rw [nearestAVP_eq, ancestorApps_zero, List.findSome?_nil, Option.or_none]

/-- Base is on the walk of every application. -/
theorem nearestAVP_eq_none {app code vendorID : UInt32}
    (h : s.nearestAVP app code vendorID = none) : s.ownAVP 0 code vendorID = none := by
  by_cases happ : app = 0
  · rw [← nearestAVP_zero, ← happ, h]
  obtain ⟨ds, hds⟩ := @ancestorApps_eq s app happ
  refine List.findSome?_eq_none_iff.1 h 0 ?_
  rw [hds]
  simp

theorem Merged.code_zero (h : Merged s) (code vendorID : UInt32) :
    s.avpcode.lookup ⟨0, code, vendorID⟩ = s.ownAVP 0 code vendorID := by
  by_cases h0 : s.HasIndex 0
  · rw [h.code 0 h0, nearestAVP_zero]
  · rw [h.noCode 0 h0]
    exact (Option.not_isSome_iff_eq_none.1 fun hsome => h0 (.inr ⟨_, _, hsome⟩)).symm

theorem Merged.walk_of_no_index (h : Merged s) (happ : ¬ s.HasIndex app) (h0 : app ≠ 0) :
    s.ancestorApps app = [0] ∧
      ∀ code vendorID, s.ownAVP app code vendorID = none := by
  refine ⟨ancestorApps_of_no_parents h0 ?_, fun code vendorID => ?_⟩
  · have hdecl : s.declaredParents app = [] := by
      refine List.flatMap_eq_nil_iff.2 fun a ha => ?_
      obtain ⟨ha, hid⟩ := List.mem_filter.1 ha
      exact absurd (.inl ((h.declared app).2 ⟨a, ha, of_decide_eq_true hid⟩)) happ
    rw [h.parents, hdecl]
    rfl
  · exact Option.not_isSome_iff_eq_none.1 fun hsome => happ (.inr ⟨_, _, hsome⟩)

theorem Merged.avp_eq (h : Merged s) (app code vendorID : UInt32) :
    s.avp app code vendorID = s.nearestAVP app code vendorID := by
  rw [Snapshot.avp_eq, h.code_zero]
  by_cases happ : s.HasIndex app
  · rw [h.code app happ]
    cases hnear : s.nearestAVP app code vendorID with
    | some a => rfl
    | none => rw [Option.none_or, nearestAVP_eq_none hnear]
  · rw [h.noCode app happ, Option.none_or]
    by_cases h0 : app = 0
    · rw [h0, nearestAVP_zero]
    obtain ⟨hanc, hown⟩ := h.walk_of_no_index happ h0
    rw [nearestAVP_eq, hown, hanc, Option.none_or, List.findSome?_cons, List.findSome?_nil]
    cases s.ownAVP 0 code vendorID <;> rfl

theorem Merged.nameIn_eq (h : Merged s) {app d : UInt32}
    (hentry : s.avpname.lookup ⟨d, name⟩ = some a) (hname : a.name = name) :
    s.nameIn app name d =
      if s.visibleIn app a then s.nearestAVP app a.code a.vendorID else none := by
  unfold nameIn visibleIn
  rw [hentry]
  dsimp only
  rw [h.avp_eq]
  cases s.nearestAVP app a.code a.vendorID with
  | none => rfl
  | some resolved => simp [hname]

theorem nearestByName_zero (h : Merged s) (name : String) :
    s.nearestByName 0 name = s.ownAVPByName 0 name := by
  unfold nearestByName
  rw [ancestorApps_zero, List.findSome?_cons, List.findSome?_nil]
  cases hown : s.ownAVPByName 0 name with
  | none => rfl
  | some a =>
    have hvisible : s.visibleIn 0 a = true := by
      unfold visibleIn
      rw [nearestAVP_zero, ((h.byName 0 name a).1 hown).1]
      simp
    rw [Option.filter_some, if_pos hvisible]

theorem Merged.name_zero (h : Merged s) (name : String) :
    s.avpname.lookup ⟨0, name⟩ = s.ownAVPByName 0 name := by
  by_cases h0 : s.HasIndex 0
  · rw [h.name 0 h0, nearestByName_zero h]
  rw [h.noName 0 h0]
  refine (Option.eq_none_iff_forall_not_mem.2 fun a ha => h0 (.inr ?_)).symm
  exact ⟨a.code, a.vendorID, by rw [((h.byName _ _ a).1 ha).1]; rfl⟩

theorem Merged.nameIn_zero (h : Merged s) (name : String) (hnone : s.nearestByName app name = none)
    : s.nameIn app name 0 = none := by
  cases hown : s.ownAVPByName 0 name with
  | none =>
    unfold nameIn
    rw [h.name_zero, hown]
  | some a =>
    rw [h.nameIn_eq (by rw [h.name_zero, hown]) ((h.byName _ _ _).1 hown).2, if_neg]
    intro hvisible
    have hzero : (0 : UInt32) ∈ app :: s.ancestorApps app := by
      by_cases happ : app = 0
      · rw [happ]
        exact List.mem_cons_self
      obtain ⟨ds, hds⟩ := @ancestorApps_eq s app happ
      rw [hds]
      simp
    have := List.findSome?_eq_none_iff.1 hnone 0 hzero
    rw [hown, Option.filter_some, if_pos hvisible] at this
    cases this

theorem Merged.base_of_no_index (h : Merged s) (happ : ¬ s.HasIndex app)
    (hnear : s.nearestByName app name = some a) : s.ownAVPByName 0 name = some a := by
  by_cases h0 : app = 0
  · rw [← nearestByName_zero h, ← h0, hnear]
  obtain ⟨hanc, hown⟩ := h.walk_of_no_index happ h0
  obtain ⟨d, hd, hfilter⟩ := List.exists_of_findSome?_eq_some hnear
  have hd' := (Option.filter_eq_some_iff.1 hfilter).1
  rw [hanc] at hd
  rcases List.mem_cons.1 hd with rfl | hd
  · have := ((h.byName _ _ _).1 hd').1
    rw [hown] at this
    cases this
  · rw [← List.mem_singleton.1 hd]
    exact hd'

theorem Merged.findAVPByName_eq (h : Merged s) (app : UInt32) (name : String) :
    (s.findAVPByName app name).toOption = s.nearestByName app name := by
  have hsplit : (s.findAVPByName app name).toOption =
      (s.nameIn app name app).or (s.nameIn app name 0) := by
    unfold findAVPByName
    cases s.nameIn app name app with
    | some a => rfl
    | none => cases s.nameIn app name 0 <;> rfl
  rw [hsplit]
  cases hnear : s.nearestByName app name with
  | some a =>
    obtain ⟨hcode, hname⟩ := nearestAVP_of_nearestByName h.byName hnear
    have hvisible : s.visibleIn app a = true := by
      unfold visibleIn
      rw [hcode]
      simp
    by_cases happ : s.HasIndex app
    · rw [h.nameIn_eq (by rw [h.name app happ, hnear]) hname, if_pos hvisible, hcode, Option.some_or]
    have hfirst : s.nameIn app name app = none := by
      unfold nameIn
      rw [h.noName app happ]
    rw [hfirst, Option.none_or, h.nameIn_eq (by rw [h.name_zero, h.base_of_no_index happ hnear])
      hname, if_pos hvisible, hcode]
  | none =>
    rw [h.nameIn_zero name hnear, Option.or_none]
    by_cases happ : s.HasIndex app
    · unfold nameIn
      rw [h.name app happ, hnear]
    · unfold nameIn
      rw [h.noName app happ]

end Indexed

end Snapshot

/-! ## The reference -/

namespace Sources

def parents (d : Sources) (app : UInt32) : List UInt32 :=
  (d.declaredParents app).filter fun p => decide (p ≠ 0)

/-- The application, its declared ancestors breadth first, and base. No ancestor needs more
generations than there are declared parents. -/
def walk (d : Sources) (app : UInt32) : List UInt32 :=
  generations d.parents ((d.apps.flatMap App.inherits).length + 1) [app] ++ [0]

def findAVP (d : Sources) (app code vendorID : UInt32) : Option AVP :=
  (d.walk app).findSome? fun e => d.ownAVP e code vendorID

/-- A nearer application gives the wire identity of `a` another name. -/
def hides (d : Sources) (nearer : List UInt32) (a : AVP) : Bool :=
  nearer.any fun e => (d.ownAVP e a.code a.vendorID).any fun b => b.name != a.name

/-- The first definition of the name on the rest of a walk that the applications before it do not
hide. -/
def firstNamed (d : Sources) (name : String) (nearer : List UInt32) : List UInt32 → Option AVP
  | [] => none
  | e :: rest =>
    match d.ownAVPByName e name with
    | none => d.firstNamed name (nearer ++ [e]) rest
    | some a => if d.hides nearer a then d.firstNamed name (nearer ++ [e]) rest else some a

def findAVPByName (d : Sources) (app : UInt32) (name : String) : Option AVP :=
  d.firstNamed name [] (d.walk app)

theorem findAVP_of_undeclared {d : Sources} (h : ∀ a ∈ d.apps, a.id ≠ app) (code vendorID : UInt32)
    :
    d.findAVP app code vendorID =
      (d.registeredAVP ⟨app, code, vendorID⟩).or (d.ownAVP 0 code vendorID) := by
  have hparents : d.parents app = [] := by
    have happs : (d.apps.filter fun a => a.id = app) = [] :=
      List.filter_eq_nil_iff.2 fun a ha => by simpa using h a ha
    unfold parents declaredParents
    rw [happs]
    rfl
  have hwalk : d.walk app = [app, 0] := by
    unfold walk
    rw [generations, List.flatMap_cons, hparents, List.flatMap_nil, List.nil_append,
      generations_nil]
    rfl
  have hloaded : d.loadedAVP ⟨app, code, vendorID⟩ = none := by
    unfold loadedAVP lastDef
    rw [List.filter_eq_nil_iff.2, List.getLast?_nil, Option.map_none]
    intro r hr hidx
    obtain ⟨a, ha, hra⟩ := List.mem_flatMap.1 hr
    obtain ⟨b, _, rfl⟩ := List.mem_map.1 hra
    exact h a ha (congrArg CodeIdx.appID (of_decide_eq_true hidx))
  unfold findAVP
  rw [hwalk, List.findSome?_cons, List.findSome?_cons, List.findSome?_nil, ownAVP, hloaded,
    Option.or_none]
  cases d.registeredAVP ⟨app, code, vendorID⟩ with
  | some a => rfl
  | none => cases d.ownAVP 0 code vendorID <;> rfl

/-! ## Names along a walk -/

section Names

variable {d : Sources} (hbyName : ∀ app name a, d.ownAVPByName app name = some a ↔
  d.ownAVP app a.code a.vendorID = some a ∧ a.name = name)

/-- Whether the nearest definition of the identity of `a` on the walk has the name of `a`. -/
def visibleOn (d : Sources) (walk : List UInt32) (a : AVP) : Bool :=
  (walk.findSome? fun e => d.ownAVP e a.code a.vendorID).any fun r => r.name == a.name

include hbyName in
/-- Where no nearer definition of the name counts, being hidden by any nearer definition of the
identity is being hidden by the nearest one. -/
theorem hides_eq {rest : List UInt32} {e : UInt32}
    (hnearer : ∀ x ∈ nearer,
      (d.ownAVPByName x name).filter (d.visibleOn (nearer ++ e :: rest)) = none)
    (ha : d.ownAVPByName e name = some a) :
    d.hides nearer a = !d.visibleOn (nearer ++ e :: rest) a := by
  obtain ⟨hcode, hname⟩ := (hbyName _ _ _).1 ha
  have hwalk : (nearer ++ e :: rest).findSome? (fun x => d.ownAVP x a.code a.vendorID) =
      (nearer.findSome? fun x => d.ownAVP x a.code a.vendorID).or (some a) := by
    rw [List.findSome?_append, List.findSome?_cons, hcode]
  cases hfirst : nearer.findSome? fun x => d.ownAVP x a.code a.vendorID with
  | none =>
    have hhides : d.hides nearer a = false := by
      refine List.any_eq_false.2 fun x hx => ?_
      rw [List.findSome?_eq_none_iff.1 hfirst x hx]
      exact Bool.false_ne_true
    unfold visibleOn
    rw [hhides, hwalk, hfirst]
    simp
  | some r =>
    rw [hfirst, Option.some_or] at hwalk
    obtain ⟨x, hx, hr⟩ := List.exists_of_findSome?_eq_some hfirst
    obtain ⟨_, hrc, hrv⟩ := ownAVP_key hr
    -- the nearest definition cannot carry the name: it would have counted before
    have hne : r.name ≠ a.name := by
      intro hrname
      have hown : d.ownAVPByName x name = some r :=
        (hbyName _ _ _).2 ⟨by rw [hrc, hrv]; exact hr, hrname.trans hname⟩
      have hvisible : d.visibleOn (nearer ++ e :: rest) r = true := by
        unfold visibleOn
        rw [hrc, hrv, hwalk]
        simp
      have := hnearer x hx
      rw [hown, Option.filter_some, if_pos hvisible] at this
      cases this
    have hhides : d.hides nearer a = true := by
      refine List.any_eq_true.2 ⟨x, hx, ?_⟩
      rw [hr]
      simpa using hne
    unfold visibleOn
    rw [hhides, hwalk]
    simpa using hne

include hbyName in
theorem firstNamed_eq {rest : List UInt32}
    (hnearer : ∀ x ∈ nearer, (d.ownAVPByName x name).filter (d.visibleOn (nearer ++ rest)) = none) :
    d.firstNamed name nearer rest =
      rest.findSome? fun x => (d.ownAVPByName x name).filter (d.visibleOn (nearer ++ rest)) := by
  induction rest generalizing nearer with
  | nil => rfl
  | cons e rest ih =>
    have happ : nearer ++ e :: rest = nearer ++ [e] ++ rest := by simp
    have hnext : (d.ownAVPByName e name).filter (d.visibleOn (nearer ++ e :: rest)) = none →
        d.firstNamed name (nearer ++ [e]) rest = rest.findSome? fun x =>
          (d.ownAVPByName x name).filter (d.visibleOn (nearer ++ e :: rest)) := by
      intro hnone
      rw [happ] at hnearer hnone ⊢
      refine ih fun x hx => ?_
      rcases List.mem_append.1 hx with hx | hx
      · exact hnearer x hx
      · rw [List.mem_singleton.1 hx]
        exact hnone
    unfold firstNamed
    rw [List.findSome?_cons]
    cases hown : d.ownAVPByName e name with
    | none =>
      rw [hown] at hnext
      exact hnext rfl
    | some a =>
      rw [hown, Option.filter_some] at hnext
      rw [Option.filter_some]
      dsimp only
      rw [hides_eq hbyName hnearer hown]
      cases hv : d.visibleOn (nearer ++ e :: rest) a with
      | true => rfl
      | false =>
        rw [hv] at hnext
        exact hnext rfl

end Names

end Sources

/-! ## The traversal and the walk -/

namespace Snapshot

section Walk

theorem Merged.mem_parents_at (h : Merged s) {app p : UInt32} :
    p ∈ s.parents.at app ↔ p ∈ s.declaredParents app := by
  rw [h.parents, mem_fresh]
  simp

theorem Merged.parents_zero (h : Merged s) : s.sources.parents 0 = [] := by
  refine List.filter_eq_nil_iff.2 fun p hp => ?_
  have := h.mem_parents_at.2 hp
  rw [h.base] at this
  cases this

/-- All declared parents; the traversal never leaves them. -/
def parentSet (s : Snapshot) : Finset UInt32 := (s.parents.entries.flatMap (·.2)).toFinset

theorem Merged.mem_parentSet (h : Merged s) {v p : UInt32} (hp : p ∈ s.sources.parents v) :
    p ∈ s.parentSet := by
  have hat : p ∈ s.parents.at v := h.mem_parents_at.2 (List.mem_filter.1 hp).1
  refine List.mem_toFinset.2 (List.mem_flatMap.2 ⟨_, GoMap.mem_entries (lookup_of_mem_at hat), hat⟩)

theorem Merged.card_parentSet (h : Merged s) :
    s.parentSet.card ≤ (s.sources.apps.flatMap App.inherits).length := by
  refine (Finset.card_le_card fun p hp => ?_).trans (List.toFinset_card_le _)
  obtain ⟨⟨k, ps⟩, hentry, hp⟩ := List.mem_flatMap.1 (List.mem_toFinset.1 hp)
  have hat : p ∈ s.parents.at k := by
    unfold GoMap.at
    rw [GoMap.lookup_of_mem hentry]
    exact hp
  obtain ⟨a, ha, hpa⟩ := List.mem_flatMap.1 (h.mem_parents_at.1 hat)
  exact List.mem_toFinset.2 (List.mem_flatMap.2 ⟨a, (List.mem_filter.1 ha).1, hpa⟩)

/-- Searching along `ancestorApps` is searching the generations of ancestors, then base; no more
of them are needed than there are parents. -/
theorem Merged.find?_generations (h : Merged s) (q : UInt32 → Bool) (happ : app ≠ 0) {n : Nat}
    (hn : (s.sources.apps.flatMap App.inherits).length < n) :
    (app :: s.ancestorApps app).find? q =
      ((generations s.sources.parents n [app]).find? q).or ([0].find? q) := by
  have hcard : s.parentSet.card ≤ (s.parents.entries.flatMap (·.2)).length :=
    List.toFinset_card_le _
  have hlist : app :: s.ancestorApps app = bfs s.parents.at
      ((s.parents.entries.flatMap (·.2)).length + 1) [0, app] [app] ++ [0] := by
    unfold ancestorApps
    rw [if_neg happ]
    rfl
  have hcongr : ∀ seen, [0, app] ⊆ seen → ∀ v,
      fresh seen (s.parents.at v) = fresh seen (s.sources.parents v) := by
    intro seen hseen v
    rw [h.parents, fresh_fresh (by simp), Sources.parents, fresh_filter]
    · rfl
    intro x hx
    have hx0 : x = 0 := by simpa using hx
    rw [hx0]
    exact hseen (by simp)
  have hstop : ∀ x ∈ [(0 : UInt32)], s.sources.parents x = [] ∧ ∀ v, x ∉ s.sources.parents v := by
    intro x hx
    rw [List.mem_singleton.1 hx]
    refine ⟨h.parents_zero, fun v hv => ?_⟩
    simpa using (List.mem_filter.1 hv).2
  rw [hlist, bfs_congr hcongr, List.find?_append]
  congr 1
  exact find?_bfs (fun v p hp => h.mem_parentSet hp) q hstop (by simpa using happ)
    (by omega) (Nat.lt_of_le_of_lt h.card_parentSet hn)

theorem Merged.find?_walk (h : Merged s) (q : UInt32 → Bool) (app : UInt32) :
    (app :: s.ancestorApps app).find? q = (s.sources.walk app).find? q := by
  unfold Sources.walk
  by_cases happ : app = 0
  · subst happ
    rw [ancestorApps_zero, List.find?_append, generations, List.find?_append, List.flatMap_cons,
      h.parents_zero, List.flatMap_nil, List.nil_append, generations_nil, List.find?_nil,
      Option.or_none]
    cases List.find? q [0] <;> rfl
  · rw [List.find?_append, h.find?_generations q happ (Nat.lt_succ_self _)]

theorem Merged.findSome?_walk {β : Type} (h : Merged s) (f : UInt32 → Option β) (app : UInt32) :
    (app :: s.ancestorApps app).findSome? f = (s.sources.walk app).findSome? f := by
  rw [findSome?_eq_bind_find?, findSome?_eq_bind_find?, h.find?_walk]

theorem Merged.nearestAVP_walk (h : Merged s) (app code vendorID : UInt32) :
    s.nearestAVP app code vendorID = s.sources.findAVP app code vendorID :=
  h.findSome?_walk _ app

theorem Merged.nearestByName_walk (h : Merged s) (app : UInt32) (name : String) :
    s.nearestByName app name = s.sources.findAVPByName app name := by
  have hvisible : s.visibleIn app = s.sources.visibleOn (s.sources.walk app) := by
    funext a
    unfold visibleIn Sources.visibleOn
    rw [h.nearestAVP_walk]
    rfl
  have hfirst := @Sources.firstNamed_eq name [] s.sources h.byName (s.sources.walk app)
    (fun x hx => by cases hx)
  rw [List.nil_append] at hfirst
  unfold nearestByName Sources.findAVPByName
  rw [hvisible, h.findSome?_walk, hfirst]
  rfl

end Walk

end Snapshot

/-! ## Histories -/

namespace Sources

/-- A definition the application already resolves, or has been given in the same call, is not
registered again. -/
def addDefinition (d : Sources) (app : UInt32) (regs : List Registration) (a : AVP) :
    List Registration :=
  if regs.any (fun r => r.avp.code == a.code && r.avp.vendorID == a.vendorID) ||
      (d.findAVP app a.code a.vendorID).isSome then regs
  else regs ++ [⟨app, a⟩]

/-- What a successful call adds to the sources. -/
def step (d : Sources) : Op → Sources
  | .load files => { d with files := d.files ++ (files.mapM parseFile).toOption.getD [] }
  | .registerAVP app avps => { d with
      regs := d.regs ++
        ((avps.mapM (newRegisteredAVP app)).toOption.getD []).foldl (d.addDefinition app) [] }
  | .setStrict _ => d
  | .setMaxGroupedDepth _ => d

def history (calls : List (RangeOrder × Op)) : Sources :=
  calls.foldl (fun d call => d.step call.2) {}

end Sources

namespace Snapshot

theorem Merged.addDefinition_eq (hs : Merged s)
    (h : s.addDefinition app regs a = .ok regs') :
    regs' = s.sources.addDefinition app regs a := by
  unfold addDefinition at h
  unfold Sources.addDefinition
  split at h
  next r hr =>
    split at h
    next hsame =>
      obtain ⟨_, hcode, hvendor⟩ := key_of_sameAVP hsame
      have hany : (regs.any fun r => r.avp.code == a.code && r.avp.vendorID == a.vendorID) = true :=
        List.any_eq_true.2 ⟨r, List.mem_of_find?_eq_some hr, by simp [hcode, hvendor]⟩
      rw [hany, Bool.true_or, if_pos rfl]
      cases h
      rfl
    · cases h
  next hnone =>
    have hany : (regs.any fun r => r.avp.code == a.code && r.avp.vendorID == a.vendorID) = false := by
      refine List.any_eq_false.2 fun r hr hkey => List.find?_eq_none.1 hnone r hr ?_
      rw [hkey, Bool.or_true]
    obtain ⟨_, h⟩ := andThen_eq_ok.1 h
    obtain ⟨_, h⟩ := andThen_eq_ok.1 h
    rw [hany, Bool.false_or, ← hs.nearestAVP_walk, ← hs.avp_eq]
    cases h
    rfl

theorem Merged.foldlM_addDefinition_eq (hs : Merged s) {defs : List AVP}
    (h : defs.foldlM (s.addDefinition app) regs = .ok regs') :
    regs' = defs.foldl (s.sources.addDefinition app) regs := by
  induction defs generalizing regs with
  | nil =>
    cases h
    rfl
  | cons a defs ih =>
    rw [List.foldlM_cons] at h
    obtain ⟨regs1, h1, hrest⟩ := bind_eq_ok.1 h
    rw [List.foldl_cons, ← hs.addDefinition_eq h1]
    exact ih hrest

theorem Indexed.apply_sources {ord : RangeOrder} {s' : Snapshot} (hs : Indexed s) {op : Op}
    (h : op.apply ord s = .ok s') : s'.sources = s.sources.step op := by
  cases op with
  | load files =>
    obtain ⟨parsed, hparse, hadd⟩ := bind_eq_ok.1 h
    simp only [Sources.step, hparse, Except.toOption, Option.getD_some]
    unfold Snapshot.add at hadd
    split at hadd
    next hnil =>
      cases hadd
      rw [hnil, List.append_nil]
    · obtain ⟨_, hfiles, hregs⟩ := with_indexed hadd
      unfold sources
      rw [hfiles, hregs, List.append_nil]
  | registerAVP app avps =>
    obtain ⟨defs, hdefs, h⟩ := bind_eq_ok.1 h
    obtain ⟨regs, hregs, h⟩ := bind_eq_ok.1 h
    have hadd : regs = defs.foldl (s.sources.addDefinition app) [] := hs.foldlM_addDefinition_eq hregs
    simp only [Sources.step, hdefs, Except.toOption, Option.getD_some]
    rw [← hadd]
    split at h
    next hnil =>
      cases h
      rw [hnil, List.append_nil]
    · obtain ⟨_, hfiles, hregs⟩ := with_indexed h
      unfold sources
      rw [hfiles, hregs, List.append_nil]
  | setStrict strict =>
    cases h
    rfl
  | setMaxGroupedDepth depth =>
    cases h
    rfl

theorem Indexed.run_sources {calls : List (RangeOrder × Op)} {s' : Snapshot} (hs : Indexed s)
    (h : run calls s = .ok s') :
    s'.sources = calls.foldl (fun d call => d.step call.2) s.sources := by
  induction calls generalizing s with
  | nil =>
    cases h
    rfl
  | cons call calls ih =>
    unfold run at h
    rw [List.foldlM_cons] at h
    obtain ⟨s1, h1, hrest⟩ := bind_eq_ok.1 h
    rw [List.foldl_cons, ← hs.apply_sources h1]
    exact ih (call.2.apply_indexed hs h1).1 hrest

end Snapshot

open Snapshot in
/-- After any history of successful calls, a lookup in the published indexes is a walk through
the sources. -/
theorem findAVP_eq_walk {calls : List (RangeOrder × Op)} {s : Snapshot}
    (h : run calls emptySnapshot = .ok s) (app : UInt32) :
    (∀ code vendorID, (s.findAVP app code vendorID).toOption =
      (Sources.history calls).findAVP app code vendorID) ∧
    (∀ name, (s.findAVPByName app name).toOption =
      (Sources.history calls).findAVPByName app name) ∧
    ((∀ a ∈ (Sources.history calls).apps, a.id ≠ app) → ∀ code vendorID,
      (s.findAVP app code vendorID).toOption =
        ((Sources.history calls).registeredAVP ⟨app, code, vendorID⟩).or
          ((Sources.history calls).ownAVP 0 code vendorID)) := by
  have hs : Indexed s := run_indexed emptySnapshot_indexed h
  have hsources : s.sources = Sources.history calls := emptySnapshot_indexed.run_sources h
  have hcode : ∀ code vendorID, (s.findAVP app code vendorID).toOption =
      (Sources.history calls).findAVP app code vendorID := by
    intro code vendorID
    rw [findAVP_toOption, hs.avp_eq, hs.nearestAVP_walk, hsources]
  refine ⟨hcode, fun name => ?_, fun hundeclared code vendorID => ?_⟩
  · rw [hs.findAVPByName_eq, hs.nearestByName_walk, hsources]
  · rw [hcode, Sources.findAVP_of_undeclared hundeclared]

/-! A diamond with a rename: 4 inherits 2 and 3, both inherit 1, and 2 renames an AVP of 1. -/

def unsignedAVP (name : String) (code : UInt32) : AVP :=
  { name := name, code := code, data := { type := .unknown, typeName := "Unsigned32" } }

def diamondFile : File :=
  { app := [{ id := 1, avp := [unsignedAVP "Old" 7, unsignedAVP "Kept" 8] },
      { id := 2, inherits := [1], avp := [unsignedAVP "New" 7] },
      { id := 3, inherits := [1, 0] },
      { id := 4, inherits := [2, 3] }] }

def diamondCalls : List (RangeOrder × Op) :=
  [(.insertionOrder, .load [diamondFile]),
    (.insertionOrder, .registerAVP 5 [some { name := "Extra", code := 9, typeName := "Time" }])]

theorem findAVP_eq_walk_diamond : ∃ s, run diamondCalls emptySnapshot = .ok s ∧
    (s.findAVP 4 7 0).toOption = (Sources.history diamondCalls).findAVP 4 7 0 ∧
    (s.findAVPByName 4 "Old").toOption = (Sources.history diamondCalls).findAVPByName 4 "Old" := by
  have hok : (run diamondCalls emptySnapshot).toOption.isSome = true := by decide +kernel
  obtain ⟨s, hs⟩ := Option.isSome_iff_exists.1 hok
  rw [toOption_eq_some] at hs
  exact ⟨s, hs, (findAVP_eq_walk hs 4).1 7 0, (findAVP_eq_walk hs 4).2.1 "Old"⟩

end Diameter.Dict
