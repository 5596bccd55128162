import Diameter.Dict.Own

/-!
# Dict.Inherit

What an application's indexes hold after the merge of inherited definitions: for each wire
identity the nearest own definition along the application and its ancestors, and for each name
the nearest own definition of that name whose identity still carries it there.

The loops are followed from the inside out: the keys of one ancestor (`inheritFrom`), the
ancestors of one application (`inheritApp`), the applications in any order (`inheritAll`). Own
entries are never overwritten, so that every copy reads the ancestor's own definition, whatever
has been merged before.
-/

namespace Diameter.Dict

namespace Snapshot

open Lib

variable {ord : RangeOrder} {s : Snapshot} {names : GoMap AppNameIdx AVP}
variable {codes : GoMap CodeIdx AVP} {app : UInt32}

/-! ## Lookups along the ancestors -/

/-- The nearest own definition of a wire identity along the application and its ancestors. -/
def nearestAVP (s : Snapshot) (app code vendorID : UInt32) : Option AVP :=
  (app :: s.ancestorApps app).findSome? fun d => s.ownAVP d code vendorID

/-- Whether the identity of `a` still carries the name of `a` in the view of `app`. -/
def visibleIn (s : Snapshot) (app : UInt32) (a : AVP) : Bool :=
  (s.nearestAVP app a.code a.vendorID).any fun resolved => resolved.name == a.name

/-- The nearest own definition of a name that is visible in the view of `app`. -/
def nearestByName (s : Snapshot) (app : UInt32) (name : String) : Option AVP :=
  (app :: s.ancestorApps app).findSome? fun d => (s.ownAVPByName d name).filter (s.visibleIn app)

/-! ## The keys an application owns -/

theorem mem_foldl_own {K V : Type} [DecidableEq K] {m : GoMap K V} (f : K → UInt32) {n : Nat}
    {k : K} : k ∈ ((ord.order n _ m.keys).foldl (fun l k => GoMap.append l (f k) k) ∅).at app ↔
      f k = app ∧ (m.lookup k).isSome = true := by
  rw [GoMap.at_foldl_append f (fun k => k), List.map_id', List.mem_append, List.mem_filter,
    ord.mem_order, GoMap.mem_keys, decide_eq_true_iff]
  exact ⟨fun h => h.elim (fun h => by cases h) fun h => ⟨h.2, h.1⟩, fun h => .inr ⟨h.2, h.1⟩⟩

theorem mem_ownCodes {idx : CodeIdx} :
    idx ∈ (s.ownDefs ord).codes.at app ↔
      idx.appID = app ∧ (s.avpcode.lookup idx).isSome = true :=
  mem_foldl_own CodeIdx.appID

theorem mem_ownNames {idx : AppNameIdx} :
    idx ∈ (s.ownDefs ord).names.at app ↔
      idx.appID = app ∧ (s.avpname.lookup idx).isSome = true :=
  mem_foldl_own AppNameIdx.appID

theorem mem_ownApps :
    app ∈ (s.ownDefs ord).apps ↔ (s.appcode.lookup app).isSome = true ∨
      (∃ idx, (s.avpcode.lookup idx).isSome = true ∧ idx.appID = app) ∨
      ∃ idx, (s.avpname.lookup idx).isSome = true ∧ idx.appID = app := by
  unfold ownDefs
  simp only [mem_fresh, List.mem_append, List.mem_map, ord.mem_order, GoMap.mem_keys,
    List.not_mem_nil, not_false_iff, and_true, or_assoc]

/-! ## One ancestor -/

/-- The entries of `m` are still in `m'`. -/
def Kept {K : Type} [DecidableEq K] (m m' : GoMap K AVP) : Prop :=
  ∀ k a, m.lookup k = some a → m'.lookup k = some a

section Copy

variable {K J : Type} [DecidableEq K] {own m : GoMap K AVP}

theorem Kept.insertNew (h : Kept own m) (k : K) (a : AVP) : Kept own (m.insertNew k a) := by
  intro k' b hb
  rw [GoMap.lookup_insertNew, h k' b hb, Option.some_or]

variable {g : UInt32 → J → K} {f : GoMap K AVP → K → GoMap K AVP} {c : AVP → Bool} {d : UInt32}
  {l : List K} (hg : ∀ {a b i j}, g a i = g b j → a = b ∧ i = j)
  (hf : ∀ {m i a}, m.lookup (g d i) = some a →
    f m (g d i) = if c a then m.insertNew (g app i) a else m)
include hg hf

/-- Own entries of `d`, copied to the same keys of `app` where these are free: all that `c` lets
through. -/
theorem lookup_foldl_copy
    (hl : ∀ k ∈ l, ∃ i, k = g d i ∧ (own.lookup k).isSome = true) (hkept : Kept own m)
    (app' : UInt32) (j : J) :
    (l.foldl f m).lookup (g app' j) = (m.lookup (g app' j)).or
      (if app' = app ∧ g d j ∈ l then (own.lookup (g d j)).filter c else none) := by
  induction l generalizing m with
  | nil => simp
  | cons k l ih =>
    obtain ⟨i, rfl, hsome⟩ := hl k List.mem_cons_self
    obtain ⟨a, ha⟩ := Option.isSome_iff_exists.1 hsome
    have hl' := fun x hx => hl x (List.mem_cons_of_mem _ hx)
    rw [List.foldl_cons, hf (hkept _ a ha)]
    by_cases hk : app' = app ∧ j = i
    · obtain ⟨rfl, rfl⟩ := hk
      rw [if_pos (⟨rfl, List.mem_cons_self⟩ : app' = app' ∧ _), ha, Option.filter_some]
      by_cases hc : c a = true
      · rw [if_pos hc, if_pos hc, ih hl' (hkept.insertNew _ _), GoMap.lookup_insertNew, if_pos rfl,
          Option.or_assoc, Option.some_or]
      · rw [if_neg hc, if_neg hc, ih hl' hkept, ha, Option.filter_some, if_neg hc, ite_self]
    · have hne : g app' j ≠ g app i := fun h => hk (hg h)
      have hmem : (app' = app ∧ g d j ∈ g d i :: l) ↔ (app' = app ∧ g d j ∈ l) := by
        rw [List.mem_cons]
        exact and_congr_right fun happ =>
          ⟨fun h => h.resolve_left fun heq => hk ⟨happ, (hg heq).2⟩, .inr⟩
      rw [if_congr hmem rfl rfl]
      split
      · rw [ih hl' (hkept.insertNew _ _), GoMap.lookup_insertNew, if_neg hne, Option.or_none]
      · rw [ih hl' hkept]

theorem lookup_copy
    (hl : ∀ k, k ∈ l ↔ (∃ i, k = g d i) ∧ (own.lookup k).isSome = true) (hkept : Kept own m)
    (app' : UInt32) (j : J) :
    (l.foldl f m).lookup (g app' j) = (m.lookup (g app' j)).or
      (if app' = app then (own.lookup (g d j)).filter c else none) := by
  rw [lookup_foldl_copy hg hf (fun k hk => ?_) hkept]
  · congr 1
    by_cases happ : app' = app
    · rw [if_pos happ]
      split
      · rfl
      rename_i hmem
      cases hlook : own.lookup (g d j) with
      | none => rfl
      | some a => exact absurd ⟨happ, (hl _).2 ⟨⟨j, rfl⟩, by rw [hlook]; rfl⟩⟩ hmem
    · rw [if_neg happ, if_neg fun hmem => happ hmem.1]
  · obtain ⟨⟨i, hi⟩, hsome⟩ := (hl k).1 hk
    exact ⟨i, hi, hsome⟩

end Copy

/-- Whether the identity of `a` carries its name in the code index, in the view of `app`. -/
def carriesName (codes : GoMap CodeIdx AVP) (app : UInt32) (a : AVP) : Bool :=
  (codes.lookup ⟨app, a.code, a.vendorID⟩).any fun resolved => resolved.name == a.name

theorem inheritName_eq {idx : AppNameIdx} {a : AVP}
    (h : names.lookup idx = some a) :
    inheritName app codes names idx =
      if carriesName codes app a then names.insertNew ⟨app, idx.name⟩ a else names := by
  unfold inheritName carriesName
  rw [h]
  dsimp only
  cases codes.lookup ⟨app, a.code, a.vendorID⟩ with
  | none => rfl
  | some resolved => by_cases hn : resolved.name = a.name <;> simp [hn]

/-! ## The ancestors of one application -/

/-- `t` is on the way from the own indexes of `s` to the merged ones. -/
structure Merging (s t : Snapshot) : Prop where
  sources : t = { s with avpcode := t.avpcode, avpname := t.avpname }
  codes : Kept s.avpcode t.avpcode
  names : Kept s.avpname t.avpname

section OneApplication

variable {t : Snapshot}

theorem lookup_inheritFrom_code (h : Merging s t) (app d app' code vendorID : UInt32) :
    (inheritFrom (s.ownDefs ord) app t d).avpcode.lookup ⟨app', code, vendorID⟩ =
      (t.avpcode.lookup ⟨app', code, vendorID⟩).or
        (if app' = app then s.avpcode.lookup ⟨d, code, vendorID⟩ else none) := by
  have hmem : ∀ idx, idx ∈ (s.ownDefs ord).codes.at d ↔
      (∃ i : UInt32 × UInt32, idx = ⟨d, i.1, i.2⟩) ∧ (s.avpcode.lookup idx).isSome = true :=
    fun idx => mem_ownCodes.trans (and_congr_left'
      ⟨fun h => ⟨(idx.code, idx.vendorID), by rw [← h]⟩, fun ⟨_, h⟩ => by rw [h]⟩)
  have hcopy := lookup_copy (g := fun app i => ⟨app, i.1, i.2⟩) (f := inheritCode app)
    (c := fun _ => true) (by simp +contextual) (fun ha => by unfold inheritCode; rw [ha]; rfl)
    hmem h.codes app' (code, vendorID)
  have hall : ∀ o : Option AVP, o.filter (fun _ => true) = o := fun o => by cases o <;> rfl
  rwa [hall] at hcopy

theorem lookup_inheritFrom_name (h : Merging s t) (app d app' : UInt32) (name : String) :
    (inheritFrom (s.ownDefs ord) app t d).avpname.lookup ⟨app', name⟩ =
      (t.avpname.lookup ⟨app', name⟩).or
        (if app' = app then (s.avpname.lookup ⟨d, name⟩).filter
          (carriesName (inheritFrom (s.ownDefs ord) app t d).avpcode app) else none) :=
  lookup_copy (by simp +contextual) inheritName_eq
    (fun idx => mem_ownNames.trans (and_congr_left'
      ⟨fun h => ⟨idx.name, by rw [← h]⟩, fun ⟨_, h⟩ => by rw [h]⟩)) h.names app' name

theorem Merging.inheritFrom (h : Merging s t) (app d : UInt32) :
    Merging s (t.inheritFrom (s.ownDefs ord) app d) where
  sources := by
    rw [h.sources]
    rfl
  codes := by
    intro idx a ha
    rw [lookup_inheritFrom_code h, h.codes idx a ha, Option.some_or]
  names := by
    intro idx a ha
    rw [lookup_inheritFrom_name h, h.names idx a ha, Option.some_or]

theorem Merging.foldl_inheritFrom (h : Merging s t) (app : UInt32) (ds : List UInt32) :
    Merging s (ds.foldl (Snapshot.inheritFrom (s.ownDefs ord) app) t) := by
  induction ds generalizing t with
  | nil => exact h
  | cons d ds ih => exact ih (h.inheritFrom app d)

theorem lookup_foldl_inheritFrom_code (h : Merging s t) (app : UInt32) (ds : List UInt32)
    (app' code vendorID : UInt32) :
    (ds.foldl (inheritFrom (s.ownDefs ord) app) t).avpcode.lookup ⟨app', code, vendorID⟩ =
      (t.avpcode.lookup ⟨app', code, vendorID⟩).or
        (if app' = app then ds.findSome? fun d => s.avpcode.lookup ⟨d, code, vendorID⟩
          else none) := by
  induction ds generalizing t with
  | nil => simp
  | cons d ds ih =>
    rw [List.foldl_cons, ih (h.inheritFrom app d), lookup_inheritFrom_code h, Option.or_assoc]
    congr 1
    split
    · rw [List.findSome?_cons]
      cases s.avpcode.lookup ⟨d, code, vendorID⟩ <;> rfl
    · rfl

theorem carriesName_foldl_inheritFrom (h : Merging s t) (app d : UInt32) (ds : List UInt32) {a : AVP}
    (ha : s.avpcode.lookup ⟨d, a.code, a.vendorID⟩ = some a) :
    carriesName (ds.foldl (inheritFrom (s.ownDefs ord) app)
        (t.inheritFrom (s.ownDefs ord) app d)).avpcode app a =
      carriesName (t.inheritFrom (s.ownDefs ord) app d).avpcode app a := by
  unfold carriesName
  rw [lookup_foldl_inheritFrom_code (h.inheritFrom app d), lookup_inheritFrom_code h, if_pos rfl, ha]
  cases t.avpcode.lookup ⟨app, a.code, a.vendorID⟩ <;> rfl

theorem lookup_foldl_inheritFrom_name (h : Merging s t) (hnamed : Named s.avpcode s.avpname)
    (app : UInt32) (ds : List UInt32) (app' : UInt32) (name : String) :
    (ds.foldl (inheritFrom (s.ownDefs ord) app) t).avpname.lookup ⟨app', name⟩ =
      (t.avpname.lookup ⟨app', name⟩).or
        (if app' = app then ds.findSome? fun d => (s.avpname.lookup ⟨d, name⟩).filter
          (carriesName (ds.foldl (inheritFrom (s.ownDefs ord) app) t).avpcode app) else none) := by
  induction ds generalizing t with
  | nil => simp
  | cons d ds ih =>
    rw [List.foldl_cons, ih (h.inheritFrom app d), lookup_inheritFrom_name h, Option.or_assoc]
    congr 1
    split
    · rw [List.findSome?_cons]
      cases hlook : s.avpname.lookup ⟨d, name⟩ with
      | none => rfl
      | some a =>
        have hcarries := @carriesName_foldl_inheritFrom ord s t h app d ds a
          ((hnamed d name a).1 hlook).1
        rw [Option.filter_some, Option.filter_some, hcarries]
        split <;> rfl
    · rfl

end OneApplication

/-! ## All applications -/

section AllApplications

variable {t : Snapshot}

theorem Merging.ancestorApps (h : Merging s t) (app : UInt32) :
    t.ancestorApps app = s.ancestorApps app := by
  rw [h.sources]
  rfl

theorem ancestorApps_zero (s : Snapshot) : s.ancestorApps 0 = [] := rfl

theorem Merging.inheritApp_eq (h : Merging s t) (app : UInt32) :
    t.inheritApp (s.ownDefs ord) app =
      (s.ancestorApps app).foldl (Snapshot.inheritFrom (s.ownDefs ord) app) t := by
  unfold Snapshot.inheritApp
  rw [h.ancestorApps]
  split
  next h0 => rw [h0, ancestorApps_zero, List.foldl_nil]
  · rfl

theorem Merging.inheritApp (h : Merging s t) (app : UInt32) :
    Merging s (t.inheritApp (s.ownDefs ord) app) := by
  rw [h.inheritApp_eq]
  exact h.foldl_inheritFrom app _

theorem lookup_inheritApp_code (h : Merging s t) (app app' code vendorID : UInt32) :
    (t.inheritApp (s.ownDefs ord) app).avpcode.lookup ⟨app', code, vendorID⟩ =
      (t.avpcode.lookup ⟨app', code, vendorID⟩).or
        (if app' = app then
          (s.ancestorApps app).findSome? fun d => s.avpcode.lookup ⟨d, code, vendorID⟩
          else none) := by
  rw [h.inheritApp_eq, lookup_foldl_inheritFrom_code h]

theorem lookup_inheritApp_name (h : Merging s t) (hnamed : Named s.avpcode s.avpname)
    (app app' : UInt32) (name : String) :
    (t.inheritApp (s.ownDefs ord) app).avpname.lookup ⟨app', name⟩ =
      (t.avpname.lookup ⟨app', name⟩).or
        (if app' = app then
          (s.ancestorApps app).findSome? fun d => (s.avpname.lookup ⟨d, name⟩).filter
            (carriesName (t.inheritApp (s.ownDefs ord) app).avpcode app)
          else none) := by
  rw [h.inheritApp_eq, lookup_foldl_inheritFrom_name h hnamed]

/-- What an application gets in its turn, it gets once. -/
theorem or_turn {α : Type} {x : UInt32} {l : List UInt32} (hx : x ∉ l) {o o' : Option α}
    (h : app = x → o = o') : (if app = x then o else none).or (if app ∈ l then o' else none) =
      if app ∈ x :: l then o' else none := by
  by_cases happ : app = x
  · rw [if_pos happ, if_neg (happ ▸ hx), if_pos (happ ▸ List.mem_cons_self), Option.or_none, h happ]
  · rw [if_neg happ, Option.none_or]
    exact if_congr (by rw [List.mem_cons, or_iff_right happ]) rfl rfl

theorem lookup_foldl_inheritApp_code {l : List UInt32} (hnodup : l.Nodup) (h : Merging s t)
    (app code vendorID : UInt32) :
    (l.foldl (inheritApp (s.ownDefs ord)) t).avpcode.lookup ⟨app, code, vendorID⟩ =
      (t.avpcode.lookup ⟨app, code, vendorID⟩).or
        (if app ∈ l then
          (s.ancestorApps app).findSome? fun d => s.avpcode.lookup ⟨d, code, vendorID⟩
          else none) := by
  induction l generalizing t with
  | nil => simp
  | cons x l ih =>
    obtain ⟨hx, hnodup⟩ := List.nodup_cons.1 hnodup
    rw [List.foldl_cons, ih hnodup (h.inheritApp x), lookup_inheritApp_code h, Option.or_assoc,
      or_turn hx]
    rintro rfl
    rfl

theorem lookup_foldl_inheritApp_name {l : List UInt32} (hnodup : l.Nodup) (h : Merging s t)
    (hnamed : Named s.avpcode s.avpname) (app : UInt32) (name : String) :
    (l.foldl (inheritApp (s.ownDefs ord)) t).avpname.lookup ⟨app, name⟩ =
      (t.avpname.lookup ⟨app, name⟩).or
        (if app ∈ l then
          (s.ancestorApps app).findSome? fun d => (s.avpname.lookup ⟨d, name⟩).filter
            (carriesName (l.foldl (inheritApp (s.ownDefs ord)) t).avpcode app)
          else none) := by
  induction l generalizing t with
  | nil => simp
  | cons x l ih =>
    obtain ⟨hx, hl⟩ := List.nodup_cons.1 hnodup
    rw [List.foldl_cons, ih hl (h.inheritApp x), lookup_inheritApp_name h hnamed,
      Option.or_assoc, or_turn hx]
    rintro rfl
    -- the applications still to come leave this one's code index alone
    have hcarries : carriesName (l.foldl (inheritApp (s.ownDefs ord))
        (t.inheritApp (s.ownDefs ord) app)).avpcode app =
        carriesName (t.inheritApp (s.ownDefs ord) app).avpcode app := by
      funext a
      unfold carriesName
      rw [lookup_foldl_inheritApp_code hl (h.inheritApp app), if_neg hx, Option.or_none]
    rw [hcarries]

theorem Merging.refl (s : Snapshot) : Merging s s := ⟨rfl, fun _ _ h => h, fun _ _ h => h⟩

theorem Merging.inheritAll (s : Snapshot) : Merging s (s.inheritAll ord) := by
  unfold Snapshot.inheritAll
  generalize ord.order 6 _ (s.ownDefs ord).apps = l
  induction l using List.reverseRecOn with
  | nil => exact Merging.refl s
  | append_singleton l x ih =>
    rw [List.foldl_append]
    exact ih.inheritApp x

theorem nodup_ownApps (ord : RangeOrder) (s : Snapshot) :
    (ord.order 6 _ (s.ownDefs ord).apps).Nodup :=
  (ord.perm _ _ _).nodup_iff.2 (nodup_fresh _ _)

/-- The application has indexes of its own: it is declared or has definitions. -/
def HasIndex (s : Snapshot) (app : UInt32) : Prop :=
  (s.appcode.lookup app).isSome = true ∨ ∃ code vendorID, (s.ownAVP app code vendorID).isSome = true

theorem OwnIndex.mem_ownApps (h : OwnIndex s) : app ∈ (s.ownDefs ord).apps ↔ s.HasIndex app := by
  rw [Snapshot.mem_ownApps]
  refine or_congr_right ⟨?_, ?_⟩
  · rintro (⟨idx, hidx, rfl⟩ | ⟨idx, hidx, rfl⟩)
    · exact ⟨idx.code, idx.vendorID, by rw [← h.codes]; exact hidx⟩
    · obtain ⟨a, ha⟩ := Option.isSome_iff_exists.1 hidx
      have hown : s.ownAVPByName idx.appID idx.name = some a := by rw [← h.names]; exact ha
      exact ⟨a.code, a.vendorID, by rw [((h.byName _ _ a).1 hown).1]; rfl⟩
  · rintro ⟨code, vendorID, hown⟩
    exact .inl ⟨⟨app, code, vendorID⟩, by rw [h.codes]; exact hown, rfl⟩

theorem OwnIndex.named (h : OwnIndex s) : Named s.avpcode s.avpname := by
  intro app name a
  rw [h.names, h.codes, h.byName]

theorem nearestAVP_eq (s : Snapshot) (app code vendorID : UInt32) :
    s.nearestAVP app code vendorID = (s.ownAVP app code vendorID).or
      ((s.ancestorApps app).findSome? fun d => s.ownAVP d code vendorID) := by
  unfold nearestAVP
  rw [List.findSome?_cons]
  cases s.ownAVP app code vendorID <;> rfl

theorem OwnIndex.inheritAll_code (h : OwnIndex s) (app code vendorID : UInt32) :
    (s.HasIndex app → (s.inheritAll ord).avpcode.lookup ⟨app, code, vendorID⟩ =
      s.nearestAVP app code vendorID) ∧
    (¬ s.HasIndex app → (s.inheritAll ord).avpcode.lookup ⟨app, code, vendorID⟩ = none) := by
  have hlook := @lookup_foldl_inheritApp_code ord s s _ (nodup_ownApps ord s) (Merging.refl s) app code vendorID
  have hmem : app ∈ ord.order 6 _ (s.ownDefs ord).apps ↔ s.HasIndex app :=
    ord.mem_order.trans h.mem_ownApps
  refine ⟨fun happ => ?_, fun happ => ?_⟩
  · rw [if_pos (hmem.2 happ), h.codes, funext fun d => h.codes d code vendorID] at hlook
    rw [nearestAVP_eq]
    exact hlook
  · rw [if_neg (mt hmem.1 happ), h.codes, Option.or_none] at hlook
    refine hlook.trans (Option.not_isSome_iff_eq_none.1 fun hsome => happ (.inr ⟨_, _, hsome⟩))

theorem OwnIndex.visibleIn_own (h : OwnIndex s) {name : String} {a : AVP}
    (ha : s.ownAVPByName app name = some a) : s.visibleIn app a = true := by
  unfold visibleIn
  rw [nearestAVP_eq, ((h.byName _ _ _).1 ha).1]
  simp

theorem OwnIndex.nearestByName_eq (h : OwnIndex s) (app : UInt32) (name : String) :
    s.nearestByName app name = (s.ownAVPByName app name).or
      ((s.ancestorApps app).findSome? fun d =>
        (s.ownAVPByName d name).filter (s.visibleIn app)) := by
  unfold nearestByName
  rw [List.findSome?_cons]
  cases hown : s.ownAVPByName app name with
  | none => rfl
  | some a =>
    rw [Option.filter_some, if_pos (h.visibleIn_own hown)]
    rfl

theorem OwnIndex.inheritAll_name (h : OwnIndex s) (app : UInt32) (name : String) :
    (s.HasIndex app → (s.inheritAll ord).avpname.lookup ⟨app, name⟩ =
      s.nearestByName app name) ∧
    (¬ s.HasIndex app → (s.inheritAll ord).avpname.lookup ⟨app, name⟩ = none) := by
  have hlook := @lookup_foldl_inheritApp_name ord s s _ (nodup_ownApps ord s) (Merging.refl s) h.named app name
  have hmem : app ∈ ord.order 6 _ (s.ownDefs ord).apps ↔ s.HasIndex app :=
    ord.mem_order.trans h.mem_ownApps
  refine ⟨fun happ => ?_, fun happ => ?_⟩
  · have hcarries : carriesName (s.inheritAll ord).avpcode app = s.visibleIn app := by
      funext a
      unfold carriesName visibleIn
      rw [(h.inheritAll_code app a.code a.vendorID).1 happ]
    unfold Snapshot.inheritAll at hcarries
    rw [if_pos (hmem.2 happ), h.names, hcarries] at hlook
    simp only [h.names] at hlook
    rw [h.nearestByName_eq]
    exact hlook
  · rw [if_neg (mt hmem.1 happ), h.names, Option.or_none] at hlook
    refine hlook.trans (Option.eq_none_iff_forall_not_mem.2 fun a ha => happ (.inr ?_))
    exact ⟨a.code, a.vendorID, by rw [((h.byName _ _ a).1 ha).1]; rfl⟩

end AllApplications

end Snapshot
end Diameter.Dict
