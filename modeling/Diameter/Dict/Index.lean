import Diameter.Dict.Inherit
import Diameter.Dict.Parser

/-!
# Dict.Index

What a build guarantees about the snapshot it publishes, and that every published snapshot has
come out of a build.

* `Merged s`: the indexes of `s` answer for the nearest definitions.
* `Indexed s`: in addition the direct parents of an application agree on the names it inherits, and
  all rules resolve.
* `build_indexed`: the spec of `build`.
* `Published.indexed`: the invariant over every history of calls.
-/

namespace Diameter.Dict

namespace Snapshot

open Lib

variable {ord : RangeOrder} {s s' : Snapshot} {name : String} {app p : UInt32}
  {names : GoMap UInt32 (List String)} {calls : List (RangeOrder × Op)}

/-! ## Agreement of the parents -/

/-- The identity recorded for a name. -/
def Records (name : String) (a : AVP) (seen : GoMap String Resolution) : Prop :=
  ∃ r, seen.lookup name = some r ∧ r.avp.code = a.code ∧ r.avp.vendorID = a.vendorID

section Agreement

variable {ownNames : List AppNameIdx} {name' : String} {a : AVP}
  {seen seen' : GoMap String Resolution}

theorem agreeOnName_records (h : s.agreeOnName ownNames app p seen name = .ok seen')
    (hown : (⟨app, name⟩ : AppNameIdx) ∉ ownNames) (ha : s.findAVPByName p name = .ok a) :
    Records name a seen' := by
  unfold agreeOnName at h
  rw [if_neg hown, ha] at h
  have hins : Records name a (seen.insert name ⟨p, a⟩) :=
    ⟨⟨p, a⟩, AList.lookup_insert _, rfl, rfl⟩
  dsimp only at h
  split at h
  · cases h
    exact hins
  split at h
  · cases h
  · cases h
    exact hins

theorem agreeOnName_keeps (h : s.agreeOnName ownNames app p seen name' = .ok seen')
    (hrec : Records name a seen) : Records name a seen' := by
  unfold agreeOnName at h
  split at h
  · cases h
    exact hrec
  split at h
  · cases h
    exact hrec
  rename_i b _
  obtain ⟨r, hr, hcode, hvendor⟩ := hrec
  by_cases hname : name = name'
  · subst hname
    rw [hr] at h
    dsimp only at h
    split at h
    · cases h
    rename_i hsame
    cases h
    rw [not_or, not_ne_iff, not_ne_iff] at hsame
    exact ⟨⟨p, b⟩, AList.lookup_insert _, hsame.1 ▸ hcode, hsame.2 ▸ hvendor⟩
  · have hkeep : Records name a (seen.insert name' ⟨p, b⟩) :=
      ⟨r, by rw [AList.lookup_insert_ne hname]; exact hr, hcode, hvendor⟩
    split at h
    · cases h
      exact hkeep
    split at h
    · cases h
    · cases h
      exact hkeep

theorem agreeOnParent_keeps
    (h : s.agreeOnParent ownNames names app seen p = .ok seen') (hrec : Records name a seen) :
    Records name a seen' := by
  unfold agreeOnParent at h
  split at h
  · cases h
    exact hrec
  · exact foldlM_invariant (fun _ _ _ _ hs hstep => agreeOnName_keeps hstep hs) h hrec

theorem agreeOnParent_records
    (h : s.agreeOnParent ownNames names app seen p = .ok seen') (hp : p ≠ 0)
    (hname : name ∈ names.at p) (hown : (⟨app, name⟩ : AppNameIdx) ∉ ownNames)
    (ha : s.findAVPByName p name = .ok a) : Records name a seen' := by
  unfold agreeOnParent at h
  rw [if_neg hp] at h
  exact foldlM_establishes hname (fun _ _ hstep => agreeOnName_records hstep hown ha)
    (fun _ _ _ _ hs hstep => agreeOnName_keeps hstep hs) h

end Agreement

theorem mem_indexNames (h : (s.avpname.lookup ⟨p, name⟩).isSome = true) :
    name ∈ ((ord.order 7 _ s.avpname.keys).foldl
      (fun m idx => m.append idx.appID idx.name) (∅ : GoMap UInt32 (List String))).at p := by
  rw [GoMap.at_foldl_append AppNameIdx.appID AppNameIdx.name, List.mem_append, List.mem_map]
  exact .inr ⟨⟨p, name⟩, List.mem_filter.2 ⟨ord.mem_order.2 (GoMap.mem_keys.2 h), by simp⟩, rfl⟩

theorem lookup_of_mem_at {m : GoMap UInt32 (List UInt32)} {k : UInt32} (h : p ∈ m.at k) :
    m.lookup k = some (m.at k) := by
  unfold GoMap.at at h ⊢
  cases hm : m.lookup k with
  | none =>
    rw [hm] at h
    cases h
  | some l => rfl

/-- Two parents that resolve a name the child does not own give it the same identity. -/
theorem validateInheritedNames_agree {ownNames : List AppNameIdx}
    (h : s.validateInheritedNames ord ownNames = .ok ()) {app q : UInt32} {a b : AVP}
    (hp : p ∈ s.parents.at app) (hq : q ∈ s.parents.at app) (hp0 : p ≠ 0) (hq0 : q ≠ 0)
    (hpn : (s.avpname.lookup ⟨p, name⟩).isSome = true)
    (hqn : (s.avpname.lookup ⟨q, name⟩).isSome = true)
    (hown : (⟨app, name⟩ : AppNameIdx) ∉ ownNames) (ha : s.findAVPByName p name = .ok a)
    (hb : s.findAVPByName q name = .ok b) : a.code = b.code ∧ a.vendorID = b.vendorID := by
  have hcheck := GoMap.forM_range h (lookup_of_mem_at hp)
  cases hfold : (s.parents.at app).foldlM (s.agreeOnParent ownNames
      ((ord.order 7 _ s.avpname.keys).foldl (fun m idx => m.append idx.appID idx.name) ∅) app) ∅ with
  | error e =>
    rw [hfold] at hcheck
    cases hcheck
  | ok seen =>
    have hra : Records name a seen := foldlM_establishes hp
      (fun _ _ hstep => agreeOnParent_records hstep hp0 (mem_indexNames hpn) hown ha)
      (fun _ _ _ _ hs hstep => agreeOnParent_keeps hstep hs) hfold
    have hrb : Records name b seen := foldlM_establishes hq
      (fun _ _ hstep => agreeOnParent_records hstep hq0 (mem_indexNames hqn) hown hb)
      (fun _ _ _ _ hs hstep => agreeOnParent_keeps hstep hs) hfold
    obtain ⟨r, hr, hcode, hvendor⟩ := hra
    obtain ⟨r', hr', hcode', hvendor'⟩ := hrb
    rw [hr] at hr'
    cases hr'
    exact ⟨hcode.symm.trans hcode', hvendor.symm.trans hvendor'⟩

/-! ## Parents -/

theorem validateParents_ok (h : s.validateParents ord = .ok ()) :
    s.parents.at 0 = [] ∧
      ∀ app, ∀ p ∈ s.parents.at app, p ≠ 0 → (s.appcode.lookup p).isSome = true := by
  unfold validateParents at h
  split at h
  · cases h
  rename_i hbase
  refine ⟨not_ne_iff.1 hbase, fun app p hp hp0 => ?_⟩
  have hparents := GoMap.forM_range (andThen_eq_ok.1 h).1 (lookup_of_mem_at hp)
  have hcheck := forM_eq_ok.1 hparents p hp
  unfold checkParent at hcheck
  split at hcheck
  · cases hcheck
  split at hcheck
  · cases hcheck
  rename_i hdecl
  by_contra hnone
  exact hdecl ⟨hp0, by simpa using hnone⟩

/-! ## Lookups along the ancestors -/

theorem ancestorApps_eq (h : app ≠ 0) : ∃ ds, s.ancestorApps app = ds ++ [0] := by
  unfold ancestorApps
  rw [if_neg h]
  exact ⟨_, rfl⟩

theorem ancestorApps_of_no_parents (h : app ≠ 0) (hp : s.parents.at app = []) :
    s.ancestorApps app = [0] := by
  unfold ancestorApps
  rw [if_neg h, hp]
  simp only [fresh, bfs_nil, List.nil_append]

/-- Where the nearest definition of a name is found. Nothing before it defines its identity: a
nearer definition of the identity would either own the name too or hide it. -/
theorem nearestByName_split {a : AVP}
    (hbyName : ∀ app name a, s.ownAVPByName app name = some a ↔
      s.ownAVP app a.code a.vendorID = some a ∧ a.name = name)
    (h : s.nearestByName app name = some a) :
    ∃ before d after, app :: s.ancestorApps app = before ++ d :: after ∧
      s.ownAVPByName d name = some a ∧ s.visibleIn app a = true ∧
      ∀ e ∈ before, (s.ownAVPByName e name).filter (s.visibleIn app) = none ∧
        s.ownAVP e a.code a.vendorID = none := by
  obtain ⟨before, d, after, hwalk, hd, hbefore⟩ := List.findSome?_eq_some_iff.1 h
  obtain ⟨hown, hvisible⟩ := Option.filter_eq_some_iff.1 hd
  refine ⟨before, d, after, hwalk, hown, hvisible, fun e he => ⟨hbefore e he, ?_⟩⟩
  cases hfirst : before.findSome? fun e => s.ownAVP e a.code a.vendorID with
  | none => exact List.findSome?_eq_none_iff.1 hfirst e he
  | some r =>
    have hnearest : s.nearestAVP app a.code a.vendorID = some r := by
      unfold nearestAVP
      rw [hwalk, List.findSome?_append, hfirst, Option.some_or]
    obtain ⟨e', he', hr⟩ := List.exists_of_findSome?_eq_some hfirst
    obtain ⟨_, hrc, hrv⟩ := Sources.ownAVP_key hr
    unfold visibleIn at hvisible
    rw [hnearest] at hvisible
    have hrname : r.name = a.name := by simpa using hvisible
    have hrown : s.ownAVPByName e' name = some r :=
      (hbyName _ _ _).2 ⟨by rw [hrc, hrv]; exact hr, hrname.trans ((hbyName _ _ _).1 hown).2⟩
    have hrvisible : s.visibleIn app r = true := by
      unfold visibleIn
      rw [hrc, hrv, hnearest]
      simp
    have := hbefore e' he'
    rw [hrown, Option.filter_some, if_pos hrvisible] at this
    cases this

theorem nearestAVP_of_nearestByName {a : AVP}
    (hbyName : ∀ app name a, s.ownAVPByName app name = some a ↔
      s.ownAVP app a.code a.vendorID = some a ∧ a.name = name)
    (h : s.nearestByName app name = some a) :
    s.nearestAVP app a.code a.vendorID = some a ∧ a.name = name := by
  obtain ⟨before, d, after, hwalk, hown, _, hbefore⟩ := nearestByName_split hbyName h
  obtain ⟨hcode, hname⟩ := (hbyName _ _ _).1 hown
  have hnone : before.findSome? (fun e => s.ownAVP e a.code a.vendorID) = none :=
    List.findSome?_eq_none_iff.2 fun e he => (hbefore e he).2
  refine ⟨?_, hname⟩
  unfold nearestAVP
  rw [hwalk, List.findSome?_append, hnone, Option.none_or, List.findSome?_cons, hcode]

/-! ## The state a build publishes -/

/-- The indexes of `s` answer for the nearest definitions of its sources. -/
structure Merged (s : Snapshot) : Prop where
  code : ∀ app, s.HasIndex app → ∀ code vendorID,
    s.avpcode.lookup ⟨app, code, vendorID⟩ = s.nearestAVP app code vendorID
  noCode : ∀ app, ¬ s.HasIndex app → ∀ code vendorID,
    s.avpcode.lookup ⟨app, code, vendorID⟩ = none
  name : ∀ app, s.HasIndex app → ∀ name, s.avpname.lookup ⟨app, name⟩ = s.nearestByName app name
  noName : ∀ app, ¬ s.HasIndex app → ∀ name, s.avpname.lookup ⟨app, name⟩ = none
  byName : ∀ app name a, s.ownAVPByName app name = some a ↔
    s.ownAVP app a.code a.vendorID = some a ∧ a.name = name
  parents : ∀ app, s.parents.at app = fresh [] (s.declaredParents app)
  declared : ∀ app, (s.appcode.lookup app).isSome = true ↔ ∃ a ∈ s.apps, a.id = app
  base : s.parents.at 0 = []

/-- The merge turns the own indexes into those of the nearest definitions. -/
theorem OwnIndex.merged (h : OwnIndex s) (hbase : s.parents.at 0 = []) :
    Merged (s.inheritAll ord) := by
  have hcode := fun app code vendorID => @OwnIndex.inheritAll_code ord _ h app code vendorID
  have hname := fun app name => @OwnIndex.inheritAll_name ord _ h app name
  have hsources := (@Merging.inheritAll ord s).sources
  generalize s.inheritAll ord = merged at hsources hcode hname
  -- the merge changes nothing but the two indexes
  obtain ⟨codes, names, rfl⟩ : ∃ codes names,
      merged = { s with avpcode := codes, avpname := names } := ⟨_, _, hsources⟩
  exact {
    code := fun app happ code vendorID => (hcode app code vendorID).1 happ
    noCode := fun app happ code vendorID => (hcode app code vendorID).2 happ
    name := fun app happ name => (hname app name).1 happ
    noName := fun app happ name => (hname app name).2 happ
    byName := h.byName
    parents := h.parents
    declared := h.declared
    base := hbase }

structure Indexed (s : Snapshot) : Prop extends Merged s where
  registered : ∀ r ∈ s.regs,
    ∃ a, s.ownAVP r.app r.avp.code r.avp.vendorID = some a ∧ sameAVP r.avp a = true
  parent : ∀ app, ∀ p ∈ s.parents.at app, p ≠ 0 → (s.appcode.lookup p).isSome = true
  inherited : ∃ ord ownNames, s.validateInheritedNames ord ownNames = .ok () ∧
    ∀ app name, (⟨app, name⟩ : AppNameIdx) ∈ ownNames ↔ (s.ownAVPByName app name).isSome = true
  rules : ∃ ord, s.validateRules ord = .ok ()

theorem build_eq_ok : s.build ord = .ok s' ↔ ∃ loaded named registered,
    s.indexFiles = .ok loaded ∧ loaded.validateParents ord = .ok () ∧
    loaded.indexNames ord = .ok named ∧ named.indexRegistrations = .ok registered ∧
    (registered.inheritAll ord).validateInheritedNames ord registered.avpname.keys = .ok () ∧
    (registered.inheritAll ord).validateRules ord = .ok () ∧ s' = registered.inheritAll ord := by
  unfold build
  constructor
  · intro h
    obtain ⟨loaded, hload, h⟩ := bind_eq_ok.1 h
    obtain ⟨hvalid, h⟩ := andThen_eq_ok.1 h
    obtain ⟨named, hname, h⟩ := bind_eq_ok.1 h
    obtain ⟨registered, hreg, h⟩ := bind_eq_ok.1 h
    obtain ⟨merged, hmerge, h⟩ := bind_eq_ok.1 h
    obtain ⟨hrules, h⟩ := andThen_eq_ok.1 h
    unfold mergeInheritedAVPs at hmerge
    split at hmerge
    · cases hmerge
    rename_i hnames
    cases hmerge
    cases h
    exact ⟨loaded, named, registered, hload, hvalid, hname, hreg, hnames, hrules, rfl⟩
  · rintro ⟨loaded, named, registered, hload, hvalid, hname, hreg, hnames, hrules, rfl⟩
    have hmerge : registered.mergeInheritedAVPs ord = .ok (registered.inheritAll ord) := by
      unfold mergeInheritedAVPs
      rw [hnames]
    exact bind_eq_ok.2 ⟨loaded, hload, andThen_eq_ok.2 ⟨hvalid, bind_eq_ok.2 ⟨named, hname,
      bind_eq_ok.2 ⟨registered, hreg, bind_eq_ok.2 ⟨_, hmerge, andThen_eq_ok.2 ⟨hrules, rfl⟩⟩⟩⟩⟩⟩

/-- The phases after the files change nothing but the two indexes of AVPs. -/
theorem phases_frame {loaded named registered : Snapshot}
    (hname : loaded.indexNames ord = .ok named) (hreg : named.indexRegistrations = .ok registered) :
    registered.inheritAll ord = { loaded with
      avpcode := (registered.inheritAll ord).avpcode
      avpname := (registered.inheritAll ord).avpname } := by
  have hregistered : registered = { named with
      avpcode := registered.avpcode, avpname := registered.avpname } := by
    refine foldlM_invariant (P := fun t : Snapshot => t = { named with
      avpcode := t.avpcode, avpname := t.avpname }) ?_ hreg rfl
    intro t r t' _ ht hstep
    rw [(addRegistration_eq hstep).2.2]
    dsimp only
    rw [ht]
  unfold indexNames at hname
  split at hname
  · cases hname
  cases hname
  have hsources := (@Merging.inheritAll ord registered).sources
  rw [hregistered] at hsources
  rw [hregistered]
  exact hsources

theorem build_indexed (hparents : s.parents = ∅) (happcode : s.appcode = ∅)
    (havpcode : s.avpcode = ∅) (h : s.build ord = .ok s') :
    Indexed s' ∧ s'.files = s.files ∧ s'.regs = s.regs := by
  obtain ⟨loaded, named, registered, hload, hvalid, hname, hreg, hnames, hrules, rfl⟩ :=
    build_eq_ok.1 h
  obtain ⟨hown, hfiles, hregs, hp, ha⟩ :=
    ownIndex_of_phases hparents happcode havpcode hload hname hreg
  obtain ⟨hbase, hdecl⟩ := validateParents_ok hvalid
  rw [← hp] at hbase
  rw [← hp, ← ha] at hdecl
  have hmerged := @OwnIndex.merged ord registered hown hbase
  have hsources := (@Merging.inheritAll ord registered).sources
  generalize registered.inheritAll ord = merged at hsources hmerged hnames hrules
  obtain ⟨codes, names, rfl⟩ : ∃ codes names,
      merged = { registered with avpcode := codes, avpname := names } := ⟨_, _, hsources⟩
  refine ⟨{ hmerged with
    registered := hown.registered
    parent := hdecl
    inherited := ⟨ord, _, hnames, fun app name => ?_⟩
    rules := ⟨ord, hrules⟩ }, hfiles, hregs⟩
  rw [GoMap.mem_keys, hown.names]
  rfl

theorem Indexed.policy (h : Indexed s) (strict : Bool) (depth : Nat) :
    Indexed { s with strict := strict, maxGroupedDepth := depth } where
  code := h.code
  noCode := h.noCode
  name := h.name
  noName := h.noName
  byName := h.byName
  registered := h.registered
  parents := h.parents
  declared := h.declared
  base := h.base
  parent := h.parent
  inherited := h.inherited
  rules := h.rules

theorem with_indexed {files : List File} {regs : List Registration}
    (h : s.with ord files regs = .ok s') :
    Indexed s' ∧ s'.files = s.files ++ files ∧ s'.regs = s.regs ++ regs :=
  build_indexed rfl rfl rfl h

theorem emptySnapshot_indexed : Indexed emptySnapshot :=
  (@build_indexed .insertionOrder emptySnapshot emptySnapshot rfl rfl rfl rfl).1

end Snapshot

/-! ## Histories -/

open Lib Snapshot

theorem Op.apply_cases {op : Op} (h : op.apply ord s = .ok s') :
    (∃ files regs, s.with ord files regs = .ok s') ∨
      ∃ strict depth, s' = { s with strict := strict, maxGroupedDepth := depth } := by
  cases op with
  | load files =>
    obtain ⟨parsed, _, hadd⟩ := bind_eq_ok.1 h
    unfold Snapshot.add at hadd
    split at hadd
    · cases hadd
      exact .inr ⟨_, _, rfl⟩
    · exact .inl ⟨_, _, hadd⟩
  | registerAVP app avps =>
    obtain ⟨defs, _, h⟩ := bind_eq_ok.1 h
    obtain ⟨regs, _, hwith⟩ := bind_eq_ok.1 h
    split at hwith
    · cases hwith
      exact .inr ⟨_, _, rfl⟩
    · exact .inl ⟨_, _, hwith⟩
  | setStrict strict =>
    cases h
    exact .inr ⟨_, _, rfl⟩
  | setMaxGroupedDepth depth =>
    cases h
    exact .inr ⟨_, _, rfl⟩

theorem Op.apply_indexed {op : Op} (hs : Indexed s) (h : op.apply ord s = .ok s')
    : Indexed s' ∧ (∃ files, s'.files = s.files ++ files) ∧ ∃ regs, s'.regs = s.regs ++ regs := by
  rcases Op.apply_cases h with ⟨files, regs, hwith⟩ | ⟨strict, depth, rfl⟩
  · obtain ⟨hindexed, hfiles, hregs⟩ := with_indexed hwith
    exact ⟨hindexed, ⟨_, hfiles⟩, _, hregs⟩
  · exact ⟨hs.policy strict depth, ⟨[], (List.append_nil _).symm⟩, [], (List.append_nil _).symm⟩

theorem run_indexed (hs : Indexed s)
    (h : run calls s = .ok s') : Indexed s' :=
  run_invariant (fun _ call _ _ hs hstep => (call.2.apply_indexed hs hstep).1) h hs

theorem run_regs (hs : Indexed s)
    (h : run calls s = .ok s') : s.regs ⊆ s'.regs := by
  have hinv : Indexed s' ∧ s.regs ⊆ s'.regs := by
    refine run_invariant (P := fun t => Indexed t ∧ s.regs ⊆ t.regs) ?_ h ⟨hs, fun _ hr => hr⟩
    intro t call t' _ ⟨ht, hsub⟩ hstep
    obtain ⟨ht', _, regs, hregs⟩ := call.2.apply_indexed ht hstep
    refine ⟨ht', fun r hr => ?_⟩
    rw [hregs]
    exact List.mem_append_left _ (hsub hr)
  exact hinv.2

theorem Published.indexed (h : Published s) : Indexed s := by
  obtain ⟨calls, hrun⟩ := h
  exact run_indexed emptySnapshot_indexed hrun

end Diameter.Dict
