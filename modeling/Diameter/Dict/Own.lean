import Diameter.Dict.Build

/-!
# Dict.Own

The definitions an application has of its own, read off the dictionaries and registrations, and
the phases of a build that index them.

* `Sources`: the files and registrations themselves, without any index.
* `ownAVP`: the last registration for a wire identity, else the last definition loaded for it.
* `OwnIndex s`: the code and name indexes of `s` hold exactly the own definitions, and every
  registration still means what it meant.

`build` reaches a state with `OwnIndex` before it merges inherited definitions
(`indexRegistrations_ownIndex`).
-/

namespace Diameter.Dict

open Lib

variable {s s' : Snapshot} {names names' : GoMap AppNameIdx AVP} {r : Registration}
  {codes : GoMap CodeIdx AVP} {regs : List Registration}

def Registration.idx (r : Registration) : CodeIdx := ⟨r.app, r.avp.code, r.avp.vendorID⟩

/-- What a dictionary is made of: the files loaded and the AVPs registered, in order. -/
structure Sources where
  files : List File := []
  regs : List Registration := []

/-- The definitions of the applications in load order, each with its application. -/
def loadedDefs (apps : List App) : List Registration :=
  apps.flatMap fun app => app.avp.map (Registration.mk app.id)

/-- The last of the definitions with a wire identity. -/
def lastDef (defs : List Registration) (idx : CodeIdx) : Option AVP :=
  (defs.filter fun r => r.idx = idx).getLast?.map Registration.avp

namespace Sources

def apps (d : Sources) : List App := d.files.flatMap File.app

def loadedAVP (d : Sources) (idx : CodeIdx) : Option AVP := lastDef (loadedDefs d.apps) idx

def registeredAVP (d : Sources) (idx : CodeIdx) : Option AVP := lastDef d.regs idx

/-- The application's own definition: its registered one, else its last-loaded one. -/
def ownAVP (d : Sources) (app code vendorID : UInt32) : Option AVP :=
  (d.registeredAVP ⟨app, code, vendorID⟩).or (d.loadedAVP ⟨app, code, vendorID⟩)

/-- The own definition that carries `name`. -/
def ownAVPByName (d : Sources) (app : UInt32) (name : String) : Option AVP :=
  ((loadedDefs d.apps ++ d.regs).map Registration.avp).find? fun a =>
    decide (a.name = name) && decide (d.ownAVP app a.code a.vendorID = some a)

/-- The parents the dictionaries declare for an application, in load order. -/
def declaredParents (d : Sources) (app : UInt32) : List UInt32 :=
  (d.apps.filter fun a => a.id = app).flatMap App.inherits

end Sources

theorem lastDef_key {defs : List Registration} {idx : CodeIdx} {a : AVP}
    (h : lastDef defs idx = some a) : a ∈ defs.map Registration.avp ∧ a.code = idx.code ∧
      a.vendorID = idx.vendorID := by
  obtain ⟨r, hr, rfl⟩ := Option.map_eq_some_iff.1 h
  have hmem := List.mem_filter.1 (List.mem_of_getLast? hr)
  have hidx : r.idx = idx := of_decide_eq_true hmem.2
  exact ⟨List.mem_map_of_mem hmem.1, congrArg CodeIdx.code hidx, congrArg CodeIdx.vendorID hidx⟩

theorem Sources.ownAVP_key {d : Sources} {app code vendorID : UInt32} {a : AVP}
    (h : d.ownAVP app code vendorID = some a) :
    a ∈ (loadedDefs d.apps ++ d.regs).map Registration.avp ∧ a.code = code ∧
      a.vendorID = vendorID := by
  rw [List.map_append, List.mem_append]
  rcases Option.or_eq_some_iff.1 h with h | ⟨_, h⟩
  · obtain ⟨hmem, hkey⟩ := lastDef_key h
    exact ⟨.inr hmem, hkey⟩
  · obtain ⟨hmem, hkey⟩ := lastDef_key h
    exact ⟨.inl hmem, hkey⟩

namespace Snapshot

def sources (s : Snapshot) : Sources := ⟨s.files, s.regs⟩

/-- The own definition of an application, from the sources of the snapshot. -/
def ownAVP (s : Snapshot) : UInt32 → UInt32 → UInt32 → Option AVP := s.sources.ownAVP

def ownAVPByName (s : Snapshot) : UInt32 → String → Option AVP := s.sources.ownAVPByName

def declaredParents (s : Snapshot) : UInt32 → List UInt32 := s.sources.declaredParents

/-! ## Indexing the files -/

theorem addApp_eq {app : App} (h : s.addApp app = .ok s') :
    s' = { s with
      parents := app.inherits.foldl (addParent app.id) s.parents
      appcode := s.appcode.insert app.id app
      command := s'.command
      avpcode := (app.avp.map (Registration.mk app.id)).foldl
        (fun m r => m.insert r.idx r.avp) s.avpcode } := by
  unfold addApp at h
  split at h
  · cases h
  cases h
  rw [List.foldl_map]
  rfl

/-- The indexes after a list of applications; only the commands can fail. -/
theorem foldlM_addApp_eq {apps : List App} (h : apps.foldlM addApp s = .ok s') :
    s' = { s with
      parents := apps.foldl (fun m app => app.inherits.foldl (addParent app.id) m) s.parents
      appcode := apps.foldl (fun m app => m.insert app.id app) s.appcode
      command := s'.command
      avpcode := (loadedDefs apps).foldl (fun m r => m.insert r.idx r.avp) s.avpcode } := by
  induction apps generalizing s with
  | nil =>
    cases h
    rfl
  | cons app apps ih =>
    rw [List.foldlM_cons] at h
    obtain ⟨s1, h1, hrest⟩ := bind_eq_ok.1 h
    have heq := ih hrest
    rw [addApp_eq h1] at heq
    rw [heq]
    simp only [loadedDefs, List.flatMap_cons, List.foldl_append, List.foldl_cons]

theorem at_foldl_addParent (app : UInt32) (ps : List UInt32) (m : GoMap UInt32 (List UInt32))
    (k : UInt32) :
    (ps.foldl (addParent app) m).at k =
      m.at k ++ (if k = app then fresh (m.at k) ps else []) := by
  induction ps generalizing m with
  | nil => simp [fresh]
  | cons p ps ih =>
    rw [List.foldl_cons, ih]
    by_cases hk : k = app
    · subst hk
      rw [if_pos rfl, if_pos rfl]
      by_cases hp : p ∈ m.at k
      · simp only [addParent, fresh, if_pos hp]
      · simp only [addParent, fresh, if_neg hp, GoMap.at_append, if_pos, List.append_assoc,
          List.singleton_append]
    · rw [if_neg hk, if_neg hk]
      unfold addParent
      split
      · rfl
      · rw [GoMap.at_append, if_neg hk]

theorem at_foldl_inherits (apps : List App) (m : GoMap UInt32 (List UInt32)) (k : UInt32) :
    (apps.foldl (fun m app => app.inherits.foldl (addParent app.id) m) m).at k =
      m.at k ++ fresh (m.at k) ((apps.filter fun a => a.id = k).flatMap App.inherits) := by
  induction apps generalizing m with
  | nil => simp [fresh]
  | cons app apps ih =>
    rw [List.foldl_cons, ih, at_foldl_addParent, List.filter_cons]
    by_cases hk : k = app.id
    · rw [if_pos hk, if_pos (decide_eq_true hk.symm), List.flatMap_cons, fresh_append,
        List.append_assoc]
    · rw [if_neg hk, if_neg (by simpa using fun h => hk (Eq.symm h)), List.append_nil]

theorem lookup_foldl_appcode (apps : List App) (m : GoMap UInt32 App) (k : UInt32) :
    (apps.foldl (fun m app => m.insert app.id app) m).lookup k =
      ((apps.filter fun a => a.id = k).getLast?).or (m.lookup k) := by
  rw [GoMap.lookup_foldl_insert App.id (fun a => a), Option.map_id']

/-! ## Names and registrations -/

/-- Every definition of the code index sits at its own wire identity. -/
def Keyed (codes : GoMap CodeIdx AVP) : Prop :=
  ∀ idx a, codes.lookup idx = some a → a.code = idx.code ∧ a.vendorID = idx.vendorID

/-- The name index is the code index read by name. -/
def Named (codes : GoMap CodeIdx AVP) (names : GoMap AppNameIdx AVP) : Prop :=
  ∀ app name a, names.lookup ⟨app, name⟩ = some a ↔
    codes.lookup ⟨app, a.code, a.vendorID⟩ = some a ∧ a.name = name

theorem addName_eq {entry : Sigma fun _ : CodeIdx => AVP}
    (h : addName names entry = .ok names') :
    names.lookup ⟨entry.1.appID, entry.2.name⟩ = none ∧
      names' = names.insert ⟨entry.1.appID, entry.2.name⟩ entry.2 := by
  unfold addName at h
  split at h
  · cases h
  rename_i hnone
  cases h
  exact ⟨hnone, rfl⟩

theorem lookup_foldlM_addName {l : List (Sigma fun _ : CodeIdx => AVP)}
    (h : l.foldlM addName names = .ok names')
    (key : AppNameIdx) (a : AVP) :
    names'.lookup key = some a ↔
      names.lookup key = some a ∨ ∃ e ∈ l, e.2 = a ∧ key = ⟨e.1.appID, a.name⟩ := by
  induction l generalizing names with
  | nil =>
    cases h
    simp
  | cons e l ih =>
    rw [List.foldlM_cons] at h
    obtain ⟨names1, h1, hrest⟩ := bind_eq_ok.1 h
    obtain ⟨hnone, rfl⟩ := addName_eq h1
    rw [ih hrest, GoMap.lookup_insert_eq, List.exists_mem_cons_iff]
    by_cases hkey : key = ⟨e.1.appID, e.2.name⟩
    · subst hkey
      rw [if_pos rfl, hnone]
      grind
    · rw [if_neg hkey]
      grind

theorem indexNames_eq {ord : RangeOrder} (h : s.indexNames ord = .ok s')
    (hkeyed : Keyed s.avpcode) :
    s' = { s with avpname := s'.avpname } ∧ Named s'.avpcode s'.avpname := by
  unfold indexNames at h
  split at h
  · cases h
  rename_i names hnames
  cases h
  refine ⟨rfl, fun app name a => ?_⟩
  rw [lookup_foldlM_addName hnames, GoMap.lookup_empty_eq]
  constructor
  · rintro (h | ⟨e, he, rfl, hkey⟩)
    · cases h
    · have hlook := GoMap.lookup_of_mem ((ord.mem_order).1 he)
      obtain ⟨hcode, hvendor⟩ := hkeyed _ _ hlook
      obtain ⟨rfl, rfl⟩ := AppNameIdx.mk.inj hkey
      rw [hcode, hvendor]
      exact ⟨hlook, rfl⟩
  · rintro ⟨hlook, rfl⟩
    exact .inr ⟨_, (ord.mem_order).2 (GoMap.mem_entries hlook), rfl, rfl⟩

/-- A registration is accepted where what is already there means the same. -/
theorem addRegistration_eq
    (h : s.addRegistration r = .ok s') :
    (∀ a, s.avpcode.lookup r.idx = some a → sameAVP a r.avp = true) ∧
    (∀ a, s.avpname.lookup ⟨r.app, r.avp.name⟩ = some a → sameAVP a r.avp = true) ∧
    s' = { s with
      avpcode := s.avpcode.insert r.idx r.avp
      avpname := s.avpname.insert ⟨r.app, r.avp.name⟩ r.avp } := by
  unfold addRegistration at h
  simp only at h
  split at h
  · cases h
  · cases h
  rename_i hcode hname
  cases h
  refine ⟨fun a ha => ?_, fun a ha => ?_, rfl⟩
  · unfold Registration.idx at ha
    rw [ha, Option.filter_some] at hcode
    by_contra hne
    rw [if_pos (by simpa using hne)] at hcode
    cases hcode
  · rw [ha, Option.filter_some] at hname
    by_contra hne
    rw [if_pos (by simpa using hne)] at hname
    cases hname

theorem Named.insert
    (h : Named codes names)
    (hcode : ∀ a, codes.lookup r.idx = some a → sameAVP a r.avp = true)
    (hname : ∀ a, names.lookup ⟨r.app, r.avp.name⟩ = some a → sameAVP a r.avp = true) :
    Named (codes.insert r.idx r.avp) (names.insert ⟨r.app, r.avp.name⟩ r.avp) := by
  intro app name a
  rw [GoMap.lookup_insert_eq, GoMap.lookup_insert_eq]
  by_cases hn : (⟨app, name⟩ : AppNameIdx) = ⟨r.app, r.avp.name⟩
  · obtain ⟨rfl, rfl⟩ := AppNameIdx.mk.inj hn
    rw [if_pos rfl]
    by_cases hc : (⟨r.app, a.code, a.vendorID⟩ : CodeIdx) = r.idx
    · rw [if_pos hc]
      exact ⟨fun h => ⟨h, by cases h; rfl⟩, fun h => h.1⟩
    rw [if_neg hc]
    refine ⟨fun ha => ?_, fun ⟨ha, hname'⟩ => ?_⟩
    · cases ha
      exact absurd rfl hc
    · obtain ⟨_, hcode', hvendor'⟩ := key_of_sameAVP (hname a ((h r.app _ a).2 ⟨ha, hname'⟩))
      exact absurd (by rw [hcode', hvendor']; rfl) hc
  · rw [if_neg hn, h app name a]
    by_cases hc : (⟨app, a.code, a.vendorID⟩ : CodeIdx) = r.idx
    · obtain ⟨rfl, _⟩ := CodeIdx.mk.inj hc
      rw [if_pos hc, hc]
      refine ⟨fun ⟨ha, hname'⟩ => ?_, fun ⟨ha, hname'⟩ => ?_⟩
      · exact absurd (by rw [← hname', (key_of_sameAVP (hcode a ha)).1]) hn
      · cases ha
        exact absurd (by rw [hname']) hn
    · rw [if_neg hc]

theorem Keyed.insert (h : Keyed codes) (r : Registration) :
    Keyed (codes.insert r.idx r.avp) := by
  intro idx a ha
  rw [GoMap.lookup_insert_eq] at ha
  split at ha
  next hidx =>
    cases ha
    rw [hidx]
    exact ⟨rfl, rfl⟩
  · exact h idx a ha

theorem foldl_insert_keyed (defs : List Registration)
    (h : Keyed codes) : Keyed (defs.foldl (fun m r => m.insert r.idx r.avp) codes) := by
  induction defs generalizing codes with
  | nil => exact h
  | cons r defs ih => exact ih (h.insert r)

theorem foldlM_addRegistration_eq
    (h : regs.foldlM addRegistration s = .ok s') (hnamed : Named s.avpcode s.avpname) :
    s' = { s with
      avpcode := regs.foldl (fun m r => m.insert r.idx r.avp) s.avpcode
      avpname := s'.avpname } ∧ Named s'.avpcode s'.avpname := by
  induction regs generalizing s with
  | nil =>
    cases h
    exact ⟨rfl, hnamed⟩
  | cons r regs ih =>
    rw [List.foldlM_cons] at h
    obtain ⟨s1, h1, hrest⟩ := bind_eq_ok.1 h
    obtain ⟨hcode, hname, rfl⟩ := addRegistration_eq h1
    obtain ⟨heq, hnamed'⟩ := ih hrest (hnamed.insert hcode hname)
    exact ⟨heq, hnamed'⟩

theorem lookup_registered
    (h : regs.foldlM addRegistration s = .ok s') (hr : r ∈ regs) :
    ∃ a, s'.avpcode.lookup r.idx = some a ∧ sameAVP r.avp a = true := by
  refine foldlM_establishes (P := fun s => ∃ a, s.avpcode.lookup r.idx = some a ∧
    sameAVP r.avp a = true) hr (fun s s' hstep => ?_) (fun s r' s' _ ⟨a, ha, hsame⟩ hstep => ?_) h
  · obtain ⟨_, _, rfl⟩ := addRegistration_eq hstep
    exact ⟨r.avp, AList.lookup_insert _, sameAVP_iff.2 rfl⟩
  obtain ⟨hcode, _, rfl⟩ := addRegistration_eq hstep
  by_cases hidx : r.idx = r'.idx
  · refine ⟨r'.avp, ?_, sameAVP_trans hsame (hcode a (hidx ▸ ha))⟩
    rw [hidx]
    exact AList.lookup_insert _
  · exact ⟨a, by rw [AList.lookup_insert_ne hidx]; exact ha, hsame⟩

/-! ## The own index -/

/-- The state of the indexes before anything is inherited. -/
structure OwnIndex (s : Snapshot) : Prop where
  codes : ∀ app code vendorID,
    s.avpcode.lookup ⟨app, code, vendorID⟩ = s.ownAVP app code vendorID
  names : ∀ app name, s.avpname.lookup ⟨app, name⟩ = s.ownAVPByName app name
  byName : ∀ app name a, s.ownAVPByName app name = some a ↔
    s.ownAVP app a.code a.vendorID = some a ∧ a.name = name
  registered : ∀ r ∈ s.regs,
    ∃ a, s.ownAVP r.app r.avp.code r.avp.vendorID = some a ∧ sameAVP r.avp a = true
  parents : ∀ app, s.parents.at app = fresh [] (s.declaredParents app)
  declared : ∀ app, (s.appcode.lookup app).isSome = true ↔ ∃ a ∈ s.apps, a.id = app

theorem ownAVPByName_of_named (names : GoMap AppNameIdx AVP)
    (h : ∀ app name a, names.lookup ⟨app, name⟩ = some a ↔
      s.ownAVP app a.code a.vendorID = some a ∧ a.name = name) (app : UInt32) (name : String) :
    names.lookup ⟨app, name⟩ = s.ownAVPByName app name := by
  unfold ownAVPByName Sources.ownAVPByName
  cases hlook : names.lookup ⟨app, name⟩ with
  | none =>
    refine (List.find?_eq_none.2 fun a _ ha => ?_).symm
    rw [Bool.and_eq_true, decide_eq_true_iff, decide_eq_true_iff] at ha
    rw [(h app name a).2 ⟨ha.2, ha.1⟩] at hlook
    cases hlook
  | some a =>
    obtain ⟨hown, hname⟩ := (h app name a).1 hlook
    cases hfind : ((loadedDefs s.sources.apps ++ s.sources.regs).map Registration.avp).find?
        fun a => decide (a.name = name) &&
          decide (s.sources.ownAVP app a.code a.vendorID = some a) with
    | none =>
      have := List.find?_eq_none.1 hfind a (Sources.ownAVP_key hown).1
      rw [hname, show s.sources.ownAVP app a.code a.vendorID = some a from hown] at this
      simp at this
    | some b =>
      have hb := List.find?_some hfind
      rw [Bool.and_eq_true, decide_eq_true_iff, decide_eq_true_iff] at hb
      rw [← hlook, (h app name b).2 ⟨hb.2, hb.1⟩]

theorem ownIndex_of_phases {ord : RangeOrder} {loaded named registered : Snapshot}
    (hparents : s.parents = ∅) (happcode : s.appcode = ∅) (havpcode : s.avpcode = ∅)
    (hload : s.indexFiles = .ok loaded) (hname : loaded.indexNames ord = .ok named)
    (hreg : named.indexRegistrations = .ok registered) :
    OwnIndex registered ∧ registered.files = s.files ∧ registered.regs = s.regs ∧
      registered.parents = loaded.parents ∧ registered.appcode = loaded.appcode := by
  have hloaded := foldlM_addApp_eq hload
  have hcodes : loaded.avpcode =
      (loadedDefs s.apps).foldl (fun m r => m.insert r.idx r.avp) ∅ := by
    rw [hloaded, havpcode]
  have hkeyed : Keyed loaded.avpcode := by
    rw [hcodes]
    refine foldl_insert_keyed _ fun idx a ha => ?_
    rw [GoMap.lookup_empty_eq] at ha
    cases ha
  obtain ⟨hnamed, hn⟩ := indexNames_eq hname hkeyed
  obtain ⟨hregistered, hn'⟩ := foldlM_addRegistration_eq hreg hn
  have hfiles : registered.files = s.files := by rw [hregistered, hnamed, hloaded]
  have hregs : registered.regs = s.regs := by rw [hregistered, hnamed, hloaded]
  have happs : registered.apps = s.apps := by unfold apps; rw [hfiles]
  have hp : registered.parents = loaded.parents := by rw [hregistered, hnamed]
  have ha : registered.appcode = loaded.appcode := by rw [hregistered, hnamed]
  have hlook : ∀ app code vendorID,
      registered.avpcode.lookup ⟨app, code, vendorID⟩ = registered.ownAVP app code vendorID := by
    intro app code vendorID
    have hregs' : named.regs = registered.regs := by rw [hregistered]
    have hcodes' : named.avpcode = loaded.avpcode := by rw [hnamed]
    rw [congrArg Snapshot.avpcode hregistered, hregs', hcodes', hcodes,
      GoMap.lookup_foldl_insert, GoMap.lookup_foldl_insert, GoMap.lookup_empty_eq,
      Option.or_none]
    have happs' : registered.sources.apps = s.apps := happs
    unfold ownAVP Sources.ownAVP Sources.registeredAVP Sources.loadedAVP lastDef
    rw [happs']
    rfl
  have hbyName : ∀ app name a, registered.avpname.lookup ⟨app, name⟩ = some a ↔
      registered.ownAVP app a.code a.vendorID = some a ∧ a.name = name := by
    intro app name a
    rw [hn' app name a, hlook]
  have hnames := ownAVPByName_of_named registered.avpname hbyName
  refine ⟨⟨hlook, hnames, fun app name a => ?_, fun r hr => ?_, fun app => ?_, fun app => ?_⟩,
    hfiles, hregs, hp, ha⟩
  · rw [← hnames, hbyName]
  · rw [hregistered] at hr
    obtain ⟨a, hra, hsame⟩ := lookup_registered hreg hr
    exact ⟨a, by rw [← hlook]; exact hra, hsame⟩
  · have happs' : registered.sources.apps = s.apps := happs
    unfold declaredParents Sources.declaredParents
    rw [happs', hp, congrArg Snapshot.parents hloaded, at_foldl_inherits, hparents]
    rfl
  · rw [ha, hloaded, happs, happcode]
    simp only
    rw [lookup_foldl_appcode, GoMap.lookup_empty_eq, Option.or_none]
    simp

end Snapshot
end Diameter.Dict
