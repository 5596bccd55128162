import Diameter.Dict.Lookup

/-!
# Dict.Closure

Every grammar a published dictionary hands out can be used where it was asked for: its members
resolve by name in that same application, whether the application is declared, has registrations
only or is unknown, and no member is required to carry a flag its grammar prohibits.

A definition's own flag rules are another matter. `RegisterAVP` refuses a definition that both
requires and prohibits a flag; loading only checks that each rule parses, so that such a definition
can be published from a file.
-/

namespace Diameter.Dict

open Lib

variable {a : AVP} {app : UInt32}
variable {b c flags w w' : Flags} {rule : Rule} {rules : List Rule} {cmd : Command}

/-! ## Flag sets -/

namespace Flags

theorem none_inter (a : Flags) : Flags.none.inter a = .none := by
  simp [inter, Flags.none]

theorem union_inter_eq_none {a : Flags} :
    (a.union b).inter c = .none ↔ a.inter c = .none ∧ b.inter c = .none := by
  cases a; cases b; cases c
  simp only [union, inter, Flags.none, Flags.mk.injEq]
  grind

/-- Everything in `a` is in `b`. -/
def Subset (a b : Flags) : Prop := a.union b = b

theorem Subset.refl (a : Flags) : Subset a a := by
  cases a
  simp [Subset, union]

theorem Subset.trans {a : Flags} (h1 : Subset a b) (h2 : Subset b c) : Subset a c := by
  unfold Subset at h1 h2 ⊢
  rw [← h2, ← h1]
  cases a; cases b; cases c
  simp only [union, Flags.mk.injEq]
  grind

theorem Subset.inter_eq_none {a : Flags} (h : Subset a b) (hbc : b.inter c = .none) :
    a.inter c = .none := by
  unfold Subset at h
  rw [← h] at hbc
  exact (union_inter_eq_none.1 hbc).1

theorem subset_union_left (a b : Flags) : Subset a (a.union b) := by
  cases a; cases b
  simp [Subset, union]

theorem subset_union_right (a b : Flags) : Subset b (a.union b) := by
  cases a; cases b
  simp only [Subset, union, Flags.mk.injEq]
  grind

end Flags

/-! ## Rules that resolve -/

/-- The prohibition `p` applies to the member `rule`: it is its own or the wildcard's. -/
def Rule.governs (p rule : Rule) : Prop := p = rule ∨ p.avp = "AVP"

namespace Snapshot

/-- The rules can be used in the scope of an application. -/
def RulesUsable (s : Snapshot) (app : UInt32) (rules : List Rule) : Prop :=
  ∀ rule ∈ rules, rule.avp ≠ "AVP" → ∃ member, s.findAVPByName app rule.avp = .ok member ∧
    ∀ p ∈ rules, p.governs rule → ∀ forbidden required, parseFlags p.mustNot = .ok forbidden →
      parseFlags member.must = .ok required → forbidden.inter required = .none

theorem parseMemberProhibitions_ok {rule : String}
    (h : parseMemberProhibitions rule = .ok flags) : parseFlags rule = .ok flags := by
  unfold parseMemberProhibitions at h
  split at h
  · cases h
  rename_i f hf
  split at h
  · cases h
  · cases h
    exact hf

theorem parseFlags_empty : parseFlags "" = .ok .none := by decide

theorem addProhibitions_subset (h : addProhibitions w rule = .ok w') :
    w.Subset w' := by
  unfold addProhibitions at h
  split at h
  · cases h
    exact Flags.Subset.refl w
  split at h
  · cases h
  cases h
  split
  · exact Flags.subset_union_left w _
  · exact Flags.Subset.refl w

/-- What the first pass over the rules knows about one of them: its prohibitions are read the way
the second pass reads them, and those of a wildcard are collected. -/
def Collected (rule : Rule) (flags w : Flags) : Prop :=
  flags = .none ∨ parseMemberProhibitions rule.mustNot = .ok flags ∧
    (rule.avp = "AVP" → flags.Subset w)

theorem addProhibitions_collects
    (h : addProhibitions w rule = .ok w') (hflags : parseFlags rule.mustNot = .ok flags) :
    Collected rule flags w' := by
  unfold addProhibitions at h
  split at h
  next hempty =>
    rw [hempty, parseFlags_empty] at hflags
    cases hflags
    exact .inl rfl
  · split at h
    · cases h
    next flags' hp =>
      rw [parseMemberProhibitions_ok hp] at hflags
      cases hflags
      refine .inr ⟨hp, fun havp => ?_⟩
      rw [if_pos havp] at h
      cases h
      exact Flags.subset_union_right w _

theorem foldlM_addProhibitions
    (h : rules.foldlM addProhibitions w = .ok w') (hrule : rule ∈ rules)
    (hflags : parseFlags rule.mustNot = .ok flags) : Collected rule flags w' :=
  foldlM_establishes hrule (fun _ _ hstep => addProhibitions_collects hstep hflags)
    (fun _ _ _ _ hcol hstep => hcol.imp_right fun ⟨hp, hsub⟩ =>
      ⟨hp, fun havp => (hsub havp).trans (addProhibitions_subset hstep)⟩) h

theorem resolveRules_usable {s : Snapshot}
    (h : s.resolveRules app rules = .ok ()) : s.RulesUsable app rules := by
  obtain ⟨w, hw, hall⟩ := bind_eq_ok.1 h
  intro rule hrule havp
  have hresolve := forM_eq_ok.1 hall rule hrule
  unfold resolveRule at hresolve
  rw [if_neg havp] at hresolve
  split at hresolve
  · cases hresolve
  rename_i member hmember
  refine ⟨member, hmember, fun p hp hgoverns forbidden required hforbidden hrequired => ?_⟩
  have hreq : (parseFlags member.must).toOption.getD .none = required := by
    rw [hrequired]
    rfl
  dsimp only at hresolve
  rw [hreq] at hresolve
  rcases foldlM_addProhibitions hw hp hforbidden with rfl | ⟨hparse, hsub⟩
  · exact Flags.none_inter required
  split at hresolve
  next hfree =>
    rcases hgoverns with rfl | hwild
    · rw [hfree.2, parseFlags_empty] at hforbidden
      cases hforbidden
      exact Flags.none_inter required
    · exact (hsub hwild).inter_eq_none (by rw [hfree.1]; exact Flags.none_inter required)
  · split at hresolve
    · cases hresolve
    next hdisjoint =>
      obtain ⟨hw', hown⟩ := Flags.union_inter_eq_none.1 (not_ne_iff.1 hdisjoint)
      rcases hgoverns with rfl | hwild
      · rw [hparse] at hown
        exact hown
      · exact (hsub hwild).inter_eq_none hw'

/-! ## Closure -/

/-- Every grammar the dictionary hands out for an application can be used there. -/
def Closed (s : Snapshot) : Prop :=
  ∀ app,
    (∀ code cmd, s.findCommand app code = .ok cmd →
      s.RulesUsable app cmd.request.rule ∧ s.RulesUsable app cmd.answer.rule) ∧
    (∀ code vendorID a, s.findAVP app code vendorID = .ok a → s.RulesUsable app a.data.rule)

/-- No definition the dictionary hands out requires and prohibits the same flag. -/
def FlagsConsistent (s : Snapshot) : Prop :=
  ∀ app code vendorID a, s.findAVP app code vendorID = .ok a → ∀ must mustNot,
    parseFlags a.must = .ok must → parseFlags a.mustNot = .ok mustNot → must.inter mustNot = .none

theorem findAVP_ok {s : Snapshot} {app code vendorID : UInt32} :
    s.findAVP app code vendorID = .ok a ↔ s.avp app code vendorID = some a := by
  rw [← toOption_eq_some, findAVP_toOption]

section Indexed

variable {s : Snapshot} (h : Indexed s)

include h

theorem Indexed.findAVPByName_no_index (happ : ¬ s.HasIndex app) {name : String}
    (ha : s.findAVPByName 0 name = .ok a) : s.findAVPByName app name = .ok a := by
  by_cases h0 : app = 0
  · rw [h0, ha]
  obtain ⟨hanc, hown⟩ := h.walk_of_no_index happ h0
  rw [← toOption_eq_some, h.findAVPByName_eq, nearestByName_zero h.toMerged] at ha
  rw [← toOption_eq_some, h.findAVPByName_eq]
  have hcode := ((h.byName _ _ _).1 ha).1
  have hnone : s.ownAVPByName app name = none := by
    refine Option.eq_none_iff_forall_not_mem.2 fun b hb => ?_
    have := ((h.byName _ _ _).1 hb).1
    rw [hown] at this
    cases this
  have hvisible : s.visibleIn app a = true := by
    unfold visibleIn
    rw [nearestAVP_eq, hown, hanc, Option.none_or, List.findSome?_cons, hcode]
    simp
  unfold nearestByName
  rw [hanc, List.findSome?_cons, hnone, List.findSome?_cons, ha]
  simp only [Option.filter_none, Option.filter_some, hvisible, if_true]

theorem Indexed.usable_no_index (happ : ¬ s.HasIndex app)
    (hrules : s.RulesUsable 0 rules) : s.RulesUsable app rules := by
  intro rule hrule havp
  obtain ⟨member, hmember, hflags⟩ := hrules rule hrule havp
  exact ⟨member, h.findAVPByName_no_index happ hmember, hflags⟩

theorem Indexed.group_usable {idx : CodeIdx} (ha : s.avpcode.lookup idx = some a) :
    s.RulesUsable idx.appID a.data.rule := by
  obtain ⟨ord, hrules⟩ := h.rules
  have hgroup := GoMap.forM_range (andThen_eq_ok.1 hrules).1 ha
  exact resolveRules_usable (mapError_eq_ok.1 hgroup)

omit h in
theorem resolveCommandRules_usable (hcmd : s.resolveCommandRules app cmd = .ok ()) :
    s.RulesUsable app cmd.request.rule ∧ s.RulesUsable app cmd.answer.rule := by
  obtain ⟨hrequest, hanswer⟩ := andThen_eq_ok.1 hcmd
  exact ⟨resolveRules_usable (mapError_eq_ok.1 hrequest),
    resolveRules_usable (mapError_eq_ok.1 hanswer)⟩

theorem Indexed.command_usable {idx : CommandIdx}
    (hcmd : s.command.lookup idx = some cmd) :
    s.RulesUsable idx.appID cmd.request.rule ∧ s.RulesUsable idx.appID cmd.answer.rule := by
  obtain ⟨ord, hrules⟩ := h.rules
  have hentry := GoMap.forM_range (andThen_eq_ok.1 hrules).2 hcmd
  exact resolveCommandRules_usable (andThen_eq_ok.1 hentry).1

theorem Indexed.mem_scopes {ord : RangeOrder} (happ : s.HasIndex app) : app ∈ s.scopes ord := by
  unfold scopes
  rw [mem_fresh, List.mem_append, ord.mem_order, GoMap.mem_keys, List.mem_map]
  refine ⟨happ.imp_right fun ⟨code, vendorID, hown⟩ => ?_, List.not_mem_nil⟩
  refine ⟨⟨app, code, vendorID⟩, ?_, rfl⟩
  obtain ⟨a, ha⟩ := Option.isSome_iff_exists.1 hown
  rw [ord.mem_order, GoMap.mem_keys, h.code app happ, nearestAVP_eq, ha]
  rfl

theorem Indexed.fallback_usable {app code : UInt32} (happ : s.HasIndex app)
    (happ0 : app ≠ 0) (hcmd : s.command.lookup ⟨0, code⟩ = some cmd)
    (hown : s.command.lookup ⟨app, code⟩ = none) :
    s.RulesUsable app cmd.request.rule ∧ s.RulesUsable app cmd.answer.rule := by
  obtain ⟨ord, hrules⟩ := h.rules
  have hentry := GoMap.forM_range (andThen_eq_ok.1 hrules).2 hcmd
  have hscopes := (andThen_eq_ok.1 hentry).2
  rw [if_neg (not_not.2 rfl)] at hscopes
  have hresolve := ord.forM_order.1 hscopes app (h.mem_scopes happ)
  unfold resolveFallback at hresolve
  rw [if_neg (by simp [happ0, hown])] at hresolve
  exact resolveCommandRules_usable hresolve

theorem Indexed.closed : s.Closed := by
  intro app
  refine ⟨fun code cmd hfind => ?_, fun code vendorID a hfind => ?_⟩
  · unfold findCommand at hfind
    cases hown : s.command.lookup ⟨app, code⟩ with
    | some own =>
      rw [hown] at hfind
      cases hfind
      exact h.command_usable hown
    | none =>
      rw [hown] at hfind
      cases hbase : s.command.lookup ⟨0, code⟩ with
      | none =>
        rw [hbase] at hfind
        cases hfind
      | some base =>
        rw [hbase] at hfind
        cases hfind
        by_cases happ : s.HasIndex app
        · refine h.fallback_usable happ (fun h0 => ?_) hbase hown
          rw [h0, hbase] at hown
          cases hown
        · obtain ⟨hrequest, hanswer⟩ := h.command_usable hbase
          exact ⟨h.usable_no_index happ hrequest, h.usable_no_index happ hanswer⟩
  · rw [findAVP_ok, Snapshot.avp_eq] at hfind
    cases hown : s.avpcode.lookup ⟨app, code, vendorID⟩ with
    | some own =>
      rw [hown, Option.some_or] at hfind
      cases hfind
      exact h.group_usable hown
    | none =>
      rw [hown, Option.none_or] at hfind
      by_cases happ : s.HasIndex app
      · rw [h.code app happ] at hown
        rw [h.code_zero, nearestAVP_eq_none hown] at hfind
        cases hfind
      · exact h.usable_no_index happ (h.group_usable hfind)

end Indexed

end Snapshot

/-! ## Flag rules of definitions -/

/-- The definition requires no flag it prohibits. -/
def AVP.Consistent (a : AVP) : Prop :=
  ∀ must mustNot, parseFlags a.must = .ok must → parseFlags a.mustNot = .ok mustNot →
    must.inter mustNot = .none

/-- The definitions a file brings in. -/
def File.avps (f : File) : List AVP := f.app.flatMap App.avp

/-- What the files of a call must satisfy; registering checks it itself. -/
def Op.Consistent : Op → Prop
  | .load files => ∀ f ∈ files, ∀ a ∈ f.avps, a.Consistent
  | _ => True

theorem checkFlagRule_eq_ok {avp name value : String} (h : checkFlagRule avp name value = .ok ()) :
    ∃ flags, parseFlags value = .ok flags := by
  unfold checkFlagRule at h
  split at h
  · cases h
  · exact ⟨_, ‹_›⟩

theorem parseAVP_flags {a b : AVP} (h : parseAVP a = .ok b) :
    b.must = a.must ∧ b.mustNot = a.mustNot ∧
      ∀ list ∈ [b.must, b.may, b.mustNot], ∃ flags, parseFlags list = .ok flags := by
  obtain ⟨hmust, h⟩ := andThen_eq_ok.1 h
  obtain ⟨hmay, h⟩ := andThen_eq_ok.1 h
  obtain ⟨hmustNot, h⟩ := andThen_eq_ok.1 h
  unfold updateType at h
  split at h
  · cases h
  · cases h
    refine ⟨rfl, rfl, ?_⟩
    simp [checkFlagRule_eq_ok hmust, checkFlagRule_eq_ok hmay, checkFlagRule_eq_ok hmustNot]

theorem parseFile_avps {f f' : File} (h : parseFile f = .ok f') {b : AVP} (hb : b ∈ f'.avps) :
    ∃ a ∈ f.avps, parseAVP a = .ok b := by
  obtain ⟨apps, happs, h⟩ := bind_eq_ok.1 h
  cases h
  obtain ⟨app', happ', hb⟩ := List.mem_flatMap.1 hb
  obtain ⟨app, happ, hparse⟩ := exists_of_mem_mapM happs happ'
  obtain ⟨avps, havps, hparse⟩ := bind_eq_ok.1 hparse
  cases hparse
  obtain ⟨a, ha, hab⟩ := exists_of_mem_mapM havps hb
  exact ⟨a, List.mem_flatMap.2 ⟨app, happ, ha⟩, hab⟩

theorem newRegisteredAVP_flags {d : Option Definition} (h : newRegisteredAVP app d = .ok a) :
    ∃ must may mustNot, parseFlags a.must = .ok must ∧ parseFlags a.may = .ok may ∧
      parseFlags a.mustNot = .ok mustNot ∧ must.inter mustNot = .none := by
  cases d with
  | none => cases h
  | some d =>
    obtain ⟨_, h⟩ := andThen_eq_ok.1 h
    obtain ⟨typ, _, h⟩ := bind_eq_ok.1 h
    obtain ⟨hflags, h⟩ := andThen_eq_ok.1 h
    obtain ⟨enum, _, h⟩ := bind_eq_ok.1 h
    obtain ⟨rule, _, h⟩ := bind_eq_ok.1 h
    cases h
    obtain ⟨must, hmust, hflags⟩ := bind_eq_ok.1 hflags
    obtain ⟨may, hmay, hflags⟩ := bind_eq_ok.1 hflags
    obtain ⟨mustNot, hmustNot, hflags⟩ := bind_eq_ok.1 hflags
    refine ⟨must, may, mustNot, mapError_eq_ok.1 hmust, mapError_eq_ok.1 hmay,
      mapError_eq_ok.1 hmustNot, ?_⟩
    unfold Definition.checkVendorFlag at hflags
    split at hflags
    · cases hflags
    next hdisjoint => exact not_ne_iff.1 hdisjoint

theorem consistent_of_flags {must mustNot : Flags} (hmust : parseFlags a.must = .ok must)
    (hmustNot : parseFlags a.mustNot = .ok mustNot) (h : must.inter mustNot = .none) :
    a.Consistent := by
  intro m n hm hn
  rw [hmust] at hm
  rw [hmustNot] at hn
  cases hm
  cases hn
  exact h

/-! ### The definitions of a history -/

/-- All definitions of the sources satisfy `P`. -/
def Sources.Each (P : AVP → Prop) (d : Sources) : Prop :=
  ∀ r ∈ loadedDefs d.apps ++ d.regs, P r.avp

/-- All definitions of the sources are consistent. -/
def Sources.Consistent (d : Sources) : Prop :=
  ∀ r ∈ loadedDefs d.apps ++ d.regs, r.avp.Consistent

theorem Sources.mem_addDefinition {d : Sources} {defs : List AVP} {regs : List Registration}
    {r : Registration} (h : r ∈ defs.foldl (d.addDefinition app) regs) :
    r ∈ regs ∨ r.avp ∈ defs := by
  induction defs generalizing regs with
  | nil => exact .inl h
  | cons a defs ih =>
    rcases ih h with h | h
    · unfold Sources.addDefinition at h
      split at h
      · exact .inl h
      rcases List.mem_append.1 h with h | h
      · exact .inl h
      · rw [List.mem_singleton.1 h]
        exact .inr List.mem_cons_self
    · exact .inr (List.mem_cons_of_mem _ h)

theorem loadedDefs_files (d : Sources) (r : Registration) :
    r ∈ loadedDefs d.apps ↔ ∃ f ∈ d.files, ∃ app ∈ f.app, r.app = app.id ∧ r.avp ∈ app.avp := by
  unfold loadedDefs Sources.apps
  simp only [List.mem_flatMap, List.mem_map]
  constructor
  · rintro ⟨app, ⟨f, hf, happ⟩, a, ha, rfl⟩
    exact ⟨f, hf, app, happ, rfl, ha⟩
  · rintro ⟨f, hf, app, happ, hid, ha⟩
    exact ⟨app, ⟨f, hf, happ⟩, r.avp, ha, by rw [← hid]⟩

/-- What the call brings in satisfies `P` when it loads definitions. -/
def Op.Loads (P : AVP → Prop) : Op → Prop
  | .load files => ∀ f ∈ files, ∀ a ∈ f.avps, ∀ b, parseAVP a = .ok b → P b
  | _ => True

section Each

variable {P : AVP → Prop} (hreg : ∀ {app d a}, newRegisteredAVP app d = .ok a → P a)

include hreg

theorem Sources.Each.step {d : Sources} (hd : d.Each P) {op : Op} (hop : op.Loads P) :
    (d.step op).Each P := by
  cases op with
  | load files =>
    intro r hr
    rcases List.mem_append.1 hr with hr | hr
    · obtain ⟨f, hf, app, happ, hid, ha⟩ := (loadedDefs_files _ r).1 hr
      rcases List.mem_append.1 hf with hf | hf
      · exact hd r (List.mem_append_left _ ((loadedDefs_files _ r).2 ⟨f, hf, app, happ, hid, ha⟩))
      cases hparse : files.mapM parseFile with
      | error e =>
        rw [hparse] at hf
        cases hf
      | ok parsed =>
        rw [hparse] at hf
        obtain ⟨f0, hf0, hff⟩ := exists_of_mem_mapM hparse hf
        obtain ⟨a, ha, hab⟩ := parseFile_avps hff (List.mem_flatMap.2 ⟨app, happ, ha⟩)
        exact hop f0 hf0 a ha _ hab
    · exact hd r (List.mem_append_right _ hr)
  | registerAVP app avps =>
    intro r hr
    rcases List.mem_append.1 hr with hr | hr
    · exact hd r (List.mem_append_left _ hr)
    rcases List.mem_append.1 hr with hr | hr
    · exact hd r (List.mem_append_right _ hr)
    cases hdefs : avps.mapM (newRegisteredAVP app) with
    | error e =>
      rw [hdefs] at hr
      cases hr
    | ok defs =>
      rw [hdefs] at hr
      rcases Sources.mem_addDefinition hr with hr | hr
      · cases hr
      · obtain ⟨d', _, hd'⟩ := exists_of_mem_mapM hdefs hr
        exact hreg hd'
  | setStrict strict => exact hd
  | setMaxGroupedDepth depth => exact hd

theorem Sources.each_history {calls : List (RangeOrder × Op)}
    (h : ∀ call ∈ calls, call.2.Loads P) : (Sources.history calls).Each P := by
  unfold Sources.history
  generalize hd0 : ({} : Sources) = d0
  have hd : d0.Each P := by
    subst hd0
    intro r hr
    cases hr
  clear hd0
  induction calls generalizing d0 with
  | nil => exact hd
  | cons call calls ih =>
    refine ih (fun c hc => h c (List.mem_cons_of_mem _ hc)) _ ?_
    exact hd.step hreg (h call List.mem_cons_self)

end Each

theorem Sources.Consistent.history {calls : List (RangeOrder × Op)}
    (h : ∀ call ∈ calls, call.2.Consistent) : (Sources.history calls).Consistent := by
  refine Sources.each_history (P := AVP.Consistent) (fun ha => ?_) fun call hcall => ?_
  · obtain ⟨must, may, mustNot, hmust, -, hmustNot, hdisjoint⟩ := newRegisteredAVP_flags ha
    exact consistent_of_flags hmust hmustNot hdisjoint
  · obtain ⟨ord, op⟩ := call
    cases op with
    | load files =>
      intro f hf a ha b hab must mustNot hm hn
      obtain ⟨hmust, hmustNot, -⟩ := parseAVP_flags hab
      exact h _ hcall f hf a ha must mustNot (hmust ▸ hm) (hmustNot ▸ hn)
    | _ => trivial

open Snapshot in
/-- In every state reached all grammars handed out can be used; and when the files of all calls
name no flag as both required and prohibited, no definition handed out contradicts itself. -/
theorem run_closed {calls : List (RangeOrder × Op)} {s : Snapshot}
    (h : run calls emptySnapshot = .ok s) :
    s.Closed ∧ ((∀ call ∈ calls, call.2.Consistent) → s.FlagsConsistent) := by
  have hs : Indexed s := run_indexed emptySnapshot_indexed h
  refine ⟨hs.closed, fun hcalls app code vendorID a hfind => ?_⟩
  rw [findAVP_ok, hs.avp_eq] at hfind
  obtain ⟨d, _, hown⟩ := List.exists_of_findSome?_eq_some hfind
  obtain ⟨r, hr, rfl⟩ := List.mem_map.1 (Sources.ownAVP_key hown).1
  have hsources : s.sources = Sources.history calls := emptySnapshot_indexed.run_sources h
  rw [hsources] at hr
  exact Sources.Consistent.history hcalls r hr

/-! A group of base, in the scope of an application that inherits it and of one that is known for
its registrations only. -/

def partAVP : AVP where
  name := "Part"
  code := 7
  must := "M"
  mustNot := "V"
  data := { type := .unknown, typeName := "Unsigned32" }

def wholeAVP : AVP where
  name := "Whole"
  code := 8
  data := { type := .unknown, typeName := "Grouped",
            rule := [{ avp := "Part", mustNot := "P" }, { avp := "AVP" }] }

def groupFile : File :=
  { app := [{ id := 0, avp := [partAVP, wholeAVP] }, { id := 1, inherits := [0] }] }

def groupCalls : List (RangeOrder × Op) :=
  [(.insertionOrder, .load [groupFile]),
    (.insertionOrder, .registerAVP 5 [some { name := "Extra", code := 9, typeName := "Time" }])]

theorem run_closed_groups : ∃ s, run groupCalls emptySnapshot = .ok s ∧ s.Closed ∧
    s.FlagsConsistent := by
  have hok : (run groupCalls emptySnapshot).toOption.isSome = true := by decide +kernel
  obtain ⟨s, hs⟩ := Option.isSome_iff_exists.1 hok
  rw [toOption_eq_some] at hs
  have hfile : ∀ a ∈ groupFile.avps, a.Consistent := by
    have havps : groupFile.avps = [partAVP, wholeAVP] := rfl
    have hmust : parseFlags partAVP.must = .ok { m := true } := by decide
    have hmustNot : parseFlags partAVP.mustNot = .ok { v := true } := by decide
    rw [havps, List.forall_mem_cons, List.forall_mem_singleton]
    exact ⟨consistent_of_flags hmust hmustNot rfl,
      consistent_of_flags Snapshot.parseFlags_empty Snapshot.parseFlags_empty rfl⟩
  have hcalls : ∀ call ∈ groupCalls, call.2.Consistent := by
    refine List.forall_mem_cons.2 ⟨fun f hf => ?_, List.forall_mem_singleton.2 trivial⟩
    rw [List.mem_singleton.1 hf]
    exact hfile
  exact ⟨s, hs, (run_closed hs).1, (run_closed hs).2 hcalls⟩

/-! A definition that requires and prohibits the same flag, in a file and for registering. -/

def tornAVP : AVP where
  name := "Torn"
  code := 7
  must := "M"
  mustNot := "M"
  data := { type := .unknown, typeName := "Unsigned32" }

def tornDefinition : Definition :=
  { name := "Torn", code := 7, must := "M", mustNot := "M", typeName := "Unsigned32" }

def tornFile : File := { app := [{ id := 1, avp := [tornAVP] }] }

/-- The file is loaded, although the same definition is refused when it is registered. -/
theorem not_run_closed :
    (∃ s, run [(.insertionOrder, .load [tornFile])] emptySnapshot = .ok s ∧
      ¬ s.FlagsConsistent) ∧
    run [(.insertionOrder, .registerAVP 1 [some tornDefinition])] emptySnapshot =
      .error (tornDefinition.fail 1 "a flag is both required and forbidden") := by
  refine ⟨?_, rfl⟩
  have hfound : (run [(.insertionOrder, .load [tornFile])] emptySnapshot).toOption.bind
      (fun s => (s.findAVP 1 7 0).toOption.map fun a => (a.must, a.mustNot)) =
        some ("M", "M") := by decide +kernel
  obtain ⟨s, hs, hfound⟩ := Option.bind_eq_some_iff.1 hfound
  obtain ⟨a, ha, hflags⟩ := Option.map_eq_some_iff.1 hfound
  obtain ⟨hmust, hmustNot⟩ := Prod.mk.inj hflags
  rw [toOption_eq_some] at hs ha
  refine ⟨s, hs, fun hconsistent => ?_⟩
  have hm : parseFlags "M" = .ok { m := true } := by decide
  have := hconsistent 1 7 0 a ha _ _ (by rw [hmust, hm]) (by rw [hmustNot, hm])
  cases this

end Diameter.Dict
