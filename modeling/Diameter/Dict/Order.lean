import Diameter.Dict.Lookup
import Diameter.Dict.Parents

/-!
# Dict.Order

The orders in which a build goes through its maps have no part in what it does. Each loop over a
map stops at the first entry it refuses, and which one that is depends on the order; whether there
is one does not. What the loops leave differs in the order of its entries at most (`Alike`), which
no later phase and no lookup shows.

* `build_alike`: two builds from the same sources.
* `calls_order_independent`: two parsers that get the same calls.
-/

namespace Diameter.Dict

open Lib

variable {ord ord' : RangeOrder} {s s' t : Snapshot}

namespace Snapshot

/-- The snapshots have the same entries, those of the AVP indexes in whatever order. -/
structure Alike (s t : Snapshot) : Prop where
  rest : t = { s with avpcode := t.avpcode, avpname := t.avpname }
  code : ∀ idx, t.avpcode.lookup idx = s.avpcode.lookup idx
  name : ∀ idx, t.avpname.lookup idx = s.avpname.lookup idx

theorem Alike.refl (s : Snapshot) : Alike s s := ⟨rfl, fun _ => rfl, fun _ => rfl⟩

theorem Alike.symm (h : Alike s t) : Alike t s where
  rest := by rw [h.rest]
  code := fun idx => (h.code idx).symm
  name := fun idx => (h.name idx).symm

/-! ## Lookups -/

section Lookups

variable (h : Alike s t)
include h

theorem Alike.lookupAVP (app code vendorID : UInt32) :
    t.lookupAVP app code vendorID = s.lookupAVP app code vendorID := by
  unfold Snapshot.lookupAVP
  rw [h.code, h.code]

theorem Alike.avp (app code vendorID : UInt32) :
    t.avp app code vendorID = s.avp app code vendorID := by
  unfold Snapshot.avp
  rw [h.lookupAVP]

theorem Alike.findAVP (app code vendorID : UInt32) :
    t.findAVP app code vendorID = s.findAVP app code vendorID := by
  unfold Snapshot.findAVP
  rw [h.lookupAVP]

theorem Alike.nameIn (app : UInt32) (name : String) (scope : UInt32) :
    t.nameIn app name scope = s.nameIn app name scope := by
  unfold Snapshot.nameIn
  rw [h.name]
  split
  · rfl
  · rw [h.avp]

theorem Alike.findAVPByName (app : UInt32) (name : String) :
    t.findAVPByName app name = s.findAVPByName app name := by
  unfold Snapshot.findAVPByName
  rw [h.nameIn, h.nameIn]

theorem Alike.command : t.command = s.command := by rw [h.rest]

theorem Alike.findCommand (app code : UInt32) :
    t.findCommand app code = s.findCommand app code := by
  unfold Snapshot.findCommand
  rw [h.command]

theorem Alike.addDefinition (app : UInt32) : t.addDefinition app = s.addDefinition app := by
  funext regs d
  unfold Snapshot.addDefinition
  rw [h.findAVP, h.findAVPByName, h.avp]

end Lookups

/-! ## Names and registrations -/

/-- Where a definition is found by name. -/
def nameKey (e : Sigma fun _ : CodeIdx => AVP) : AppNameIdx := ⟨e.1.appID, e.2.name⟩

theorem addName_new (m : GoMap AppNameIdx AVP) (e : Sigma fun _ : CodeIdx => AVP)
    (h : m.lookup (nameKey e) = none) : addName m e = .ok (m.insert (nameKey e) e.2) := by
  unfold nameKey at h
  unfold addName
  rw [h]
  rfl

theorem indexNames_isOk :
    (∃ s', s.indexNames ord = .ok s') ↔ (s.avpcode.entries.map nameKey).Nodup := by
  have hsplit : (∃ s', s.indexNames ord = .ok s') ↔
      ∃ names, (ord.order 2 _ s.avpcode.entries).foldlM addName ∅ = .ok names := by
    unfold indexNames
    cases (ord.order 2 _ s.avpcode.entries).foldlM addName ∅ with
    | error e => exact ⟨fun ⟨_, h⟩ => (by cases h), fun ⟨_, h⟩ => (by cases h)⟩
    | ok names => exact ⟨fun _ => ⟨names, rfl⟩, fun _ => ⟨_, rfl⟩⟩
  have hnew := @GoMap.foldlM_new_isOk _ _ _ _ _ nameKey Sigma.snd addName addName_new
    (fun m e m' h => (addName_eq h).1) (ord.order 2 _ s.avpcode.entries) ∅
  rw [hsplit, hnew, and_iff_left fun e _ => GoMap.lookup_empty_eq _,
    ((ord.perm 2 _ s.avpcode.entries).map nameKey).nodup_iff]

theorem indexNames_alike (hkeyed : Keyed s.avpcode) (h : s.indexNames ord = .ok s') :
    ∃ t', s.indexNames ord' = .ok t' ∧ Alike s' t' := by
  obtain ⟨t', ht⟩ := (@indexNames_isOk ord' s).2 (indexNames_isOk.1 ⟨s', h⟩)
  obtain ⟨hs', hn⟩ := indexNames_eq h hkeyed
  obtain ⟨ht', hn'⟩ := indexNames_eq ht hkeyed
  have hcode : t'.avpcode = s'.avpcode := by rw [ht', hs']
  refine ⟨t', ht, by rw [ht', hs'], fun idx => by rw [hcode], fun ⟨app, name⟩ => ?_⟩
  exact Option.ext fun a => by rw [hn', hn, hcode]

theorem Alike.addRegistration (h : Alike s t) {r : Registration}
    (hr : s.addRegistration r = .ok s') : ∃ t', t.addRegistration r = .ok t' ∧ Alike s' t' := by
  unfold Snapshot.addRegistration at hr ⊢
  dsimp only at hr ⊢
  rw [h.code, h.name]
  split at hr
  · cases hr
  · cases hr
  cases hr
  refine ⟨_, rfl, by rw [h.rest], fun idx => ?_, fun idx => ?_⟩
  · rw [GoMap.lookup_insert_eq, GoMap.lookup_insert_eq, h.code]
  · rw [GoMap.lookup_insert_eq, GoMap.lookup_insert_eq, h.name]

theorem Alike.addRegistrations (h : Alike s t) {regs : List Registration}
    (hr : regs.foldlM Snapshot.addRegistration s = .ok s') :
    ∃ t', regs.foldlM Snapshot.addRegistration t = .ok t' ∧ Alike s' t' := by
  induction regs generalizing s t with
  | nil =>
    cases hr
    exact ⟨t, rfl, h⟩
  | cons r regs ih =>
    rw [List.foldlM_cons] at hr
    obtain ⟨s1, h1, hrest⟩ := bind_eq_ok.1 hr
    obtain ⟨t1, ht1, h⟩ := h.addRegistration h1
    obtain ⟨t', ht', h⟩ := ih h hrest
    exact ⟨t', by rw [List.foldlM_cons, ht1]; exact ht', h⟩

theorem Alike.indexRegistrations (h : Alike s t) (hr : s.indexRegistrations = .ok s') :
    ∃ t', t.indexRegistrations = .ok t' ∧ Alike s' t' := by
  have hregs : t.regs = s.regs := by rw [h.rest]
  unfold Snapshot.indexRegistrations
  rw [hregs]
  exact h.addRegistrations hr

/-! ## Inherited names -/

theorem mem_indexNames_iff {p : UInt32} {name : String} :
    name ∈ ((ord.order 7 _ s.avpname.keys).foldl
      (fun m idx => m.append idx.appID idx.name) (∅ : GoMap UInt32 (List String))).at p ↔
      (s.avpname.lookup ⟨p, name⟩).isSome = true := by
  refine ⟨fun h => ?_, mem_indexNames⟩
  rw [GoMap.at_foldl_append AppNameIdx.appID AppNameIdx.name, List.mem_append, List.mem_map] at h
  rcases h with h | ⟨⟨app, n⟩, hidx, rfl⟩
  · cases h
  obtain ⟨hkey, happ⟩ := List.mem_filter.1 hidx
  rw [← of_decide_eq_true happ]
  exact GoMap.mem_keys.1 (ord.mem_order.1 hkey)

/-- The parents of an application agree on the names it does not own. -/
def ParentsAgree (s : Snapshot) (ownNames : List AppNameIdx) : Prop :=
  ∀ app p q name a b, p ∈ s.parents.at app → q ∈ s.parents.at app → p ≠ 0 → q ≠ 0 →
    (s.avpname.lookup ⟨p, name⟩).isSome = true → (s.avpname.lookup ⟨q, name⟩).isSome = true →
    (⟨app, name⟩ : AppNameIdx) ∉ ownNames → s.findAVPByName p name = .ok a →
    s.findAVPByName q name = .ok b → a.code = b.code ∧ a.vendorID = b.vendorID

/-- What is recorded about the names of an application's parents. -/
def Recorded (s : Snapshot) (ownNames : List AppNameIdx) (app : UInt32)
    (seen : GoMap String Resolution) : Prop :=
  ∀ name r, seen.lookup name = some r → r.parent ∈ s.parents.at app ∧ r.parent ≠ 0 ∧
    (s.avpname.lookup ⟨r.parent, name⟩).isSome = true ∧
    (⟨app, name⟩ : AppNameIdx) ∉ ownNames ∧ s.findAVPByName r.parent name = .ok r.avp

theorem agreeOnName_total (h : s.ParentsAgree ownNames)
    {p : UInt32} (hp : p ∈ s.parents.at app) (hp0 : p ≠ 0) {name : String}
    (hname : (s.avpname.lookup ⟨p, name⟩).isSome = true) {seen : GoMap String Resolution}
    (hseen : s.Recorded ownNames app seen) :
    ∃ seen', s.agreeOnName ownNames app p seen name = .ok seen' ∧
      s.Recorded ownNames app seen' := by
  unfold agreeOnName
  split
  · exact ⟨seen, rfl, hseen⟩
  rename_i hown
  split
  · exact ⟨seen, rfl, hseen⟩
  rename_i a ha
  have hrecord : s.Recorded ownNames app (seen.insert name ⟨p, a⟩) := by
    intro name' r hr
    rw [GoMap.lookup_insert_eq] at hr
    split at hr
    next heq =>
      cases hr
      rw [heq]
      exact ⟨hp, hp0, hname, hown, ha⟩
    · exact hseen name' r hr
  split
  · exact ⟨_, rfl, hrecord⟩
  rename_i old hold
  obtain ⟨hpold, hold0, hnameold, -, haold⟩ := hseen name old hold
  obtain ⟨hcode, hvendor⟩ :=
    h app _ _ name _ _ hpold hp hold0 hp0 hnameold hname hown haold ha
  rw [if_neg (by rw [not_or, not_ne_iff, not_ne_iff]; exact ⟨hcode, hvendor⟩)]
  exact ⟨_, rfl, hrecord⟩

theorem validateInheritedNames_iff :
    s.validateInheritedNames ord ownNames = .ok () ↔ s.ParentsAgree ownNames := by
  constructor
  · intro h app p q name a b hp hq hp0 hq0 hpn hqn hown ha hb
    exact validateInheritedNames_agree h hp hq hp0 hq0 hpn hqn hown ha hb
  intro h
  refine ord.forM_order.2 ?_
  rintro ⟨app, ps⟩ hentry
  have hps : s.parents.at app = ps := by
    rw [GoMap.at, GoMap.lookup_of_mem hentry]
    rfl
  have hparent : ∀ p ∈ ps, ∀ seen, s.Recorded ownNames app seen →
      ∃ seen', s.agreeOnParent ownNames ((ord.order 7 _ s.avpname.keys).foldl
        (fun m idx => m.append idx.appID idx.name) ∅) app seen p = .ok seen' ∧
          s.Recorded ownNames app seen' := by
    intro p hp seen hseen
    unfold agreeOnParent
    split
    · exact ⟨seen, rfl, hseen⟩
    rename_i hp0
    exact foldlM_total (fun name hname seen hseen => agreeOnName_total h (hps ▸ hp) hp0
      (mem_indexNames_iff.1 hname) hseen) hseen
  obtain ⟨seen, hseen, -⟩ := foldlM_total hparent
    (fun name r hr => by rw [GoMap.lookup_empty_eq] at hr; cases hr)
  exact congrArg (Except.map fun _ => ()) hseen

theorem Alike.parentsAgree (h : Alike s t) {own own' : List AppNameIdx}
    (hown : ∀ idx, idx ∈ own ↔ idx ∈ own') (hs : s.ParentsAgree own) : t.ParentsAgree own' := by
  have hparents : t.parents = s.parents := by rw [h.rest]
  intro app p q name a b hp hq hp0 hq0 hpn hqn hnot ha hb
  rw [hparents] at hp hq
  rw [h.name] at hpn hqn
  rw [h.findAVPByName] at ha hb
  exact hs app p q name a b hp hq hp0 hq0 hpn hqn (mt (hown _).1 hnot) ha hb

/-! ## Inheritance and rules -/

theorem Merged.alike (h : Merged s) (h' : Merged t)
    (hrest : t = { s with avpcode := t.avpcode, avpname := t.avpname }) : Alike s t := by
  obtain ⟨codes, names, rfl⟩ : ∃ codes names,
      t = { s with avpcode := codes, avpname := names } := ⟨_, _, hrest⟩
  refine ⟨rfl, fun ⟨app, code, vendorID⟩ => ?_, fun ⟨app, name⟩ => ?_⟩
  · by_cases happ : s.HasIndex app
    · exact (h'.code app happ code vendorID).trans (h.code app happ code vendorID).symm
    · exact (h'.noCode app happ code vendorID).trans (h.noCode app happ code vendorID).symm
  · by_cases happ : s.HasIndex app
    · exact (h'.name app happ name).trans (h.name app happ name).symm
    · exact (h'.noName app happ name).trans (h.noName app happ name).symm

theorem Alike.resolveRules (h : Alike s t) : t.resolveRules = s.resolveRules := by
  funext app rules
  unfold Snapshot.resolveRules
  have hrule : t.resolveRule = s.resolveRule := by
    funext app wildcard rule
    unfold resolveRule
    rw [h.findAVPByName]
  rw [hrule]

theorem Alike.resolveCommandRules (h : Alike s t) :
    t.resolveCommandRules = s.resolveCommandRules := by
  funext app cmd
  unfold Snapshot.resolveCommandRules
  rw [h.resolveRules]

theorem Alike.mem_scopes (h : Alike s t) {app : UInt32} :
    app ∈ t.scopes ord' ↔ app ∈ s.scopes ord := by
  have happcode : t.appcode = s.appcode := by rw [h.rest]
  unfold scopes
  simp only [mem_fresh, List.mem_append, List.mem_map, ord.mem_order, ord'.mem_order,
    GoMap.mem_keys, happcode, h.code]

theorem Alike.validateRules (h : Alike s t) (hs : s.validateRules ord = .ok ()) :
    t.validateRules ord' = .ok () := by
  unfold Snapshot.validateRules at hs ⊢
  rw [andThen_eq_ok, ord.forM_order, ord.forM_order] at hs
  rw [andThen_eq_ok, ord'.forM_order, ord'.forM_order, h.command]
  refine ⟨fun ⟨idx, a⟩ ha => ?_, fun entry hentry => ?_⟩
  · have hlook := GoMap.lookup_of_mem ha
    rw [h.code] at hlook
    have hgroup := hs.1 ⟨idx, a⟩ (GoMap.mem_entries hlook)
    unfold resolveGroup at hgroup ⊢
    rw [h.resolveRules]
    exact hgroup
  have hcommand := hs.2 entry hentry
  unfold resolveCommand at hcommand ⊢
  rw [andThen_eq_ok] at hcommand ⊢
  rw [h.resolveCommandRules]
  refine ⟨hcommand.1, ?_⟩
  split
  · rfl
  rename_i hzero
  have hfallback := hcommand.2
  rw [if_neg hzero, ord.forM_order] at hfallback
  refine ord'.forM_order.2 fun app happ => ?_
  have hresolve := hfallback app (h.mem_scopes.1 happ)
  unfold resolveFallback at hresolve ⊢
  rw [h.command, h.resolveCommandRules]
  exact hresolve

/-! ## The calls of a parser -/

theorem build_alike (hparents : s.parents = ∅) (happcode : s.appcode = ∅)
    (havpcode : s.avpcode = ∅) (h : s.build ord = .ok s') :
    ∃ t', s.build ord' = .ok t' ∧ Alike s' t' := by
  obtain ⟨loaded, named, registered, hload, hvalid, hname, hreg, hnames, hrules, rfl⟩ :=
    build_eq_ok.1 h
  have hkeyed : Keyed loaded.avpcode := by
    rw [foldlM_addApp_eq hload, havpcode]
    refine foldl_insert_keyed _ fun idx a ha => ?_
    rw [GoMap.lookup_empty_eq] at ha
    cases ha
  obtain ⟨named', hname', hnamed⟩ := @indexNames_alike ord ord' _ _ hkeyed hname
  obtain ⟨registered', hreg', hregistered⟩ := hnamed.indexRegistrations hreg
  obtain ⟨hown, -, -, hp, -⟩ := ownIndex_of_phases hparents happcode havpcode hload hname hreg
  obtain ⟨hown', -, -, hp', -⟩ := ownIndex_of_phases hparents happcode havpcode hload hname' hreg'
  have hbase := (validateParents_ok hvalid).1
  have halike : Alike (registered.inheritAll ord) (registered'.inheritAll ord') := by
    refine (hown.merged (hp ▸ hbase)).alike (hown'.merged (hp' ▸ hbase)) ?_
    rw [phases_frame hname' hreg', phases_frame hname hreg]
  refine ⟨_, build_eq_ok.2 ⟨loaded, named', registered', hload,
    validateParents_iff.2 (validateParents_iff.1 hvalid), hname', hreg',
    validateInheritedNames_iff.2 (halike.parentsAgree (fun idx => ?_)
      (validateInheritedNames_iff.1 hnames)), halike.validateRules hrules, rfl⟩, halike⟩
  rw [GoMap.mem_keys, GoMap.mem_keys, hregistered.name]

theorem Alike.with (h : Alike s t) {files : List File} {regs : List Registration}
    (hs : s.with ord files regs = .ok s') :
    ∃ t', t.with ord' files regs = .ok t' ∧ Alike s' t' := by
  rw [h.rest]
  exact build_alike rfl rfl rfl hs

theorem Alike.apply (h : Alike s t) {op : Op} (hs : op.apply ord s = .ok s') :
    ∃ t', op.apply ord' t = .ok t' ∧ Alike s' t' := by
  cases op with
  | load files =>
    obtain ⟨parsed, hparsed, hadd⟩ := bind_eq_ok.1 hs
    have hload : ∃ t', t.add ord' parsed = .ok t' ∧ Alike s' t' := by
      unfold add at hadd ⊢
      split at hadd
      next hnil =>
        cases hadd
        exact ⟨t, if_pos hnil, h⟩
      next hnil =>
        rw [if_neg hnil]
        exact h.with hadd
    obtain ⟨t', ht, h⟩ := hload
    exact ⟨t', bind_eq_ok.2 ⟨parsed, hparsed, ht⟩, h⟩
  | registerAVP app avps =>
    obtain ⟨defs, hdefs, hs⟩ := bind_eq_ok.1 hs
    obtain ⟨regs, hregs, hs⟩ := bind_eq_ok.1 hs
    have hregister : ∃ t', (if regs = [] then return t else t.with ord' [] regs) = .ok t' ∧
        Alike s' t' := by
      split at hs
      next hnil =>
        cases hs
        exact ⟨t, if_pos hnil, h⟩
      next hnil =>
        rw [if_neg hnil]
        exact h.with hs
    obtain ⟨t', ht, h'⟩ := hregister
    refine ⟨t', bind_eq_ok.2 ⟨defs, hdefs, bind_eq_ok.2 ⟨regs, ?_, ht⟩⟩, h'⟩
    rw [h.addDefinition]
    exact hregs
  | setStrict strict =>
    cases hs
    refine ⟨_, rfl, ?_, h.code, h.name⟩
    rw [h.rest]
    rfl
  | setMaxGroupedDepth depth =>
    cases hs
    refine ⟨_, rfl, ?_, h.code, h.name⟩
    rw [h.rest]
    rfl

theorem Alike.apply_cases (h : Alike s t) (ord ord' : RangeOrder) (op : Op) :
    (∃ s' t', op.apply ord s = .ok s' ∧ op.apply ord' t = .ok t' ∧ Alike s' t') ∨
      ∃ e e', op.apply ord s = .error e ∧ op.apply ord' t = .error e' := by
  cases hs : op.apply ord s with
  | ok s' =>
    obtain ⟨t', ht, h'⟩ := @Alike.apply ord ord' _ _ _ h _ hs
    exact .inl ⟨s', t', rfl, ht, h'⟩
  | error e =>
    cases ht : op.apply ord' t with
    | error e' => exact .inr ⟨e, e', rfl, rfl⟩
    | ok t' =>
      obtain ⟨s', hs', -⟩ := @Alike.apply ord' ord _ _ _ h.symm _ ht
      rw [hs] at hs'
      cases hs'

end Snapshot

/-! ## Histories -/

open Snapshot

/-- The snapshot a parser publishes after a history of calls. A call that fails leaves the
published one in place. -/
def publishedAfter (calls : List (RangeOrder × Op)) (s : Snapshot) : Snapshot :=
  calls.foldl (fun s call => (call.2.apply call.1 s).toOption.getD s) s

theorem Snapshot.Alike.publishedAfter {calls calls' : List (RangeOrder × Op)}
    (hops : calls.map Prod.snd = calls'.map Prod.snd) {s t : Snapshot} (h : Alike s t) :
    Alike (publishedAfter calls s) (publishedAfter calls' t) := by
  induction calls generalizing calls' s t with
  | nil =>
    obtain rfl : calls' = [] := List.map_eq_nil_iff.1 hops.symm
    exact h
  | cons call calls ih =>
    cases calls' with
    | nil => cases hops
    | cons call' calls' =>
      obtain ⟨hop, hops⟩ := List.cons.inj hops
      refine ih hops ?_
      dsimp only
      rcases h.apply_cases call.1 call'.1 call.2 with ⟨s', t', hs, ht, h'⟩ | ⟨e, e', hs, ht⟩
      · rw [hop] at ht
        rw [hs, ht]
        exact h'
      · rw [hop] at ht
        rw [hs, ht]
        exact h

/-- Map orders have no part in what a parser does: after two runs of one history, with whatever
orders, the same calls succeed and every lookup answers the same. -/
theorem calls_order_independent {calls calls' : List (RangeOrder × Op)}
    (hops : calls.map Prod.snd = calls'.map Prod.snd) :
    (∀ (op : Op) (ord ord' : RangeOrder),
      (op.apply ord (publishedAfter calls emptySnapshot)).isOk =
        (op.apply ord' (publishedAfter calls' emptySnapshot)).isOk) ∧
    ∀ app,
      (∀ code vendorID, (publishedAfter calls emptySnapshot).findAVP app code vendorID =
        (publishedAfter calls' emptySnapshot).findAVP app code vendorID) ∧
      (∀ name, (publishedAfter calls emptySnapshot).findAVPByName app name =
        (publishedAfter calls' emptySnapshot).findAVPByName app name) ∧
      ∀ code, (publishedAfter calls emptySnapshot).findCommand app code =
        (publishedAfter calls' emptySnapshot).findCommand app code := by
  have halike : Alike (publishedAfter calls emptySnapshot) (publishedAfter calls' emptySnapshot) :=
    Alike.publishedAfter hops (Alike.refl _)
  refine ⟨fun op ord ord' => ?_, fun app => ⟨halike.symm.findAVP app,
    halike.symm.findAVPByName app, halike.symm.findCommand app⟩⟩
  rcases halike.apply_cases ord ord' op with ⟨s', t', hs, ht, -⟩ | ⟨e, e', hs, ht⟩
  · rw [hs, ht]
    rfl
  · rw [hs, ht]
    rfl

/-- Visits every map backwards. -/
def reverseOrder : RangeOrder := ⟨fun _ _ l => l.reverse, fun _ _ l => l.reverse_perm⟩

def diamondCallsReversed : List (RangeOrder × Op) :=
  diamondCalls.map fun call => (reverseOrder, call.2)

theorem calls_order_independent_diamond :
    diamondCalls.map Prod.snd = diamondCallsReversed.map Prod.snd ∧
      (publishedAfter diamondCalls emptySnapshot).findAVPByName 4 "Kept" =
        (publishedAfter diamondCallsReversed emptySnapshot).findAVPByName 4 "Kept" :=
  have hops : diamondCalls.map Prod.snd = diamondCallsReversed.map Prod.snd := rfl
  ⟨hops, ((@calls_order_independent diamondCalls diamondCallsReversed hops).2 4).2.1 "Kept"⟩

end Diameter.Dict
