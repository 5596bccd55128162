import Diameter.Validation.ScanSpec

/-!
# Validation.Grammar

The grammar `validateAVPs` stands for, without a scanner: how often each AVP may occur, what may
stand in front, and the same again inside Grouped AVPs.

* `Sequence`: the conditions on the AVPs of one list.
* `Conforms`: those conditions at every level of the tree.
* `validateAVPs_iff`: the scanner accepts exactly the lists that conform.

The rules of a list have to name different identities, and to have at most one wildcard
(`Unambiguous`); otherwise the scanner enforces the minimum of every rule but the maximum of the
last one only.
-/

namespace Diameter

open Lib Datatype Dict

variable {ms : List Member} {rules : List Rule} {s : Snapshot} {app : UInt32}
variable {g : Grammar} {a : AVP}

/-! ## The grammar -/

structure Unambiguous (s : Snapshot) (app : UInt32) (rules : List Rule) : Prop where
  distinct : (grammarOf s app rules).Distinct
  wildcard : (rules.filter fun rule => rule.avp = "AVP").length ≤ 1

/-- How often an identity occurs. -/
def occurrences (as : List AVP) (k : ValidationKey) : Nat := as.countP fun a => a.key == k

structure Sequence (s : Snapshot) (app : UInt32) (rules : List Rule) (as : List AVP) : Prop where
  listed : ∀ a ∈ as, a.isKnown s app = true →
    a.isListed (grammarOf s app rules) = true ∨ ∃ w ∈ rules, w.avp = "AVP"
  minimum : ∀ e ∈ (grammarOf s app rules).ordered, minimumCount e.rule ≤ occurrences as e.key
  maximum : ∀ e ∈ (grammarOf s app rules).ordered, ∀ n, e.maximum = some n →
    occurrences as e.key ≤ n.toNat
  /-- The fixed AVPs come first, each as often as it likes, in the order of the rules. -/
  fixedPrefix : ∃ (n : ValidationKey → Nat) (rest : List ValidationKey),
    countedKeys (grammarOf s app rules) s app as =
      (grammarOf s app rules).fixedKeys.flatMap (fun k => List.replicate (n k) k) ++ rest ∧
    ∀ k ∈ rest, k ∉ (grammarOf s app rules).fixedKeys
  wildcardMinimum : ∀ w ∈ rules, w.avp = "AVP" →
    minimumCount w ≤ as.countP fun a => !a.isListed (grammarOf s app rules)
  wildcardMaximum : ∀ w ∈ rules, w.avp = "AVP" → hasMaximum w = true →
    as.countP (AVP.isExtension (grammarOf s app rules) s app) ≤ w.max.toNat

/-- The shape of a Failed-AVP; its members are evidence and not checked. -/
def AVP.IsEvidence (a : AVP) : Prop := ∃ ms, a.data = .group ms ∧ ms ≠ [] ∧ none ∉ ms

/-- Whether the data is a `*GroupedAVP`, nil or not. -/
def AVP.isGroup (a : AVP) : Bool :=
  match a.data with
  | .group _ | .nilGroup => true
  | _ => false

/-- How many application identifiers there are among the members of a
Vendor-Specific-Application-Id. -/
def applicationChoices (ms : List (Option AVP)) : Nat :=
  ((ms.filterMap id).filter AVP.isApplicationChoice).length

/-- An AVP inside a Grouped AVP is never an echo. -/
def Item.plain (a : Option AVP) : Item := ⟨a, none⟩

inductive Conforms (s : Snapshot) (app : UInt32) : List Rule → List Item → Prop where
  | mk {rules : List Rule} {items : List Item} {as : List AVP}
      (noNil : items.map Item.avp = as.map some)
      (sequence : Sequence s app rules as)
      (flags : ∀ i ∈ items, ∀ a d, i.avp = some a → i.isEchoedProxy = false →
        s.avp app a.code a.vendorID = some d → (a.flags &&& vbit ≠ 0 ↔ d.vendorID ≠ 0))
      (evidence : ∀ i ∈ items, ∀ a, i.avp = some a → i.isEchoedProxy = false →
        a.isCounted (grammarOf s app rules) s app = true → a.isFailedAVP = true → a.IsEvidence)
      (members : ∀ i ∈ items, ∀ a d, i.avp = some a → i.isEchoedProxy = false →
        a.isFailedAVP = false → groupRules s app a = some d → a.isGroup = true →
        Conforms s app d.data.rule (a.members.map Item.plain))
      (choice : ∀ i ∈ items, ∀ a d, i.avp = some a → i.isEchoedProxy = false →
        a.isFailedAVP = false → groupRules s app a = some d → a.isGroup = true →
        isVendorSpecificApplicationID d = true → applicationChoices a.members = 1) :
      Conforms s app rules items

/-! ## One list -/

theorem checkMinimums_ok {counts : ValidationKey → Nat} {reason : String}
    {entries : List ValidationRule} :
    checkMinimums s app counts reason entries = .ok () ↔
      ∀ e ∈ entries, minimumCount e.rule ≤ counts e.key := by
  unfold checkMinimums
  split
  next e he =>
    refine ⟨(fun h => by cases h), fun h => ?_⟩
    have hlt := List.find?_some he
    have hle := h e (List.mem_of_find?_eq_some he)
    simp only [decide_eq_true_eq] at hlt
    omega
  next hnone =>
    refine ⟨fun _ e he => ?_, fun _ => rfl⟩
    have := List.find?_eq_none.1 hnone e he
    simpa using this

theorem presentCount_map_some (ms : List Member) (k : ValidationKey) :
    presentCount (ms.map some) k = occurrences (ms.map Member.avp) k := by
  simp [presentCount, occurrences, List.countP_map, Function.comp_def]

theorem count_countedKeys {e : ValidationRule} (he : e ∈ g.ordered) (as : List AVP) :
    (countedKeys g s app as).count e.key = occurrences as e.key := by
  simp only [countedKeys, occurrences, List.count, List.countP_map, List.countP_filter]
  refine List.countP_congr fun a _ => ?_
  constructor
  · intro h
    simp only [Function.comp_apply, Bool.and_eq_true] at h
    exact h.1
  · intro h
    have hlisted : a.isListed g = true := by
      simp only [AVP.isListed, List.any_eq_true, decide_eq_true_eq]
      exact ⟨e, he, (eq_of_beq h).symm⟩
    simp [AVP.isCounted, hlisted, h]

theorem wildcard_eq_some (hu : Unambiguous s app rules) {w : Rule} :
    (grammarOf s app rules).wildcard = some w ↔ w ∈ rules ∧ w.avp = "AVP" := by
  have hlen := hu.wildcard
  have hmem : (w ∈ rules ∧ w.avp = "AVP") ↔ w ∈ rules.filter fun rule => rule.avp = "AVP" := by simp
  rw [hmem, grammarOf]
  simp only
  generalize rules.filter (fun rule => decide (rule.avp = "AVP")) = l at *
  match l, hlen with
  | [], _ => simp
  | [w'], _ => simp [eq_comm]
  | _ :: _ :: _, h => simp at h

theorem wildcard_isSome (hu : Unambiguous s app rules) :
    (grammarOf s app rules).wildcard.isSome = true ↔ ∃ w ∈ rules, w.avp = "AVP" := by
  rw [Option.isSome_iff_exists]
  exact exists_congr fun w => wildcard_eq_some hu

theorem inOrder_of_allowed
    (h : ∀ l1 m l2, ms = l1 ++ m :: l2 → Allowed g s app (l1.map Member.avp) m) :
    InOrder g.fixedKeys (countedKeys g s app (ms.map Member.avp)) := by
  induction ms using List.reverseRecOn with
  | nil => exact List.Pairwise.nil
  | append_singleton ms m ih =>
    have hms := ih fun l1 m' l2 hl => h l1 m' (l2 ++ [m]) (by simp [hl])
    have hm := h ms m [] rfl
    rw [List.map_append, List.map_singleton]
    by_cases hc : m.avp.isCounted g s app = true
    · rw [countedKeys_snoc _ hc, inOrder_append_singleton]
      exact ⟨hms, hm.order hc⟩
    · rw [countedKeys_snoc_of_not _ (by simpa using hc)]
      exact hms

theorem countedKeys_split {l1 l2 : List AVP}
    (hc : a.isCounted g s app = true) :
    countedKeys g s app (l1 ++ a :: l2) =
      countedKeys g s app l1 ++ a.key :: countedKeys g s app l2 := by
  simp [countedKeys, hc]

theorem sequence_of_allowed
    (hu : Unambiguous s app rules)
    (h : ∀ l1 m l2, ms = l1 ++ m :: l2 →
      Allowed (grammarOf s app rules) s app (l1.map Member.avp) m)
    (hmin : ∀ e ∈ (grammarOf s app rules).ordered,
      minimumCount e.rule ≤ occurrences (ms.map Member.avp) e.key)
    (hwild : ∀ w ∈ rules, w.avp = "AVP" →
      minimumCount w ≤ (ms.map Member.avp).countP fun a => !a.isListed (grammarOf s app rules)) :
    Sequence s app rules (ms.map Member.avp) where
  listed := by
    intro a ha hknown
    obtain ⟨m, hm, rfl⟩ := List.mem_map.1 ha
    obtain ⟨l1, l2, hl⟩ := List.append_of_mem hm
    by_cases hlisted : m.avp.isListed (grammarOf s app rules) = true
    · exact .inl hlisted
    · exact .inr ((wildcard_isSome hu).1
        ((h l1 m l2 hl).listed (by simp [AVP.isExtension, hlisted, hknown])))
  minimum := hmin
  maximum := by
    intro e he n hn
    rw [occurrences, List.countP_map, countP_le_iff_split]
    intro l1 m l2 hl hkey
    have hkey' : m.avp.key = e.key := by simpa using hkey
    have hle := (h l1 m l2 hl).maximum e n
      (by rw [hkey']; exact Grammar.byKey_of_mem hu.distinct he) hn
    rw [hkey', count_countedKeys he, occurrences, List.countP_map] at hle
    exact hle
  fixedPrefix := (inOrder_iff (Grammar.nodup_fixedKeys hu.distinct)).1 (inOrder_of_allowed h)
  wildcardMinimum := hwild
  wildcardMaximum := by
    intro w hw hname hmax
    rw [List.countP_map, countP_le_iff_split]
    intro l1 m l2 hl hext
    have hle := (h l1 m l2 hl).extension w ((wildcard_eq_some hu).2 ⟨hw, hname⟩) hext hmax
    rw [List.countP_map] at hle
    exact hle

/-- A list that satisfies the grammar is allowed AVP by AVP, and the fixed rules before each AVP
are complete by then. -/
theorem allowed_of_sequence
    (hu : Unambiguous s app rules) {ms l1 l2 : List Member} {m : Member}
    (h : Sequence s app rules (ms.map Member.avp)) (hl : ms = l1 ++ m :: l2)
    (hflags : m.echoed = false → ∀ d, s.avp app m.avp.code m.avp.vendorID = some d →
      invalidAVPFlags m.avp.flags d = false)
    (hcontents : m.avp.isCounted (grammarOf s app rules) s app = true →
      checkContents m = .ok ()) :
    Allowed (grammarOf s app rules) s app (l1.map Member.avp) m ∧
      ∀ e ∈ (grammarOf s app rules).ordered, e.rule.fixed = true →
        (grammarOf s app rules).fixedKeys.idxOf e.key <
          (grammarOf s app rules).fixedKeys.idxOf m.avp.key →
        m.avp.key ∈ (grammarOf s app rules).fixedKeys →
        minimumCount e.rule ≤
          (countedKeys (grammarOf s app rules) s app (l1.map Member.avp)).count e.key := by
  have horder := (inOrder_iff (Grammar.nodup_fixedKeys hu.distinct)).2 h.fixedPrefix
  have hmem : m.avp ∈ ms.map Member.avp := by rw [hl]; simp
  constructor
  · exact {
      flags := hflags
      listed := by
        intro hext
        obtain ⟨hnot, hknown⟩ := Bool.and_eq_true_iff.1 hext
        rcases h.listed m.avp hmem hknown with hlisted | hw
        · simp [hlisted] at hnot
        · exact (wildcard_isSome hu).2 hw
      extension := by
        intro w hw hext hmax
        obtain ⟨hwmem, hname⟩ := (wildcard_eq_some hu).1 hw
        have hle := h.wildcardMaximum w hwmem hname hmax
        rw [List.countP_map, countP_le_iff_split] at hle
        have := hle l1 m l2 hl hext
        rwa [List.countP_map]
      maximum := by
        intro e n he hn
        obtain ⟨hmemE, hkey⟩ := Grammar.mem_of_byKey he
        have hle := h.maximum e hmemE n hn
        rw [occurrences, List.countP_map, countP_le_iff_split] at hle
        have := hle l1 m l2 hl (by simp [hkey])
        rw [← hkey, count_countedKeys hmemE, occurrences, List.countP_map]
        exact this
      order := by
        intro hc k hk
        rw [hl, List.map_append, List.map_cons, countedKeys_split hc] at horder
        exact (List.pairwise_append.1 horder).2.2 k hk m.avp.key List.mem_cons_self
      contents := hcontents }
  · intro e he hfixed hlt hin
    have hlisted : m.avp.isListed (grammarOf s app rules) = true := by
      obtain ⟨e', he', hk⟩ := List.mem_map.1 hin
      simp only [AVP.isListed, List.any_eq_true, decide_eq_true_eq]
      exact ⟨e', (List.mem_filter.1 he').1, hk⟩
    have hc : m.avp.isCounted (grammarOf s app rules) s app = true := by
      simp [AVP.isCounted, hlisted]
    have hmin := h.minimum e he
    rw [← count_countedKeys he, hl, List.map_append, List.map_cons, countedKeys_split hc,
      List.count_append] at hmin
    -- The rule's AVPs cannot come after one that is behind it in the order.
    have hzero : (m.avp.key :: countedKeys (grammarOf s app rules) s app
        (l2.map Member.avp)).count e.key = 0 := by
      rw [hl, List.map_append, List.map_cons, countedKeys_split hc] at horder
      have htail := (List.pairwise_append.1 horder).2.1
      rw [List.count_eq_zero]
      intro hmemk
      rcases List.mem_cons.1 hmemk with heq | hmemk
      · rw [heq] at hlt; omega
      · have := (List.pairwise_cons.1 htail).1 e.key hmemk
        omega
    omega

/-- The check of the wildcard's minimum at the end. -/
theorem wildcardMinimum_ok {wildcard : Option Rule} {n : Nat} {reason : String} :
    (match wildcard with
      | some w => if n < minimumCount w then Except.error (⟨missingAVP, none, reason⟩ : ValidationError)
        else .ok ()
      | none => .ok ()) = .ok () ↔ ∀ w, wildcard = some w → minimumCount w ≤ n := by
  cases wildcard with
  | none => simp
  | some w =>
    simp only [Option.some.injEq, forall_eq']
    split
    next hlt => exact ⟨(fun h => by cases h), fun h => absurd h (by omega)⟩
    next hge => exact ⟨fun _ => Nat.le_of_not_lt hge, fun _ => rfl⟩

theorem validateMembers_iff (hu : Unambiguous s app rules) {ms : List (Option Member)} :
    validateMembers s app ms rules = .ok () ↔
      ∃ ms' : List Member, ms = ms'.map some ∧ Sequence s app rules (ms'.map Member.avp) ∧
        ∀ m ∈ ms', (m.echoed = false → ∀ d, s.avp app m.avp.code m.avp.vendorID = some d →
            invalidAVPFlags m.avp.flags d = false) ∧
          (m.avp.isCounted (grammarOf s app rules) s app = true → checkContents m = .ok ()) := by
  unfold validateMembers
  simp only
  rw [Check.andThen_eq_ok, Check.bind_eq_ok]
  constructor
  · rintro ⟨-, st, hscan, hend⟩
    obtain ⟨hmin, hwild⟩ := Check.andThen_eq_ok.1 hend
    obtain ⟨ms', rfl, ht, hall⟩ := scanMembers_sound hu.distinct (tracks_nil _ s app) hscan
    simp only [List.nil_append] at ht hall
    refine ⟨ms', rfl, sequence_of_allowed hu hall ?_ ?_, ?_⟩
    · intro e he
      have := checkMinimums_ok.1 hmin e he
      rwa [ht.counts, count_countedKeys he] at this
    · intro w hw hname
      have hsome := (wildcard_eq_some hu).2 ⟨hw, hname⟩
      have := wildcardMinimum_ok.1 hwild w hsome
      rwa [ht.minimum, hsome, Option.isSome_some, if_pos rfl] at this
    · intro m hm
      obtain ⟨l1, l2, hl⟩ := List.append_of_mem hm
      exact ⟨(hall l1 m l2 hl).flags, (hall l1 m l2 hl).contents⟩
  · rintro ⟨ms', rfl, hseq, hms⟩
    have hall : ∀ l1 m l2, ms' = l1 ++ m :: l2 → _ := fun l1 m l2 hl =>
      allowed_of_sequence hu hseq hl (hms m (by rw [hl]; simp)).1 (hms m (by rw [hl]; simp)).2
    obtain ⟨st, hscan⟩ := scanMembers_complete (i := 0) hu.distinct (tracks_nil _ s app)
      (fun l1 m l2 hl => by simpa using hall l1 m l2 hl)
    obtain ⟨ms'', heq, ht, -⟩ := scanMembers_sound hu.distinct (tracks_nil _ s app) hscan
    obtain rfl : ms' = ms'' := List.map_injective_iff.2 (Option.some_injective _) heq
    simp only [List.nil_append] at ht
    refine ⟨checkMinimums_ok.2 ?_, st, hscan, Check.andThen_eq_ok.2 ⟨checkMinimums_ok.2 ?_,
      wildcardMinimum_ok.2 ?_⟩⟩
    · intro e he
      rw [presentCount_map_some]
      exact hseq.minimum e (List.mem_filter.1 he).1
    · intro e he
      rw [ht.counts, count_countedKeys he]
      exact hseq.minimum e he
    · intro w hw
      obtain ⟨hmem, hname⟩ := (wildcard_eq_some hu).1 hw
      rw [ht.minimum, hw, Option.isSome_some, if_pos rfl]
      exact hseq.wildcardMinimum w hmem hname

/-! ## The tree -/

theorem validateFailedEvidence_ok :
    validateFailedEvidence a = .ok () ↔ a.IsEvidence := by
  unfold validateFailedEvidence AVP.IsEvidence
  cases hdata : a.data with
  | group ms =>
    simp only
    split
    next hnil =>
      refine ⟨(fun h => by cases h), ?_⟩
      rintro ⟨_, h, hne, -⟩
      cases h
      exact absurd (List.isEmpty_iff.1 hnil) hne
    next hne =>
      split
      next hany =>
        refine ⟨(fun h => by cases h), ?_⟩
        rintro ⟨_, h, -, hnone⟩
        cases h
        obtain ⟨o, ho, hisnone⟩ := List.any_eq_true.1 hany
        rw [Option.isNone_iff_eq_none.1 hisnone] at ho
        exact absurd ho hnone
      next hany =>
        refine ⟨fun _ => ⟨ms, rfl, by simpa using hne, fun hnone => hany ?_⟩, fun _ => rfl⟩
        exact List.any_eq_true.2 ⟨none, hnone, rfl⟩
  | nil | value v | addressPtr p | nilGroup => simp

theorem validateVendorApplicationChoice_ok {parent : AVP} {ms : List (Option AVP)} :
    validateVendorApplicationChoice parent ms = .ok () ↔ applicationChoices ms = 1 := by
  unfold validateVendorApplicationChoice applicationChoices
  match (ms.filterMap id).filter AVP.isApplicationChoice with
  | [] => simp
  | [_] => simp
  | _ :: _ :: _ => simp

theorem plain_isEchoedProxy (a : Option AVP) : (Item.plain a).isEchoedProxy = false := by
  cases a <;> rfl

theorem validateBelow_eq (s : Snapshot) (app : UInt32) (ms : List (Option AVP)) :
    validateBelow s app ms = (ms.map Item.plain).map (Item.member s app) := by
  induction ms with
  | nil => rfl
  | cons a ms ih => cases a <;> simp [validateBelow, ih, Item.plain, Item.member, Item.isEchoedProxy]

theorem validateInner_eq (s : Snapshot) (app : UInt32) (a : AVP) :
    a.validateInner s app =
      if a.isGroup then
        validateGroup s app a ((a.members.map Item.plain).map (Item.member s app))
      else .ok () := by
  obtain ⟨code, flags, length, vendorID, data⟩ := a
  cases data with
  | group ms => simp only [AVP.validateInner, AVP.isGroup, AVP.members, validateBelow_eq, if_true]
  | nilGroup => simp only [AVP.validateInner, AVP.isGroup, AVP.members, List.map_nil, if_true]
  | nil | value v | addressPtr p => simp [AVP.validateInner, AVP.isGroup]

theorem validateInner_ok :
    a.validateInner s app = .ok () ↔
      ∀ d, groupRules s app a = some d → a.isGroup = true →
        validateAVPs (a.members.map Item.plain) d.data.rule app s = .ok () ∧
        (isVendorSpecificApplicationID d = true → applicationChoices a.members = 1) := by
  rw [validateInner_eq]
  cases hgroup : a.isGroup with
  | false => simp
  | true =>
    simp only [if_true, validateGroup, validateAVPs]
    cases hd : groupRules s app a with
    | none => simp
    | some d =>
      simp only [Option.some.injEq, forall_const, forall_eq']
      cases hv : validateMembers s app ((a.members.map Item.plain).map (Item.member s app))
          d.data.rule with
      | error e => simp
      | ok u =>
        cases hvs : isVendorSpecificApplicationID d with
        | false => simp
        | true => simp [validateVendorApplicationChoice_ok]

theorem invalidAVPFlags_eq_false {flags : UInt8} {d : Dict.AVP} :
    invalidAVPFlags flags d = false ↔ (flags &&& vbit ≠ 0 ↔ d.vendorID ≠ 0) := by
  simp only [invalidAVPFlags, bne_eq_false_iff_eq]
  rw [Bool.eq_iff_iff]
  simp

theorem map_member_eq {items : List Item} (h : items.map (Item.member s app) = ms.map some) :
    items.map Item.avp = (ms.map Member.avp).map some := by
  have hmap : items.map Item.avp = (items.map (Item.member s app)).map (Option.map Member.avp) := by
    simp [Item.member, Function.comp_def]
  rw [hmap, h]
  simp

/-- `validateAVPs` accepts what conforms, given the same for the members of the AVPs. -/
theorem validateAVPs_iff_of_members
    (hu : Unambiguous s app rules) {items : List Item}
    (ih : ∀ i ∈ items, ∀ a d, i.avp = some a → groupRules s app a = some d →
      (validateAVPs (a.members.map Item.plain) d.data.rule app s = .ok () ↔
        Conforms s app d.data.rule (a.members.map Item.plain))) :
    validateAVPs items rules app s = .ok () ↔ Conforms s app rules items := by
  rw [validateAVPs, validateMembers_iff hu]
  constructor
  · rintro ⟨ms, hms, hseq, hall⟩
    have hmember : ∀ i ∈ items, ∀ a, i.avp = some a →
        (⟨a, i.isEchoedProxy, a.validateInner s app⟩ : Member) ∈ ms := by
      intro i hi a ha
      have hmem := List.mem_map_of_mem (f := Item.member s app) hi
      rw [hms] at hmem
      simpa [Item.member, ha] using hmem
    have hinner : ∀ i ∈ items, ∀ a d, i.avp = some a → i.isEchoedProxy = false →
        a.isFailedAVP = false → groupRules s app a = some d → a.isGroup = true →
        validateAVPs (a.members.map Item.plain) d.data.rule app s = .ok () ∧
          (isVendorSpecificApplicationID d = true → applicationChoices a.members = 1) := by
      intro i hi a d ha hecho hfailed hd hgroup
      have hknown : a.isKnown s app = true := by
        unfold groupRules at hd
        rw [Snapshot.findAVP_toOption] at hd
        cases havp : s.avp app a.code a.vendorID with
        | none => simp [havp] at hd
        | some d' => simp [AVP.isKnown, havp]
      have hc := (hall _ (hmember i hi a ha)).2 (by simp [AVP.isCounted, hknown])
      simp only [checkContents, hecho, hfailed, Bool.false_eq_true, if_false] at hc
      exact validateInner_ok.1 hc d hd hgroup
    refine .mk (map_member_eq hms) hseq ?_ ?_ ?_ ?_
    · intro i hi a d ha hecho hd
      exact invalidAVPFlags_eq_false.1 ((hall _ (hmember i hi a ha)).1 hecho d hd)
    · intro i hi a ha hecho hcounted hfailed
      have hc := (hall _ (hmember i hi a ha)).2 hcounted
      simp only [checkContents, hecho, hfailed, Bool.false_eq_true, if_false, if_true] at hc
      exact validateFailedEvidence_ok.1 hc
    · intro i hi a d ha hecho hfailed hd hgroup
      exact (ih i hi a d ha hd).1 (hinner i hi a d ha hecho hfailed hd hgroup).1
    · intro i hi a d ha hecho hfailed hd hgroup
      exact (hinner i hi a d ha hecho hfailed hd hgroup).2
  · rintro ⟨hnil, hseq, hflags, hevidence, hmembers, hchoice⟩
    rename_i as
    -- Every item has an AVP, so the members are those of the AVPs.
    have hsome : ∀ i ∈ items, ∃ a, i.avp = some a := by
      intro i hi
      have hmem := List.mem_map_of_mem (f := Item.avp) hi
      rw [hnil] at hmem
      obtain ⟨a, -, ha⟩ := List.mem_map.1 hmem
      exact ⟨a, ha.symm⟩
    obtain ⟨ms, hms⟩ : ∃ ms : List Member, items.map (Item.member s app) = ms.map some := by
      refine ⟨items.filterMap (Item.member s app), ?_⟩
      rw [List.map_filterMap_some_eq_filter_map_isSome, List.filter_eq_self.2]
      intro o ho
      obtain ⟨i, hi, rfl⟩ := List.mem_map.1 ho
      obtain ⟨a, ha⟩ := hsome i hi
      simp [Item.member, ha]
    have has : as = ms.map Member.avp := by
      have := map_member_eq hms
      rw [hnil] at this
      exact List.map_injective_iff.2 (Option.some_injective _) this
    subst has
    refine ⟨ms, hms, hseq, ?_⟩
    intro m hm
    have hmem := List.mem_map_of_mem (f := some) hm
    rw [← hms] at hmem
    obtain ⟨i, hi, him⟩ := List.mem_map.1 hmem
    obtain ⟨a, ha⟩ := hsome i hi
    simp only [Item.member, ha, Option.map_some, Option.some.injEq] at him
    subst him
    refine ⟨fun hecho d hd => invalidAVPFlags_eq_false.2 (hflags i hi a d ha hecho hd), ?_⟩
    intro hcounted
    unfold checkContents
    cases hecho : i.isEchoedProxy with
    | true => rfl
    | false =>
      cases hfailed : a.isFailedAVP with
      | true =>
        simp only [Bool.false_eq_true, if_false, if_true]
        exact validateFailedEvidence_ok.2 (hevidence i hi a ha hecho hcounted hfailed)
      | false =>
        simp only [Bool.false_eq_true, if_false]
        refine validateInner_ok.2 fun d hd hgroup => ⟨?_, ?_⟩
        · exact (ih i hi a d ha hd).2 (hmembers i hi a d ha hecho hfailed hd hgroup)
        · exact hchoice i hi a d ha hecho hfailed hd hgroup

theorem avp_of_groupRules {d : Dict.AVP} (h : groupRules s app a = some d) :
    s.avp app a.code a.vendorID = some d ∧ d.data.type = .grouped := by
  unfold groupRules at h
  rw [Snapshot.findAVP_toOption] at h
  cases havp : s.avp app a.code a.vendorID with
  | none => simp [havp] at h
  | some d' =>
    simp only [havp] at h
    split at h
    next hd =>
      cases h
      exact ⟨rfl, hd.1⟩
    · cases h

/-- The scanner accepts exactly the lists that conform to the grammar. -/
theorem validateAVPs_iff {s : Snapshot} {app : UInt32} {rules : List Rule}
    (hu : Unambiguous s app rules)
    (hnested : ∀ code vendor d, s.avp app code vendor = some d → d.data.type = .grouped →
      Unambiguous s app d.data.rule) (items : List Item) :
    validateAVPs items rules app s = .ok () ↔ Conforms s app rules items := by
  have hmembers : ∀ a : AVP, ∀ d, groupRules s app a = some d →
      (validateAVPs (a.members.map Item.plain) d.data.rule app s = .ok () ↔
        Conforms s app d.data.rule (a.members.map Item.plain)) := by
    intro a
    induction a using AVP.members_induction with
    | level a ih =>
      intro d hd
      obtain ⟨havp, htype⟩ := avp_of_groupRules hd
      refine validateAVPs_iff_of_members (hnested _ _ d havp htype) ?_
      intro i hi c d' hc
      obtain ⟨o, ho, rfl⟩ := List.mem_map.1 hi
      have hoc : o = some c := hc
      exact ih c (hoc ▸ ho) d'
  exact validateAVPs_iff_of_members hu fun i _ a d _ hd => hmembers a d hd

/-! ## An example -/

def counterDefinition : Dict.AVP :=
  { name := "Counter", code := 1001, data := { type := .unsigned32, typeName := "Unsigned32" } }

def groupDefinition (rules : List Rule) : Dict.AVP :=
  { name := "Group", code := 1000,
    data := { type := .grouped, typeName := "Grouped", rule := rules } }

/-- A dictionary with a Group and a Counter. -/
def grammarSnapshot (groupRules : List Rule) : Snapshot where
  avpcode := AList.insert ⟨0, 1000, 0⟩ (groupDefinition groupRules)
    (AList.insert ⟨0, 1001, 0⟩ counterDefinition ∅)
  avpname := AList.insert ⟨0, "Group"⟩ (groupDefinition groupRules)
    (AList.insert ⟨0, "Counter"⟩ counterDefinition ∅)

def counters (n : Nat) : AVP :=
  newAVP 1000 0 0 (.group (List.replicate n
    (some (newAVP 1001 0 0 (.value (.unsigned32 7))))))

/-- A Group that starts with one Counter; anything may follow. -/
def counterFirst : Snapshot :=
  grammarSnapshot [{ avp := "Counter", required := true, fixed := true }, { avp := "AVP" }]

theorem validateAVPs_iff_counterFirst :
    validateAVPs [⟨some (counters 1), none⟩] [{ avp := "Group", required := true }] 0
        counterFirst = .ok () ∧
      Conforms counterFirst 0 [{ avp := "Group", required := true }]
        [⟨some (counters 1), none⟩] := by
  have haccepted : validateAVPs [⟨some (counters 1), none⟩]
      [{ avp := "Group", required := true }] 0 counterFirst = .ok () := by rfl
  refine ⟨haccepted, (validateAVPs_iff ⟨?_, by decide⟩ ?_ _).1 haccepted⟩
  · show List.Nodup _
    decide
  intro code vendor d hd htype
  obtain ⟨p, hp, rfl⟩ := Snapshot.mem_of_avp hd
  have hall : ∀ p ∈ counterFirst.avpcode.entries, p.2.data.type = .grouped →
      ((grammarOf counterFirst 0 p.2.data.rule).ordered.map ValidationRule.key).Nodup ∧
        (p.2.data.rule.filter fun rule => rule.avp = "AVP").length ≤ 1 := by decide
  obtain ⟨hdistinct, hwild⟩ := hall p hp htype
  exact ⟨hdistinct, hwild⟩

/-- A negative maximum accepts a list without the AVP, although no number of occurrences is below
it; and where two rules of a Group name the same AVP, the maximum of the first is not enforced. -/
theorem not_validateAVPs_iff :
    (∃ (s : Snapshot) (app : UInt32) (rules : List Rule) (e : ValidationRule) (n : Int),
      Unambiguous s app rules ∧ validateAVPs [] rules app s = .ok () ∧
      e ∈ (grammarOf s app rules).ordered ∧ e.maximum = some n ∧
      ¬ ((occurrences [] e.key : Int) ≤ n)) ∧
    ∃ (s : Snapshot) (app : UInt32) (rules : List Rule) (a : AVP) (d : Dict.AVP)
      (e : ValidationRule) (n : Int),
      Unambiguous s app rules ∧ validateAVPs [⟨some a, none⟩] rules app s = .ok () ∧
      groupRules s app a = some d ∧ e ∈ (grammarOf s app d.data.rule).ordered ∧
      e.maximum = some n ∧ ¬ ((occurrences (a.members.filterMap id) e.key : Int) ≤ n) := by
  constructor
  · refine ⟨grammarSnapshot [], 0, [{ avp := "Counter", max := -1, maxSet := true }],
      ⟨{ avp := "Counter", max := -1, maxSet := true }, counterDefinition⟩, -1,
      ⟨?_, by decide⟩, by rfl, by decide, by decide, by decide⟩
    show List.Nodup _
    decide
  · refine ⟨grammarSnapshot [{ avp := "Counter", max := 1 }, { avp := "Counter" }], 0,
      [{ avp := "Group" }], counters 2, _, ⟨{ avp := "Counter", max := 1 }, counterDefinition⟩, 1,
      ⟨?_, by decide⟩, by rfl, by rfl, by decide, by decide, by decide⟩
    show List.Nodup _
    decide

end Diameter
