import Diameter.Base.Builders
import Diameter.Base.Echo
import Diameter.Validation.Receiver

/-!
# Base.Sound

What the validator asks of a capabilities message, AVP by AVP and in numbers.

* `Sound`: what is asked of a single AVP, apart from how often it occurs. The AVPs a builder adds
  are sound (`sound_value`), and so are checked groups (`sound_vendorApplication`) and echoes
  (`Sound.echo`).
* `summarises`: what the rules ask in numbers (`sequence_of_counts`).
* `validateMessage_of_sound`: a message of sound AVPs in the right numbers passes.
-/

namespace Diameter.Base

open Lib Datatype Dict

variable {a : AVP} {d : Dict.AVP} {as : List AVP}
variable {v : Value} {rules : List Rule} {c : AVP} {cs : List AVP}

/-! ## Definitions -/

/-- The AVPs of a capabilities message that hold values. -/
def capabilityTypes : List (UInt32 × TypeID) :=
  [(resultCodeCode, .unsigned32), (originHostCode, .diameterIdentity),
   (originRealmCode, .diameterIdentity), (hostIPAddressCode, .address),
   (vendorIDCode, .unsigned32), (productNameCode, .utf8String), (originStateIDCode, .unsigned32),
   (supportedVendorIDCode, .unsigned32), (inbandSecurityIDCode, .unsigned32),
   (authApplicationIDCode, .unsigned32), (acctApplicationIDCode, .unsigned32),
   (firmwareRevisionCode, .unsigned32)]

theorem capabilityTypes_baseAVPs : capabilityTypes.all (fun entry => baseAVPs.all fun d =>
    d.code != entry.1 || d.data.type == entry.2) = true := by
  decide +kernel

theorem type_of_avp {code vendorID : UInt32} {t : TypeID} (h : (code, t) ∈ capabilityTypes)
    (hd : grammarDictionary.avp 0 code vendorID = some d) : d.data.type = t := by
  obtain ⟨hmem, hcode, -⟩ := avp_iff.1 hd
  have hall := List.all_eq_true.1 (List.all_eq_true.1 capabilityTypes_baseAVPs _ h) d hmem
  simpa [hcode] using hall

theorem baseAVPs_vendorID : baseAVPs.all (fun d => d.vendorID == 0) = true := by
  decide +kernel

theorem vendorID_of_avp {code vendorID : UInt32}
    (hd : grammarDictionary.avp 0 code vendorID = some d) : d.vendorID = 0 := by
  simpa using List.all_eq_true.1 baseAVPs_vendorID d (avp_iff.1 hd).1

theorem data_of_unsigned32? {n : UInt32} (h : a.unsigned32? = some n) :
    a.data = .value (.unsigned32 n) := by
  unfold AVP.unsigned32? at h
  split at h
  next hdata =>
    cases h
    exact hdata
  · cases h

/-! ## Single AVPs -/

/-- What the validator asks of an AVP of a capabilities message. -/
structure Sound (a : AVP) : Prop where
  vbit : a.flags &&& vbit = 0
  notFailed : a.isFailedAVP = false
  notDestination : a.isDestination = false
  members : ∀ d, groupRules grammarDictionary 0 a = some d →
    Conforms grammarDictionary 0 d.data.rule (a.members.map Item.plain)
  choice : ∀ d, groupRules grammarDictionary 0 a = some d →
    isVendorSpecificApplicationID d = true → applicationChoices a.members = 1
  types : a.validateTypes grammarDictionary = none

/-- What the data check asks of a value. -/
def goodValue : Value → Bool
  | .diameterIdentity s => validIdentity s
  | .utf8String s => utf8Valid s
  | .address a => a.valid.isOk
  | .unsigned32 _ => true
  | _ => false

theorem dataError_of_goodValue (hdata : a.data = .value v)
    (htype : d.data.type = v.typeID) (hv : goodValue v = true) (hzero : zeroVendor a = false) :
    dataError d a = none := by
  rw [dataError_eq_none]
  cases v
  case diameterIdentity s =>
    have hs : validIdentity s = true := hv
    refine ⟨?_, ?_, ?_, hzero⟩ <;>
      simp [malformed, mistyped, invalidCause, hdata, htype, Value.typeID, hs, Data.typeID?]
  case utf8String s =>
    have hs : utf8Valid s = true := hv
    refine ⟨?_, ?_, ?_, hzero⟩ <;>
      simp [malformed, mistyped, invalidCause, hdata, htype, Value.typeID, hs, Data.typeID?,
        Value.serialize]
  case address x =>
    have hread : unreadableAddress (.value (.address x)) = false := by
      have := @decode_serialize (.address x) .address ⟨rfl, hv⟩
      simp [unreadableAddress, this]
      rfl
    refine ⟨?_, ?_, ?_, hzero⟩ <;>
      simp [malformed, mistyped, invalidCause, hdata, htype, Value.typeID, hread, Data.typeID?]
  case unsigned32 n =>
    refine ⟨?_, ?_, ?_, hzero⟩ <;>
      simp [malformed, mistyped, invalidCause, hdata, htype, Value.typeID, Data.typeID?, Data.len,
        Value.len]
  all_goals cases hv

theorem types_of_goodValue (hdata : a.data = .value v)
    (htype : (a.code, v.typeID) ∈ capabilityTypes) (hv : goodValue v = true)
    (hzero : zeroVendor a = false) : a.validateTypes grammarDictionary = none := by
  refine avpTypes_eq_none.2 fun d hd _ => ?_
  refine ⟨dataError_of_goodValue hdata (type_of_avp htype hd) hv hzero, fun c hc => ?_⟩
  simp [AVP.members, hdata] at hc

theorem capabilityTypes_codes : capabilityTypes.all (fun entry =>
    entry.1 != failedAVPCode && entry.1 != destinationHostCode && entry.1 != destinationRealmCode &&
      entry.2 != .grouped) = true := by
  decide

theorem sound_value (hdata : a.data = .value v) (hvbit : a.flags &&& vbit = 0)
    (htype : (a.code, v.typeID) ∈ capabilityTypes) (hv : goodValue v = true)
    (hzero : zeroVendor a = false) : Sound a := by
  have hcodes := List.all_eq_true.1 capabilityTypes_codes _ htype
  simp only [Bool.and_eq_true, bne_iff_ne, ne_eq] at hcodes
  obtain ⟨⟨⟨hfailed, hhost⟩, hrealm⟩, hgrouped⟩ := hcodes
  have hnoRules : ∀ d, groupRules grammarDictionary 0 a ≠ some d := fun d hd => by
    obtain ⟨havp, hgroup⟩ := avp_of_groupRules hd
    exact hgrouped (hgroup ▸ (type_of_avp htype havp).symm)
  exact {
    vbit := hvbit
    notFailed := by simp [AVP.isFailedAVP, hfailed]
    notDestination := by simp [AVP.isDestination, hhost, hrealm]
    members := fun d hd => absurd hd (hnoRules d)
    choice := fun d hd => absurd hd (hnoRules d)
    types := types_of_goodValue hdata htype hv hzero }

theorem Sound.echo (h : Sound a) : Sound a.echo where
  vbit := by rw [reshapes_echo.vbit]; exact h.vbit
  notFailed := by rw [reshapes_echo.isFailedAVP]; exact h.notFailed
  notDestination := by
    rw [AVP.isDestination, reshapes_echo.code, reshapes_echo.vendorID]
    exact h.notDestination
  members := fun d hd => by
    rw [reshapes_echo.groupRules] at hd
    exact reshapes_echo.conforms_members a (h.members d hd)
  choice := fun d hd hvendor => by
    rw [reshapes_echo.groupRules] at hd
    rw [reshapes_echo.members, reshapes_echo.applicationChoices]
    exact h.choice d hd hvendor
  types := validateTypes_echo h.types

/-! ## Counting -/

/-- Rules without positions, with at most one occurrence where they bound the number, and which of
their codes are required. -/
def summarises (rules : List Rule) (required single : List UInt32) : Bool :=
  (rules.filterMap resolve).all (fun e => e.key.vendor == 0 && !e.rule.fixed &&
    (minimumCount e.rule == 0 || minimumCount e.rule == 1 && required.contains e.key.code) &&
    (e.maximum == none || e.maximum == some 1 && single.contains e.key.code)) &&
  rules.all fun w => w.avp != "AVP" || minimumCount w == 0 && !hasMaximum w

theorem sequence_of_counts {required single : List UInt32}
    (h : summarises rules required single = true)
    (hlisted : ∀ a ∈ as, a.isKnown grammarDictionary 0 = true →
      a.isListed (grammarOf grammarDictionary 0 rules) = true ∨ ∃ w ∈ rules, w.avp = "AVP")
    (hrequired : ∀ c ∈ required, 1 ≤ occurrences as ⟨c, 0⟩)
    (hsingle : ∀ c ∈ single, occurrences as ⟨c, 0⟩ ≤ 1) :
    Sequence grammarDictionary 0 rules as := by
  obtain ⟨hentries, hwild⟩ := Bool.and_eq_true_iff.1 h
  have hentry : ∀ e ∈ (grammarOf grammarDictionary 0 rules).ordered, e.key.vendor = 0 ∧
      e.rule.fixed = false ∧
      (minimumCount e.rule = 0 ∨ minimumCount e.rule = 1 ∧ e.key.code ∈ required) ∧
      (e.maximum = none ∨ e.maximum = some 1 ∧ e.key.code ∈ single) := by
    intro e he
    rw [grammarOf_eq] at he
    simpa [and_assoc] using List.all_eq_true.1 hentries e he
  have hkey : ∀ e ∈ (grammarOf grammarDictionary 0 rules).ordered, e.key = ⟨e.key.code, 0⟩ := by
    intro e he
    rw [← (hentry e he).1]
  have hfixed : (grammarOf grammarDictionary 0 rules).fixedKeys = [] := by
    unfold Grammar.fixedKeys
    rw [List.map_eq_nil_iff, List.filter_eq_nil_iff]
    intro e he
    simp [(hentry e he).2.1]
  have hw : ∀ w ∈ rules, w.avp = "AVP" → minimumCount w = 0 ∧ hasMaximum w = false := by
    intro w hw hname
    simpa [hname] using List.all_eq_true.1 hwild w hw
  refine ⟨hlisted, ?_, ?_,
    ⟨fun _ => 0, countedKeys (grammarOf grammarDictionary 0 rules) grammarDictionary 0 as, ?_, ?_⟩,
    ?_, ?_⟩
  · intro e he
    obtain ⟨-, -, hmin, -⟩ := hentry e he
    rcases hmin with hmin | ⟨hmin, hc⟩
    · rw [hmin]
      exact Nat.zero_le _
    · rw [hmin, hkey e he]
      exact hrequired _ hc
  · intro e he n hn
    obtain ⟨-, -, -, hmax⟩ := hentry e he
    rcases hmax with hmax | ⟨hmax, hc⟩
    · rw [hmax] at hn
      cases hn
    rw [hmax] at hn
    cases hn
    rw [hkey e he]
    exact hsingle _ hc
  · rw [hfixed]
    rfl
  · rw [hfixed]
    exact fun k _ => List.not_mem_nil
  · intro w hmem hname
    rw [(hw w hmem hname).1]
    exact Nat.zero_le _
  · intro w hmem hname hmax
    rw [(hw w hmem hname).2] at hmax
    cases hmax

/-! ## Vendor-Specific-Application-Id -/

/-- The members a Vendor-Specific-Application-Id is made of. -/
def memberCodes : List UInt32 := [vendorIDCode, authApplicationIDCode, acctApplicationIDCode]

/-- A configured Vendor-Specific-Application-Id: apart from its three members it may only hold AVPs
the base dictionary does not define. -/
def onlyMembers (a : AVP) : Prop :=
  ∀ c, some c ∈ a.members → c.isKnown grammarDictionary 0 = true →
    c.isIETF = true ∧ c.code ∈ memberCodes

def vendorMember (c : AVP) : Bool := c.isIETF && c.code == vendorIDCode

def applicationMember (c : AVP) : Bool :=
  c.isIETF && (c.code == authApplicationIDCode || c.code == acctApplicationIDCode)

theorem countMembers_ok {i : Nat} {ms : List (Option AVP)} {v a v' a' : Nat}
    (h : countMembers i ms v a = .ok (v', a')) :
    ∃ cs : List AVP, ms = cs.map some ∧ v' = v + cs.countP vendorMember ∧
      a' = a + cs.countP applicationMember ∧
      ∀ c ∈ cs, c.isIETF = true → c.code ∈ memberCodes → c.unsigned32?.isSome = true := by
  induction ms generalizing v a with
  | nil =>
    cases h
    exact ⟨[], rfl, rfl, rfl, fun c hc => by cases hc⟩
  | cons o ms ih =>
    cases o with
    | none => cases h
    | some child =>
      unfold countMembers at h
      -- the child is skipped, refused, or counted once
      have hskip : ∀ {v1 a1 : Nat}, countMembers i ms v1 a1 = .ok (v', a') →
          v1 = v + [child].countP vendorMember → a1 = a + [child].countP applicationMember →
          (child.isIETF = true → child.code ∈ memberCodes → child.unsigned32?.isSome = true) →
          ∃ cs : List AVP, some child :: ms = cs.map some ∧ v' = v + cs.countP vendorMember ∧
            a' = a + cs.countP applicationMember ∧
            ∀ c ∈ cs, c.isIETF = true → c.code ∈ memberCodes → c.unsigned32?.isSome = true := by
        intro v1 a1 hrest hv ha hchild
        obtain ⟨cs, rfl, hv', ha', hcs⟩ := ih hrest
        refine ⟨child :: cs, rfl, ?_, ?_, ?_⟩
        · rw [hv', hv]
          simp only [List.countP_cons, List.countP_nil]
          omega
        · rw [ha', ha]
          simp only [List.countP_cons, List.countP_nil]
          omega
        · intro c hc
          rcases List.mem_cons.1 hc with rfl | hc
          · exact hchild
          · exact hcs c hc
      by_cases hietf : child.isIETF = true
      · rw [if_neg (by simp [hietf])] at h
        by_cases hcode : child.code = vendorIDCode ∨ child.code = authApplicationIDCode ∨
            child.code = acctApplicationIDCode
        · rw [if_pos hcode] at h
          by_cases hvalue : child.unsigned32?.isNone = true
          · rw [if_pos hvalue] at h
            cases h
          rw [if_neg hvalue] at h
          have hsome : child.unsigned32?.isSome = true := by
            cases hu : child.unsigned32? <;> simp [hu] at hvalue ⊢
          by_cases hvendor : child.code = vendorIDCode
          · rw [if_pos hvendor] at h
            refine hskip h ?_ ?_ fun _ _ => hsome
            · simp [vendorMember, hietf, hvendor]
            have hne : vendorIDCode ≠ authApplicationIDCode ∧
                vendorIDCode ≠ acctApplicationIDCode := by decide
            simp [applicationMember, hvendor, hne]
          · rw [if_neg hvendor] at h
            refine hskip h ?_ ?_ fun _ _ => hsome
            · simp [vendorMember, hvendor]
            · simp [applicationMember, hietf, hcode.resolve_left hvendor]
        · rw [if_neg hcode] at h
          simp only [not_or] at hcode
          refine hskip h ?_ ?_ fun _ hmem => ?_
          · simp [vendorMember, hcode]
          · simp [applicationMember, hcode]
          · simp [memberCodes, hcode] at hmem
      · rw [if_pos (by simpa using hietf)] at h
        refine hskip h ?_ ?_ fun h => absurd h hietf
        · simp [vendorMember, hietf]
        · simp [applicationMember, hietf]

def vendorApplicationRules : List Rule :=
  [one "Vendor-Id", atMostOne "Auth-Application-Id", atMostOne "Acct-Application-Id"]

theorem vendorApplicationRules_baseAVPs : baseAVPs.all (fun d =>
    d.code != vendorSpecificApplicationIDCode ||
      d.data.type == .grouped && d.data.rule == vendorApplicationRules) = true := by
  decide +kernel

theorem vendorApplicationRules_summary :
    summarises vendorApplicationRules [vendorIDCode] memberCodes = true := by
  decide +kernel

theorem memberCodes_listed : memberCodes.all (fun c =>
    (vendorApplicationRules.filterMap resolve).any (fun e => e.key = ⟨c, 0⟩) &&
      baseAVPs.any fun d => d.code == c && d.vendorID == 0) = true := by
  decide +kernel

theorem memberCodes_types : memberCodes.all (fun c =>
    capabilityTypes.contains (c, .unsigned32) && c != failedAVPCode && c != supportedVendorIDCode) =
      true := by
  decide

theorem known_of_memberCodes (hvendor : c.vendorID = 0) (hcode : c.code ∈ memberCodes) :
    c.isKnown grammarDictionary 0 = true := by
  have hlisted := List.all_eq_true.1 memberCodes_listed _ hcode
  simp only [Bool.and_eq_true, List.any_eq_true, beq_iff_eq] at hlisted
  obtain ⟨-, d, hd, hdcode, hdvendor⟩ := hlisted
  rw [AVP.isKnown, avp_iff.2 ⟨hd, hdcode, hdvendor.trans hvendor.symm⟩]
  rfl

theorem vendorID_of_isIETF (h : c.isIETF = true) :
    c.vendorID = 0 ∧ c.flags &&& vbit = 0 := by
  simpa [AVP.isIETF] using h

theorem occurrences_members {k : UInt32} (hk : k ∈ memberCodes)
    (honly : ∀ c ∈ cs, c.isKnown grammarDictionary 0 = true →
      c.isIETF = true ∧ c.code ∈ memberCodes) :
    occurrences cs ⟨k, 0⟩ = cs.countP fun c => c.isIETF && c.code == k := by
  refine List.countP_congr fun c hc => ?_
  simp only [AVP.key, beq_iff_eq, ValidationKey.mk.injEq, Bool.and_eq_true]
  constructor
  · rintro ⟨hcode, hvendor⟩
    exact ⟨(honly c hc (known_of_memberCodes hvendor (hcode ▸ hk))).1, hcode⟩
  · rintro ⟨hietf, hcode⟩
    exact ⟨hcode, (vendorID_of_isIETF hietf).1⟩

theorem countP_applicationMember (cs : List AVP) : cs.countP applicationMember =
    (cs.countP fun c => c.isIETF && c.code == authApplicationIDCode) +
      cs.countP fun c => c.isIETF && c.code == acctApplicationIDCode := by
  induction cs with
  | nil => rfl
  | cons c cs ih =>
    simp only [List.countP_cons, ih, applicationMember]
    have hne : authApplicationIDCode ≠ acctApplicationIDCode := by decide
    by_cases hietf : c.isIETF = true
    · by_cases hauth : c.code = authApplicationIDCode
      · simp [hietf, hauth, hne]
        omega
      · by_cases hacct : c.code = acctApplicationIDCode <;> simp [hietf, hacct, hauth, hne.symm]
        omega
    · simp [hietf]

theorem failedAVP_isSome : (grammarDictionary.avp 0 failedAVPCode 0).isSome = true := by
  have hany : baseAVPs.any (fun d => d.code == failedAVPCode && d.vendorID == 0) = true := by
    decide +kernel
  obtain ⟨d, hd, hkey⟩ := List.any_eq_true.1 hany
  rw [avp_iff.2 ⟨hd, by simpa using hkey⟩]
  rfl

theorem conforms_vendorApplication (hvendors : cs.countP vendorMember = 1)
    (happs : cs.countP applicationMember = 1)
    (honly : ∀ c ∈ cs, c.isKnown grammarDictionary 0 = true →
      c.isIETF = true ∧ c.code ∈ memberCodes) :
    Conforms grammarDictionary 0 vendorApplicationRules ((cs.map some).map Item.plain) := by
  have hknown : ∀ c ∈ cs, ∀ d, grammarDictionary.avp 0 c.code c.vendorID = some d →
      c.isIETF = true ∧ c.code ∈ memberCodes := fun c hc d hd =>
    honly c hc (by rw [AVP.isKnown, hd]; rfl)
  have hitem : ∀ i ∈ (cs.map some).map Item.plain, ∀ c, i.avp = some c → c ∈ cs := by
    intro i hi c hc
    simp only [List.map_map, List.mem_map, Function.comp_apply] at hi
    obtain ⟨c', hc', rfl⟩ := hi
    cases hc
    exact hc'
  have hnoRules : ∀ c ∈ cs, ∀ d, groupRules grammarDictionary 0 c ≠ some d := by
    intro c hc d hd
    obtain ⟨havp, hgroup⟩ := avp_of_groupRules hd
    have htype := List.all_eq_true.1 memberCodes_types _ (hknown c hc d havp).2
    simp only [Bool.and_eq_true, List.contains_iff_mem] at htype
    rw [type_of_avp htype.1.1 havp] at hgroup
    cases hgroup
  refine @Conforms.mk _ _ _ _ cs ?_ ?_ ?_ ?_ ?_ ?_
  · simp [Item.plain]
  · have hauth := countP_applicationMember cs
    refine sequence_of_counts vendorApplicationRules_summary ?_ ?_ ?_
    · intro c hc hk
      obtain ⟨hietf, hcode⟩ := honly c hc hk
      have hlisted := List.all_eq_true.1 memberCodes_listed _ hcode
      refine .inl ?_
      rw [AVP.isListed, grammarOf_eq, AVP.key, (vendorID_of_isIETF hietf).1]
      exact (Bool.and_eq_true_iff.1 hlisted).1
    · intro k hk
      rw [List.mem_singleton.1 hk, occurrences_members (by decide) honly]
      exact Nat.le_of_eq hvendors.symm
    · intro k hk
      rw [occurrences_members hk honly]
      simp only [memberCodes, List.mem_cons, List.not_mem_nil, or_false] at hk
      rcases hk with rfl | rfl | rfl
      · exact Nat.le_of_eq hvendors
      · omega
      · omega
  · intro i hi c d hc _ hd
    have hmem := hitem i hi c hc
    rw [(vendorID_of_isIETF (hknown c hmem d hd).1).2, vendorID_of_avp hd]
    exact ⟨fun h => absurd rfl h, fun h => absurd rfl h⟩
  · intro i hi c hc _ _ hfailed
    obtain ⟨hcode, hvendor⟩ : c.code = failedAVPCode ∧ c.vendorID = 0 := by
      simpa [AVP.isFailedAVP] using hfailed
    obtain ⟨d, hd⟩ := Option.isSome_iff_exists.1 failedAVP_isSome
    have havp : grammarDictionary.avp 0 c.code c.vendorID = some d := by
      rw [hcode, hvendor]
      exact hd
    have htype := List.all_eq_true.1 memberCodes_types _ (hknown c (hitem i hi c hc) d havp).2
    simp [hcode] at htype
  · intro i hi c d hc _ _ hrules
    exact absurd hrules (hnoRules c (hitem i hi c hc) d)
  · intro i hi c d hc _ _ hrules
    exact absurd hrules (hnoRules c (hitem i hi c hc) d)

theorem isApplicationChoice_iff (honly : c.isKnown grammarDictionary 0 = true →
    c.isIETF = true ∧ c.code ∈ memberCodes) :
    c.isApplicationChoice = true ↔ applicationMember c = true := by
  simp only [AVP.isApplicationChoice, applicationMember, Bool.and_eq_true, Bool.or_eq_true,
    beq_iff_eq]
  refine and_congr_left fun hcode => ⟨fun hvendor => ?_, fun hietf => (vendorID_of_isIETF hietf).1⟩
  exact (honly (known_of_memberCodes hvendor (by simp [memberCodes, hcode]))).1

theorem types_of_member (honly : c.isKnown grammarDictionary 0 = true →
    c.isIETF = true ∧ c.code ∈ memberCodes)
    (hvalue : c.isIETF = true → c.code ∈ memberCodes → c.unsigned32?.isSome = true) :
    c.validateTypes grammarDictionary = none := by
  by_cases hknown : c.isKnown grammarDictionary 0 = true
  · obtain ⟨hietf, hcode⟩ := honly hknown
    have hall := List.all_eq_true.1 memberCodes_types _ hcode
    simp only [Bool.and_eq_true, bne_iff_ne, ne_eq, List.contains_iff_mem] at hall
    obtain ⟨n, hn⟩ := Option.isSome_iff_exists.1 (hvalue hietf hcode)
    have hdata := data_of_unsigned32? hn
    exact types_of_goodValue hdata hall.1.1 rfl (by simp [zeroVendor, hall.2])
  · refine avpTypes_eq_none.2 fun d hd _ => absurd ?_ hknown
    rw [AVP.isKnown, hd]
    rfl

theorem rules_of_vendorApplication (hcode : a.code = vendorSpecificApplicationIDCode)
    (hd : grammarDictionary.avp 0 a.code a.vendorID = some d) :
    d.data.type = .grouped ∧ d.data.rule = vendorApplicationRules := by
  obtain ⟨hmem, hdcode, -⟩ := avp_iff.1 hd
  have hall := List.all_eq_true.1 vendorApplicationRules_baseAVPs d hmem
  simpa [hdcode, hcode] using hall

theorem sound_members (hcode : a.code = vendorSpecificApplicationIDCode)
    (hvbit : a.flags &&& vbit = 0) (hdata : a.data = .group (cs.map some))
    (hvendors : cs.countP vendorMember = 1) (happs : cs.countP applicationMember = 1)
    (hvalues : ∀ c ∈ cs, c.isIETF = true → c.code ∈ memberCodes → c.unsigned32?.isSome = true)
    (honly : ∀ c ∈ cs, c.isKnown grammarDictionary 0 = true →
      c.isIETF = true ∧ c.code ∈ memberCodes) : Sound a := by
  have hmembers : a.members = cs.map some := by rw [AVP.members, hdata]
  exact {
    vbit := hvbit
    notFailed := by
      rw [AVP.isFailedAVP, hcode]
      rfl
    notDestination := by
      rw [AVP.isDestination, hcode, Bool.and_eq_false_iff]
      exact .inr rfl
    members := fun d hd => by
      rw [hmembers, (rules_of_vendorApplication hcode (avp_of_groupRules hd).1).2]
      exact conforms_vendorApplication hvendors happs honly
    choice := fun d hd _ => by
      rw [applicationChoices, hmembers, ← List.countP_eq_length_filter, ← happs]
      simp only [List.filterMap_map, Function.comp_def, id_eq, List.filterMap_some]
      exact List.countP_congr fun c hc => isApplicationChoice_iff (honly c hc)
    types := by
      refine avpTypes_eq_none.2 fun d hd _ => ⟨?_, ?_⟩
      · exact dataError_group hdata (rules_of_vendorApplication hcode hd).1
      intro c hc
      rw [hmembers] at hc
      obtain ⟨c', hc', hcc⟩ := List.mem_map.1 hc
      obtain rfl : c' = c := Option.some.inj hcc
      exact types_of_member (honly c' hc') (hvalues c' hc') }

theorem sound_vendorApplication {i : Nat} (h : checkVendorApplication i (some a) = none)
    (honly : onlyMembers a) : a.code = vendorSpecificApplicationIDCode ∧ Sound a := by
  unfold checkVendorApplication at h
  dsimp only at h
  split at h
  next ms hdata =>
    split at h
    · cases h
    rename_i hhead
    simp only [Bool.or_eq_true, bne_iff_ne, ne_eq, Bool.not_eq_true', not_or, not_not,
      Bool.not_eq_false] at hhead
    obtain ⟨hcode, hietf⟩ := hhead
    obtain ⟨hvendorID, hvbit⟩ := vendorID_of_isIETF hietf
    split at h
    · cases h
    next hcount =>
      obtain ⟨cs, hcs, hvendors, happs, hvalues⟩ := countMembers_ok hcount
      have hmembers : a.members = cs.map some := by rw [AVP.members, hdata, hcs]
      refine ⟨hcode, sound_members hcode hvbit (by rw [hdata, hcs]) (by omega) (by omega) hvalues
        fun c hc => honly c ?_⟩
      rw [hmembers]
      exact List.mem_map_of_mem hc
    · cases h
  · cases h

/-! ## Messages -/

theorem conforms_of_sound (hsound : ∀ a ∈ as, Sound a)
    (hsequence : Sequence grammarDictionary 0 rules as) :
    Conforms grammarDictionary 0 rules ((as.map some).map Item.plain) := by
  have hitem : ∀ i ∈ (as.map some).map Item.plain, ∀ a, i.avp = some a → Sound a := by
    intro i hi a ha
    simp only [List.map_map, List.mem_map, Function.comp_apply] at hi
    obtain ⟨b, hb, rfl⟩ := hi
    cases ha
    exact hsound _ hb
  refine @Conforms.mk _ _ _ _ as ?_ hsequence ?_ ?_ ?_ ?_
  · simp [Item.plain]
  · intro i hi a d ha _ hd
    rw [(hitem i hi a ha).vbit, vendorID_of_avp hd]
    exact ⟨fun h => absurd rfl h, fun h => absurd rfl h⟩
  · intro i hi a ha _ _ hfailed
    rw [(hitem i hi a ha).notFailed] at hfailed
    cases hfailed
  · intro i hi a d ha _ _ hrules _
    exact (hitem i hi a ha).members d hrules
  · intro i hi a d ha _ _ hrules _ hvendor
    exact (hitem i hi a ha).choice d hrules hvendor

theorem types_of_sound (hsound : ∀ a ∈ as, Sound a) :
    Diameter.validateTypes grammarDictionary (as.map some) = none := by
  refine validateTypes_eq_none.2 fun a ha => ?_
  obtain ⟨b, hb, hba⟩ := List.mem_map.1 ha
  cases hba
  exact (hsound _ hb).types

theorem validateAVPs_of_sound (hrules : distinctRules rules = true)
    (hsound : ∀ a ∈ as, Sound a) (hsequence : Sequence grammarDictionary 0 rules as) :
    validateAVPs ((as.map some).map Item.plain) rules 0 grammarDictionary = .ok () := by
  refine (validateAVPs_iff (unambiguous_of_distinctRules hrules) ?_ _).2
    (conforms_of_sound hsound hsequence)
  exact fun code vendor d hd _ => unambiguous_members hd

theorem checkDestination_of_sound {h : Header} (hsound : ∀ a ∈ as, Sound a) :
    checkDestination h (as.map some) = .ok () := by
  have hnone : ((as.map some).filterMap id).find? AVP.isDestination = none := by
    rw [List.find?_eq_none]
    intro a ha
    simp only [List.filterMap_map, Function.comp_def, id_eq, List.filterMap_some] at ha
    simp [(hsound a ha).notDestination]
  unfold checkDestination
  rw [hnone]
  cases h.isRequest <;> rfl

/-- A capabilities message with the flags and the application of the base protocol. -/
structure CapabilitiesHeader (h : Header) (request : Bool) : Prop where
  commandCode : h.commandCode = BaseCommand.capabilitiesExchange.code
  applicationID : h.applicationID = 0
  commandFlags : h.commandFlags = if request then requestFlag else 0

/-- The grammar of the direction. -/
def capabilityRules (request : Bool) : List Rule :=
  if request then capabilitiesExchange.request.rule else capabilitiesExchange.answer.rule

theorem capabilityRules_distinct (request : Bool) :
    distinctRules (capabilityRules request) = true := by
  cases request <;> decide +kernel

theorem baseApp_grammarDictionary : baseApp ∈ grammarDictionary.apps := by
  unfold Snapshot.apps
  rw [grammarDictionary_files]
  exact List.mem_flatMap.2 ⟨parsedFile, List.mem_singleton_self _, List.mem_cons_self⟩

theorem findCommand_capabilitiesExchange :
    grammarDictionary.findCommand 0 BaseCommand.capabilitiesExchange.code =
      .ok capabilitiesExchange := by
  have hmem : capabilitiesExchange ∈ commands := by
    unfold commands
    exact List.mem_cons_self
  have hcode : BaseCommand.capabilitiesExchange.code = capabilitiesExchange.code := rfl
  rw [hcode]
  exact findCommand_eq grammarDictionary_published baseApp_grammarDictionary hmem

theorem validateMessage_of_sound {m : Message} {request : Bool}
    (hheader : CapabilitiesHeader m.header request) (havps : m.avps = as.map some)
    (hsound : ∀ a ∈ as, Sound a)
    (hsequence : Sequence grammarDictionary 0 (capabilityRules request) as)
    (hresult : request = false → firstResultCode m.avps = some successCode) :
    validateMessage m = none := by
  obtain ⟨hcode, happ, hflags⟩ := hheader
  have hcommand : m.header.isCommand = true := by simp [Header.isCommand, BaseCommand.all, hcode]
  have hrequest : m.header.isRequest = request := by
    rw [Header.isRequest, hflags]
    cases request <;> rfl
  have herror : m.header.isError = false := by
    rw [Header.isError, hflags]
    cases request <;> rfl
  have hitems : m.echoItems false = (as.map some).map Item.plain := by
    rw [← havps]
    simp [Message.echoItems, Message.avps, Item.plain, Function.comp_def]
  refine (validateMessage_iff hcommand).2 ⟨?_, ?_, ?_, ?_⟩
  · unfold validateHeader
    rw [hcommand, happ, hflags]
    cases request <;> rfl
  · refine validateWith_ok.2 ⟨?_, ?_, ?_, ?_⟩
    · rw [Header.invalidFlags, hrequest, herror, hflags]
      cases request <;> rfl
    · rw [havps]
      exact checkDestination_of_sound hsound
    · intro h
      cases h
    · rw [herror, if_neg (by decide), hitems]
      unfold validateCommand
      rw [happ, hcode, findCommand_capabilitiesExchange, hrequest, hflags]
      have hvalid := validateAVPs_of_sound (capabilityRules_distinct request) hsound hsequence
      cases request with
      | true => exact hvalid
      | false =>
        have hitemAVPs : ((as.map some).map Item.plain).map Item.avp = m.avps := by
          rw [havps]
          simp [Item.plain]
        have hsuccess : errorAnswer m.avps = false := by
          rw [errorAnswer, hresult rfl]
          rfl
        dsimp only
        rw [hitemAVPs, hsuccess]
        exact hvalid
  · intro hanswer _
    rw [hresult (hrequest.symm.trans hanswer)]
    rfl
  · rw [havps]
    exact types_of_sound hsound

end Diameter.Base
