import Diameter.Base.Sound

/-!
# Base.Acceptable

A node accepts its own capabilities messages: what `BuildCER` and `BuildCEA` make of checked
settings passes `ValidateMessage` (`capabilities_acceptable`).

The check of the settings is not enough on its own. It accepts a Supported-Vendor-Id of zero,
a Product-Name that is not UTF-8, and groups with further members of the base protocol, which the
validator refuses (`Acceptable`, `not_capabilities_acceptable`).
-/

namespace Diameter.Base

open Lib Datatype Dict

variable {a : AVP} {drawn : Drawn} {m : Message} {cfg : Settings} {s : Snapshot} {code : UInt32}
variable {values : Option (List (Option AVP))} {c : UInt32}

/-! ## Settings -/

/-- Settings that pass the check, with an identity and addresses. -/
structure Checked (cfg : Settings) : Prop where
  capabilities : validateCapabilities cfg = none
  originHost : validIdentity cfg.originHost = true
  originRealm : validIdentity cfg.originRealm = true
  addresses : cfg.hostIPAddresses ≠ []
  valid : ∀ a ∈ cfg.hostIPAddresses, a.valid = .ok ()

/-- What the validator asks for besides. -/
structure Acceptable (cfg : Settings) : Prop extends Checked cfg where
  productName : utf8Valid cfg.productName = true
  supportedVendors : ∀ a ∈ configured cfg.supportedVendorID, a.unsigned32? ≠ some 0
  members : ∀ a ∈ configured cfg.vendorSpecificApplicationID, onlyMembers a

theorem checkList_eq_none {check : Nat → Option AVP → Option String}
    (h : checkList check values = none)
    (ha : a ∈ configured values) : ∃ i, check i (some a) = none := by
  unfold configured at ha
  obtain ⟨o, ho, hoa⟩ := List.mem_filterMap.1 ha
  have hsome : o = some a := hoa
  subst hsome
  obtain ⟨i, hi⟩ := List.mem_iff_getElem?.1 ho
  refine ⟨i, List.findSome?_eq_none_iff.1 h (some a, i) ?_⟩
  exact List.mem_zipIdx_iff_getElem?.2 hi

theorem checkApplicationAVP_eq_none {name : String} {i : Nat}
    (h : checkApplicationAVP name code i (some a) = none) :
    a.code = code ∧ a.isIETF = true ∧ a.unsigned32?.isSome = true := by
  unfold checkApplicationAVP at h
  dsimp only at h
  split at h
  · cases h
  rename_i hok
  simp only [Bool.or_eq_true, not_or, bne_iff_ne, ne_eq, not_not, Bool.not_eq_true',
    Bool.not_eq_false] at hok
  refine ⟨hok.1.2, hok.2, ?_⟩
  cases hu : a.unsigned32? <;> simp [hu] at hok ⊢

theorem validateCapabilities_eq_none (h : validateCapabilities cfg = none) :
    (checkList (checkApplicationAVP "Auth-Application-Id" authApplicationIDCode)
        cfg.authApplicationID = none ∧
      checkList (checkApplicationAVP "Acct-Application-Id" acctApplicationIDCode)
        cfg.acctApplicationID = none) ∧
      checkList (checkApplicationAVP "Supported-Vendor-Id" supportedVendorIDCode)
        cfg.supportedVendorID = none ∧
      checkList checkVendorApplication cfg.vendorSpecificApplicationID = none := by
  unfold validateCapabilities at h
  simp only [Option.map_eq_none_iff, Option.or_eq_none_iff] at h
  exact ⟨⟨h.1, h.2.1⟩, h.2.2.1, h.2.2.2.1⟩

/-! ## The AVPs of a builder -/

theorem newAVP_vbit : ∀ flags : UInt8, (flags &&& ~~~vbit) &&& vbit = 0 := by
  decide +kernel

theorem sound_newAVP {flags : UInt8} {v : Value} (t : TypeID) (htype : (code, t) ∈ capabilityTypes)
    (ht : v.typeID = t) (hv : goodValue v = true)
    (hzero : code = supportedVendorIDCode → v ≠ .unsigned32 0) :
    Sound (newAVP code flags 0 (.value v)) := by
  subst ht
  have hdata : (newAVP code flags 0 (.value v)).data = .value v := rfl
  refine sound_value hdata (newAVP_vbit flags) htype hv ?_
  cases hz : zeroVendor (newAVP code flags 0 (.value v)) with
  | false => rfl
  | true =>
    simp only [zeroVendor, Bool.and_eq_true, beq_iff_eq] at hz
    have hvalue := data_of_unsigned32? hz.2
    rw [hdata] at hvalue
    cases hvalue
    exact absurd rfl (hzero hz.1.1)

theorem sound_configured {name : String}
    (h : checkList (checkApplicationAVP name code) values = none)
    (htype : (code, .unsigned32) ∈ capabilityTypes)
    (hzero : code = supportedVendorIDCode → ∀ a ∈ configured values, a.unsigned32? ≠ some 0) :
    ∀ a ∈ configured values, a.code = code ∧ Sound a := by
  intro a ha
  obtain ⟨i, hi⟩ := checkList_eq_none h ha
  obtain ⟨rfl, hietf, hvalue⟩ := checkApplicationAVP_eq_none hi
  obtain ⟨n, hn⟩ := Option.isSome_iff_exists.1 hvalue
  refine ⟨rfl, @sound_value _ (.unsigned32 n) (data_of_unsigned32? hn) (vendorID_of_isIETF hietf).2
    htype rfl ?_⟩
  cases hz : zeroVendor a with
  | false => rfl
  | true =>
    simp only [zeroVendor, Bool.and_eq_true, beq_iff_eq] at hz
    exact absurd hz.2 (hzero hz.1.1 a ha)

theorem sound_optionalField {setting code value : UInt32} {flags : UInt8}
    (htype : (code, .unsigned32) ∈ capabilityTypes) (hcode : code ≠ supportedVendorIDCode) :
    ∀ f ∈ optionalField setting ⟨code, flags, .unsigned32 value⟩, f.code = code ∧ Sound f.avp := by
  intro f hf
  unfold optionalField at hf
  split at hf
  · rw [List.mem_singleton.1 hf]
    exact ⟨rfl, sound_newAVP .unsigned32 htype rfl rfl fun h => absurd h hcode⟩
  · cases hf

theorem sound_localFields (h : Acceptable cfg) :
    ∀ f ∈ localFields cfg cfg.hostIPAddresses, Sound f.avp := by
  intro f hf
  unfold localFields at hf
  simp only [List.mem_append, List.mem_cons, List.mem_map, List.not_mem_nil, or_false] at hf
  rcases hf with (((rfl | rfl) | ⟨a, ha, rfl⟩) | (rfl | rfl)) | hf
  · show Sound (newAVP originHostCode mbit 0 (.value (.diameterIdentity cfg.originHost)))
    exact sound_newAVP .diameterIdentity (by decide) rfl h.originHost fun _ => Value.noConfusion
  · show Sound (newAVP originRealmCode mbit 0 (.value (.diameterIdentity cfg.originRealm)))
    exact sound_newAVP .diameterIdentity (by decide) rfl h.originRealm fun _ => Value.noConfusion
  · have hgood : goodValue (.address a) = true := by
      rw [goodValue, h.valid a ha]
      rfl
    show Sound (newAVP hostIPAddressCode mbit 0 (.value (.address a)))
    exact sound_newAVP .address (by decide) rfl hgood fun _ => Value.noConfusion
  · show Sound (newAVP vendorIDCode mbit 0 (.value (.unsigned32 cfg.vendorID)))
    exact sound_newAVP .unsigned32 (by decide) rfl rfl fun h => absurd h (by decide)
  · show Sound (newAVP productNameCode 0 0 (.value (.utf8String cfg.productName)))
    exact sound_newAVP .utf8String (by decide) rfl h.productName fun _ => Value.noConfusion
  · exact (sound_optionalField (by decide) (by decide) f hf).2

theorem sound_supportedVendors (h : Acceptable cfg) (apps : List LocalApplication) :
    ∀ a ∈ supportedVendorAVPs cfg apps, a.code = supportedVendorIDCode ∧ Sound a := by
  intro a ha
  unfold supportedVendorAVPs at ha
  split at ha
  next values hvalues =>
    refine sound_configured (validateCapabilities_eq_none h.capabilities).2.1 (by decide)
      (fun _ => h.supportedVendors) a ?_
    rw [configured, hvalues]
    exact ha
  · obtain ⟨v, hv, rfl⟩ := List.mem_map.1 ha
    refine ⟨rfl, sound_newAVP .unsigned32 (by decide) rfl rfl fun _ hzero => ?_⟩
    cases hzero
    unfold inferredVendors at hv
    rw [List.mem_mergeSort, List.mem_dedup] at hv
    have hnonzero : (0 : UInt32) ∉ (apps.flatMap fun app =>
        app.vendor :: app.supportedVendors).filter (· ≠ 0) := by simp
    split at hv
    · exact hnonzero hv
    · exact hnonzero (List.mem_of_mem_filter hv)

/-- The codes an application is advertised with. -/
def applicationCodes : List UInt32 :=
  [authApplicationIDCode, acctApplicationIDCode, vendorSpecificApplicationIDCode]

theorem sound_applicationID (id : UInt32)
    (hcode : code ∈ [authApplicationIDCode, acctApplicationIDCode]) :
    Sound (unsigned32AVP code id) := by
  have htable : (code, .unsigned32) ∈ capabilityTypes ∧ code ≠ supportedVendorIDCode := by
    simp only [List.mem_cons, List.not_mem_nil, or_false] at hcode
    rcases hcode with rfl | rfl <;> decide
  exact sound_newAVP .unsigned32 htable.1 rfl rfl fun h => absurd h htable.2

theorem sound_group (vendor id : UInt32)
    (hcode : code ∈ [authApplicationIDCode, acctApplicationIDCode]) :
    Sound (newAVP vendorSpecificApplicationIDCode mbit 0
      (.group [some (unsigned32AVP vendorIDCode vendor), some (unsigned32AVP code id)])) := by
  have hietf : ∀ c v, (unsigned32AVP c v).isIETF = true := fun c v => by
    show (0 == 0 && (mbit &&& ~~~vbit) &&& vbit == 0) = true
    decide
  have hmember : code ≠ vendorIDCode ∧ code ∈ memberCodes ∧
      (code = authApplicationIDCode ∨ code = acctApplicationIDCode) := by
    simp only [List.mem_cons, List.not_mem_nil, or_false] at hcode
    rcases hcode with rfl | rfl <;> decide
  have hcodes : ∀ c v, (unsigned32AVP c v).code = c := fun c v => rfl
  have hvendor : vendorIDCode ≠ authApplicationIDCode ∧ vendorIDCode ≠ acctApplicationIDCode := by
    decide
  refine @sound_members _ [unsigned32AVP vendorIDCode vendor, unsigned32AVP code id] rfl
    (newAVP_vbit _) rfl ?_ ?_ ?_ ?_
  · simp [vendorMember, hietf, hcodes, hmember.1]
  · simp [applicationMember, hietf, hcodes, hmember.2.2, hvendor]
  · intro c hc _ _
    simp only [List.mem_cons, List.not_mem_nil, or_false] at hc
    rcases hc with rfl | rfl <;> rfl
  · intro c hc _
    simp only [List.mem_cons, List.not_mem_nil, or_false] at hc
    rcases hc with rfl | rfl
    · exact ⟨hietf _ _, List.mem_cons_self⟩
    · exact ⟨hietf _ _, hmember.2.1⟩

theorem sound_applicationAVP (app : LocalApplication) :
    (applicationAVP app).code ∈ applicationCodes ∧ Sound (applicationAVP app) := by
  have hcode : (if app.appType = "acct" then acctApplicationIDCode else authApplicationIDCode) ∈
      [authApplicationIDCode, acctApplicationIDCode] := by
    split <;> decide
  unfold applicationAVP
  dsimp only
  generalize (if app.appType = "acct" then acctApplicationIDCode else authApplicationIDCode) = code
    at hcode
  split
  · exact ⟨List.mem_of_getLast? rfl, sound_group app.vendor app.id hcode⟩
  · refine ⟨?_, sound_applicationID app.id hcode⟩
    exact List.mem_append_left [vendorSpecificApplicationIDCode] hcode

theorem sound_applications (h : Acceptable cfg) (apps : List LocalApplication) :
    ∀ a ∈ applicationAVPs cfg apps, a.code ∈ applicationCodes ∧ Sound a := by
  obtain ⟨⟨hauth, hacct⟩, -, hvendor⟩ := validateCapabilities_eq_none h.capabilities
  intro a ha
  unfold applicationAVPs at ha
  split at ha
  · rw [List.mem_append, List.mem_append] at ha
    rcases ha with (ha | ha) | ha
    · obtain ⟨hcode, hsound⟩ := sound_configured hauth (by decide)
        (fun h => absurd h (by decide)) a ha
      exact ⟨hcode ▸ List.mem_cons_self, hsound⟩
    · obtain ⟨hcode, hsound⟩ := sound_configured hacct (by decide)
        (fun h => absurd h (by decide)) a ha
      exact ⟨hcode ▸ List.mem_cons_of_mem _ List.mem_cons_self, hsound⟩
    · obtain ⟨i, hi⟩ := checkList_eq_none hvendor ha
      obtain ⟨hcode, hsound⟩ := sound_vendorApplication hi (h.members a ha)
      exact ⟨hcode ▸ List.mem_of_getLast? rfl, hsound⟩
  · obtain ⟨app, -, rfl⟩ := List.mem_map.1 ha
    exact sound_applicationAVP app

/-! ## Numbers -/

/-- The codes that may occur once. -/
def onceCodes : List UInt32 :=
  [resultCodeCode, originHostCode, originRealmCode, vendorIDCode, productNameCode,
   originStateIDCode, firmwareRevisionCode]

/-- The codes that must occur. -/
def requiredCodes : List UInt32 :=
  [originHostCode, originRealmCode, hostIPAddressCode, vendorIDCode, productNameCode]

/-- The answer's grammar also bounds Error-Message and Failed-AVP, which a success never has. -/
def boundedCodes : List UInt32 := onceCodes ++ [281, failedAVPCode]

theorem capabilityRules_summary :
    (summarises (capabilityRules true) requiredCodes boundedCodes &&
      summarises (capabilityRules false) (resultCodeCode :: requiredCodes) boundedCodes) = true := by
  decide +kernel

/-- The codes that may occur any number of times, none of them bounded. -/
def freeCodes : List UInt32 :=
  [hostIPAddressCode, supportedVendorIDCode, inbandSecurityIDCode, proxyInfoCode] ++ applicationCodes

theorem boundedCodes_free : boundedCodes.all (fun c => !freeCodes.contains c) = true := by
  decide

theorem count_free {as : List AVP} (h : ∀ a ∈ as, a.code ∈ freeCodes)
    (hc : c ∈ boundedCodes) : (as.map AVP.code).count c = 0 := by
  refine List.count_eq_zero.2 fun hmem => ?_
  obtain ⟨a, ha, rfl⟩ := List.mem_map.1 hmem
  have hfree := List.all_eq_true.1 boundedCodes_free _ hc
  simp only [Bool.not_eq_true', ← Bool.not_eq_true, List.contains_iff_mem] at hfree
  exact hfree (h a ha)

theorem optionalField_sublist (setting code : UInt32) (flags : UInt8) (v : Value) :
    (((optionalField setting ⟨code, flags, v⟩).map Field.avp).map AVP.code).Sublist [code] := by
  unfold optionalField
  split
  · exact List.Sublist.refl _
  · exact List.nil_sublist _

/-- The AVPs of a capabilities message: those it starts with, the local fields, and free ones. -/
theorem count_le_one {pre rest : List AVP} (hc : c ∈ boundedCodes)
    (hpre : (pre.map AVP.code).count c ≤ [resultCodeCode].count c)
    (hrest : (rest.map AVP.code).count c = 0) :
    ((pre ++ ((localFields cfg cfg.hostIPAddresses).map Field.avp ++
      (rest ++ (firmwareField cfg).map Field.avp))).map AVP.code).count c ≤ 1 := by
  have haddresses : (((cfg.hostIPAddresses.map fun a =>
      ({ code := hostIPAddressCode, value := .address a } : Field)).map Field.avp).map
        AVP.code).count c = 0 := by
    refine count_free (fun a ha => ?_) hc
    obtain ⟨f, hf, rfl⟩ := List.mem_map.1 ha
    obtain ⟨x, -, rfl⟩ := List.mem_map.1 hf
    exact List.mem_cons_self
  have hstate := (optionalField_sublist cfg.originStateID originStateIDCode mbit
    (.unsigned32 cfg.originStateID)).count_le c
  have hfirmware := (optionalField_sublist cfg.firmwareRevision firmwareRevisionCode 0
    (.unsigned32 cfg.firmwareRevision)).count_le c
  have honce : ([resultCodeCode] ++ [originHostCode, originRealmCode] ++
      [vendorIDCode, productNameCode] ++ [originStateIDCode] ++ [firmwareRevisionCode]).count c ≤ 1 :=
    List.nodup_iff_count_le_one.1 (by decide) c
  unfold localFields firmwareField originStateID
  simp only [List.map_append, List.count_append] at honce haddresses hrest hpre ⊢
  rw [haddresses, hrest]
  have hnames : (((([originHost cfg, originRealm cfg] : List Field).map Field.avp).map AVP.code)) =
    [originHostCode, originRealmCode] := rfl
  have hproduct : ((([{ code := vendorIDCode, value := .unsigned32 cfg.vendorID },
     { code := productNameCode, flags := 0, value := .utf8String cfg.productName }] :
      List Field).map Field.avp).map AVP.code) = [vendorIDCode, productNameCode] := rfl
  rw [hnames, hproduct]
  omega

theorem occurrences_le_count (as : List AVP) (c : UInt32) :
    occurrences as ⟨c, 0⟩ ≤ (as.map AVP.code).count c := by
  unfold occurrences
  rw [List.count, List.countP_map]
  refine List.countP_mono_left fun a _ h => ?_
  simp only [AVP.key, beq_iff_eq, ValidationKey.mk.injEq] at h
  simpa using h.1

theorem one_le_occurrences {as : List AVP} (ha : a ∈ as) (hkey : a.key = ⟨c, 0⟩) :
    1 ≤ occurrences as ⟨c, 0⟩ :=
  List.countP_pos_iff.2 ⟨a, ha, by simpa using hkey⟩

theorem required_localFields (h : Acceptable cfg) (hc : c ∈ requiredCodes) :
    ∃ f ∈ localFields cfg cfg.hostIPAddresses, f.avp.key = ⟨c, 0⟩ := by
  obtain ⟨x, hx⟩ := List.exists_mem_of_ne_nil _ h.addresses
  unfold localFields
  simp only [List.mem_append, List.mem_cons, List.mem_map, List.not_mem_nil, or_false]
  simp only [requiredCodes, List.mem_cons, List.not_mem_nil, or_false] at hc
  rcases hc with rfl | rfl | rfl | rfl | rfl
  · exact ⟨_, .inl (.inl (.inl (.inl rfl))), rfl⟩
  · exact ⟨_, .inl (.inl (.inl (.inr rfl))), rfl⟩
  · exact ⟨_, .inl (.inl (.inr ⟨x, hx, rfl⟩)), rfl⟩
  · exact ⟨_, .inl (.inr (.inl rfl)), rfl⟩
  · exact ⟨_, .inl (.inr (.inr rfl)), rfl⟩

theorem capabilityRules_wildcard (request : Bool) : ∃ w ∈ capabilityRules request, w.avp = "AVP" := by
  refine ⟨extensions, ?_, rfl⟩
  cases request <;> decide

/-! ## The two messages -/

theorem validateMessage_of_adds (h : Acceptable cfg) {m m' : Message}
    {pre extra : List AVP} {request : Bool} (hpre : m.avps = pre.map some)
    (hsound : ∀ a ∈ pre, Sound a) (hextra : ∀ a ∈ extra, a.code = inbandSecurityIDCode ∧ Sound a)
    (hcount : ∀ c ∈ boundedCodes, (pre.map AVP.code).count c ≤ [resultCodeCode].count c)
    (hresult : request = false → ∃ rest, pre = resultCodeAVP successCode :: rest)
    (hheader : CapabilitiesHeader m.header request)
    (hadds : Adds m ((localFields cfg cfg.hostIPAddresses).map Field.avp ++
      ((supportedVendorAVPs cfg (advertisedApplications cfg) ++ (extra ++
        applicationAVPs cfg (advertisedApplications cfg))) ++
        (firmwareField cfg).map Field.avp)) m') : validateMessage m' = none := by
  obtain ⟨hitems, hsame⟩ := hadds
  generalize hvendors : supportedVendorAVPs cfg (advertisedApplications cfg) = vendors at hitems
  generalize happs : applicationAVPs cfg (advertisedApplications cfg) = apps at hitems
  have hvendors' : ∀ a ∈ vendors, a.code = supportedVendorIDCode ∧ Sound a :=
    hvendors ▸ sound_supportedVendors h _
  have happs' : ∀ a ∈ apps, a.code ∈ applicationCodes ∧ Sound a := happs ▸ sound_applications h _
  have hfirmware : ∀ f ∈ firmwareField cfg, f.code = firmwareRevisionCode ∧ Sound f.avp :=
    sound_optionalField (by decide) (by decide)
  have havps : m'.avps = (pre ++ ((localFields cfg cfg.hostIPAddresses).map Field.avp ++
      ((vendors ++ (extra ++ apps)) ++ (firmwareField cfg).map Field.avp))).map some := by
    have hm : m'.avps = m.avps ++ ((localFields cfg cfg.hostIPAddresses).map Field.avp ++
        ((vendors ++ (extra ++ apps)) ++ (firmwareField cfg).map Field.avp)).map some := by
      unfold Message.avps
      rw [hitems, List.map_append, List.map_map]
      rfl
    rw [hm, hpre]
    exact List.map_append.symm
  have hfree : ∀ a ∈ vendors ++ (extra ++ apps), a.code ∈ freeCodes ∧ Sound a := by
    intro a ha
    rw [List.mem_append, List.mem_append] at ha
    rcases ha with ha | ha | ha
    · exact ⟨(hvendors' a ha).1 ▸ (by decide), (hvendors' a ha).2⟩
    · exact ⟨(hextra a ha).1 ▸ (by decide), (hextra a ha).2⟩
    · exact ⟨List.mem_append_right _ (happs' a ha).1, (happs' a ha).2⟩
  refine @validateMessage_of_sound _ _ request ?_ havps ?_ ?_ ?_
  · exact ⟨hsame.commandCode.trans hheader.commandCode,
      hsame.applicationID.trans hheader.applicationID,
      hsame.commandFlags.trans hheader.commandFlags⟩
  · intro a ha
    rw [List.mem_append, List.mem_append, List.mem_append] at ha
    rcases ha with ha | ha | ha | ha
    · exact hsound a ha
    · obtain ⟨f, hf, rfl⟩ := List.mem_map.1 ha
      exact sound_localFields h f hf
    · exact (hfree a ha).2
    · obtain ⟨f, hf, rfl⟩ := List.mem_map.1 ha
      exact (hfirmware f hf).2
  · have hlocal : ∀ c ∈ requiredCodes, 1 ≤ occurrences
        (pre ++ ((localFields cfg cfg.hostIPAddresses).map Field.avp ++
          ((vendors ++ (extra ++ apps)) ++ (firmwareField cfg).map Field.avp))) ⟨c, 0⟩ := by
      intro c hc
      obtain ⟨f, hf, hkey⟩ := required_localFields h hc
      refine one_le_occurrences ?_ hkey
      exact List.mem_append_right _ (List.mem_append_left _ (List.mem_map_of_mem hf))
    have hsingle : ∀ c ∈ boundedCodes, occurrences
        (pre ++ ((localFields cfg cfg.hostIPAddresses).map Field.avp ++
          ((vendors ++ (extra ++ apps)) ++ (firmwareField cfg).map Field.avp))) ⟨c, 0⟩ ≤ 1 := by
      intro c hc
      refine (occurrences_le_count _ c).trans (count_le_one hc (hcount c hc) ?_)
      exact count_free (fun a ha => (hfree a ha).1) hc
    obtain ⟨hrequest, hanswer⟩ := Bool.and_eq_true_iff.1 capabilityRules_summary
    have hlisted := capabilityRules_wildcard request
    cases request with
    | true => exact sequence_of_counts hrequest (fun _ _ _ => .inr hlisted) hlocal hsingle
    | false =>
      refine sequence_of_counts hanswer (fun _ _ _ => .inr hlisted) (fun c hc => ?_) hsingle
      rcases List.mem_cons.1 hc with rfl | hc
      · obtain ⟨rest, rfl⟩ := hresult rfl
        exact one_le_occurrences List.mem_cons_self rfl
      · exact hlocal c hc
  · intro hanswer
    obtain ⟨rest, rfl⟩ := hresult hanswer
    rw [havps]
    rfl

/-- A CER is not proxiable under a dictionary with the base application. -/
theorem proxiable_capabilitiesExchange (hs : Published s) (hbase : baseApp ∈ s.apps) :
    s.proxiable 0 BaseCommand.capabilitiesExchange.code = false := by
  have hcode : BaseCommand.capabilitiesExchange.code = capabilitiesExchange.code := rfl
  have hmem : capabilitiesExchange ∈ commands := List.mem_cons_self
  unfold Snapshot.proxiable
  rw [hcode, findCommand_eq hs hbase hmem]
  rfl

theorem validateMessage_buildCER (h : Acceptable cfg)
    (hproxiable : s.proxiable 0 BaseCommand.capabilitiesExchange.code = false)
    (hm : buildCER drawn s cfg = .ok m) : validateMessage m = none := by
  refine @validateMessage_of_adds cfg h
    (newRequest drawn BaseCommand.capabilitiesExchange.code 0 s) m []
    ((inbandField cfg).map Field.avp) true rfl (fun a ha => by cases ha) ?_
    (fun c _ => Nat.zero_le _) (fun h => by cases h) ⟨rfl, rfl, ?_⟩ ?_
  · intro a ha
    obtain ⟨f, hf, rfl⟩ := List.mem_map.1 ha
    exact sound_optionalField (by decide) (by decide) f hf
  · show (if s.proxiable 0 BaseCommand.capabilitiesExchange.code then
      requestFlag ||| proxiableFlag else requestFlag) = requestFlag
    rw [hproxiable]
    rfl
  · have hadds := buildCER_adds hm
    simp only [List.append_assoc]
    exact hadds

theorem validateAVPs_of_validateCommand {h : Header} {items : List Item} {cmd : Command} {b : Bool}
    (hcmd : s.findCommand h.applicationID h.commandCode = .ok cmd) (hrequest : h.isRequest = true)
    (hvalid : validateCommand h items s b = .ok ()) :
    validateAVPs items cmd.request.rule h.applicationID s = .ok () := by
  unfold validateCommand at hvalid
  rw [hcmd, hrequest] at hvalid
  simp only [if_true, Bool.not_true, Bool.and_false, Bool.false_and, Bool.false_eq_true,
    if_false] at hvalid
  split at hvalid
  · cases hvalid
  split at hvalid
  · cases hvalid
  · exact hvalid

theorem conforms_of_validateMessage
    (hcode : m.header.commandCode = BaseCommand.capabilitiesExchange.code)
    (hrequest : m.header.isRequest = true) (h : validateMessage m = none) :
    Conforms grammarDictionary 0 (capabilityRules true) (m.avps.map Item.plain) ∧
      Diameter.validateTypes grammarDictionary m.avps = none := by
  have hcommand : m.header.isCommand = true := by simp [Header.isCommand, BaseCommand.all, hcode]
  obtain ⟨hheader, hvalid, -, htypes⟩ := (validateMessage_iff hcommand).1 h
  refine ⟨?_, htypes⟩
  have happ : m.header.applicationID = 0 := by
    unfold validateHeader at hheader
    rw [hcommand] at hheader
    by_contra hne
    simp [hne] at hheader
  obtain ⟨hflags, -, -, hgrammar⟩ := validateWith_ok.1 hvalid
  have herror : m.header.isError = false := by
    rw [Header.invalidFlags, hrequest] at hflags
    simpa using hflags
  have hitems : m.echoItems false = m.avps.map Item.plain := by
    simp [Message.echoItems, Message.avps, Item.plain, Function.comp_def]
  rw [herror, if_neg (by decide), hitems] at hgrammar
  have hcommand' : grammarDictionary.findCommand m.header.applicationID m.header.commandCode =
      .ok capabilitiesExchange := by
    rw [happ, hcode]
    exact findCommand_capabilitiesExchange
  have hvalidAVPs := validateAVPs_of_validateCommand hcommand' hrequest hgrammar
  rw [happ] at hvalidAVPs
  refine (validateAVPs_iff (unambiguous_of_distinctRules (capabilityRules_distinct true)) ?_ _).1
    hvalidAVPs
  exact fun code vendor d hd _ => unambiguous_members hd

theorem proxyInfo_baseAVPs :
    baseAVPs.any (fun d => d.code == proxyInfoCode && d.vendorID == 0 && d.data.type == .grouped) =
      true := by
  decide +kernel

theorem sound_proxyInfo (hcode : m.header.commandCode = BaseCommand.capabilitiesExchange.code)
    (hrequest : m.header.isRequest = true) (h : validateMessage m = none) :
    ∀ a ∈ m.proxyInfos, a.code = proxyInfoCode ∧ Sound a := by
  intro a ha
  obtain ⟨hconforms, htypes⟩ := conforms_of_validateMessage hcode hrequest h
  obtain @⟨_, _, as, hnil, hsequence, hflags, hevidence, hmembers, hchoice⟩ := hconforms
  obtain ⟨hmem, hproxy⟩ := List.mem_filter.1 ha
  obtain ⟨o, ho, hoa⟩ := List.mem_filterMap.1 hmem
  have hsome : some a ∈ m.avps := (show o = some a from hoa) ▸ ho
  have hitem : Item.plain (some a) ∈ m.avps.map Item.plain := List.mem_map_of_mem hsome
  obtain ⟨hacode, havendor⟩ : a.code = proxyInfoCode ∧ a.vendorID = 0 := by
    simpa [AVP.isProxyInfo] using hproxy
  obtain ⟨d, hd, hdkey⟩ := List.any_eq_true.1 proxyInfo_baseAVPs
  simp only [Bool.and_eq_true, beq_iff_eq] at hdkey
  obtain ⟨⟨hdcode, hdvendor⟩, hdtype⟩ := hdkey
  have havp : grammarDictionary.avp 0 a.code a.vendorID = some d :=
    avp_iff.2 ⟨hd, hdcode.trans hacode.symm, hdvendor.trans havendor.symm⟩
  have hfailed : a.isFailedAVP = false := by
    rw [AVP.isFailedAVP, hacode]
    rfl
  have hatypes := validateTypes_eq_none.1 htypes a hsome
  obtain ⟨-, hmistyped, -, -⟩ := dataError_eq_none.1 (avpTypes_eq_none.1 hatypes d havp hfailed).1
  have hgroup : a.isGroup = true := by
    unfold mistyped at hmistyped
    rw [hdtype] at hmistyped
    cases hdata : a.data <;> simp [hdata] at hmistyped
    simp [AVP.isGroup, hdata]
  refine ⟨hacode, ?_, hfailed, ?_, ?_, ?_, hatypes⟩
  · have hiff := hflags _ hitem a d rfl (plain_isEchoedProxy _) havp
    by_contra hne
    exact hiff.1 hne hdvendor
  · rw [AVP.isDestination, hacode, Bool.and_eq_false_iff]
    exact .inr rfl
  · exact fun d' hd' => hmembers _ hitem a d' rfl (plain_isEchoedProxy _) hfailed hd' hgroup
  · exact fun d' hd' => hchoice _ hitem a d' rfl (plain_isEchoedProxy _) hfailed hd' hgroup

theorem validateMessage_buildCEA (h : Acceptable cfg) {request : Message}
    (hcode : request.header.commandCode = BaseCommand.capabilitiesExchange.code)
    (hrequest : request.header.isRequest = true) (hvalid : validateMessage request = none)
    (hm : buildCEA drawn request cfg successCode = .ok m) : validateMessage m = none := by
  have hproxies : ∀ a ∈ request.proxyInfos.map AVP.echo, a.code = proxyInfoCode ∧ Sound a := by
    intro a ha
    obtain ⟨b, hb, rfl⟩ := List.mem_map.1 ha
    obtain ⟨hbcode, hbsound⟩ := sound_proxyInfo hcode hrequest hvalid b hb
    exact ⟨(reshapes_echo.code b).trans hbcode, hbsound.echo⟩
  refine @validateMessage_of_adds cfg h (baseAnswer drawn request successCode) m
    (resultCodeAVP successCode :: request.proxyInfos.map AVP.echo) [] false ?_ ?_
    (fun a ha => by cases ha) ?_ (fun _ => ⟨_, rfl⟩) ⟨?_, rfl, rfl⟩ ?_
  · have hitems : (baseAnswer drawn request successCode).items =
        (request.answer drawn successCode).items := rfl
    unfold Message.avps
    rw [hitems, Message.answer_items, if_pos (by decide), List.map_append, List.map_map,
      List.map_cons, List.map_cons, List.map_map]
    rfl
  · intro a ha
    rcases List.mem_cons.1 ha with rfl | ha
    · exact sound_newAVP .unsigned32 (by decide) rfl rfl fun h => absurd h (by decide)
    · exact (hproxies a ha).2
  · intro c hc
    have hfree := count_free (fun a ha => (hproxies a ha).1 ▸ (by decide)) hc
    rw [List.map_cons, ← List.singleton_append, List.count_append, hfree]
    exact Nat.le_refl _
  · exact (request.answer_answers drawn successCode).commandCode.trans hcode
  · have hadds := buildCEA_adds hm
    simp only [List.append_assoc, List.nil_append]
    exact hadds

/-- A node accepts its own capabilities: the CER it sends, and the success CEA it answers a valid
CER with, under every dictionary that holds the base application. -/
theorem capabilities_acceptable {cfg : Settings} (h : Acceptable cfg) {s : Snapshot}
    (hs : Published s) (hbase : baseApp ∈ s.apps) (drawn : Drawn) :
    (∃ m, buildCER drawn s cfg = .ok m ∧ validateMessage m = none) ∧
    ∀ request : Message,
      request.header.commandCode = BaseCommand.capabilitiesExchange.code →
      request.header.isRequest = true → validateMessage request = none →
      ∃ m, buildCEA drawn request cfg successCode = .ok m ∧ validateMessage m = none := by
  refine ⟨?_, fun request hcode hrequest hvalid => ?_⟩
  · obtain ⟨m, hm⟩ := buildCER_isOk h.addresses h.valid drawn s
    exact ⟨m, hm, validateMessage_buildCER h (proxiable_capabilitiesExchange hs hbase) hm⟩
  · obtain ⟨m, hm⟩ := buildCEA_isOk h.addresses h.valid drawn request
    exact ⟨m, hm, validateMessage_buildCEA h hcode hrequest hvalid hm⟩

/-! ## Settings that pass the check -/

/-- A node with one address and nothing configured. -/
def plainSettings : Settings where
  originHost := [0x61]
  originRealm := [0x61]
  vendorID := 10415
  productName := [0x67]
  hostIPAddresses := [⟨1, [127, 0, 0, 1]⟩]

def vendorApplicationAVP (members : List AVP) : AVP :=
  newAVP vendorSpecificApplicationIDCode mbit 0 (.group ([unsigned32AVP vendorIDCode 10415,
    unsigned32AVP authApplicationIDCode 16777251].map some ++ members.map some))

/-- The same with a vendor and an application configured. -/
def configuredSettings (vendor : UInt32) (members : List AVP) : Settings :=
  { plainSettings with
    supportedVendorID := some [some (unsigned32AVP supportedVendorIDCode vendor)]
    vendorSpecificApplicationID := some [some (vendorApplicationAVP members)] }

theorem configuredSettings_acceptable : Acceptable (configuredSettings 10415 []) where
  capabilities := rfl
  originHost := by decide
  originRealm := by decide
  addresses := by decide
  valid := by decide
  productName := by decide
  supportedVendors := by
    intro a ha
    rw [List.mem_singleton.1 (show a ∈ [unsigned32AVP supportedVendorIDCode 10415] from ha)]
    decide
  members := by
    intro a ha c hc _
    rw [List.mem_singleton.1 (show a ∈ [vendorApplicationAVP []] from ha)] at hc
    have hc' : c ∈ [unsigned32AVP vendorIDCode 10415, unsigned32AVP authApplicationIDCode 16777251] :=
      by simpa [vendorApplicationAVP, AVP.members, newAVP, newAVPWithFlags, ownedData] using hc
    simp only [List.mem_cons, List.not_mem_nil, or_false] at hc'
    rcases hc' with rfl | rfl <;> decide

theorem newRequest_isRequest (drawn : Drawn) (cmd appid : UInt32) (s : Snapshot) :
    (newRequest drawn cmd appid s).header.isRequest = true := by
  unfold Header.isRequest newRequest newMessage
  dsimp only
  split <;> rfl

theorem buildCER_header (h : buildCER drawn s cfg = .ok m) :
    m.header.commandCode = BaseCommand.capabilitiesExchange.code ∧ m.header.isRequest = true := by
  obtain ⟨-, hsame⟩ := buildCER_adds h
  refine ⟨hsame.commandCode, ?_⟩
  unfold Header.isRequest
  rw [hsame.commandFlags]
  exact newRequest_isRequest _ _ _ _

theorem capabilities_acceptable_configured :
    ∃ cer, buildCER ⟨1, 2⟩ grammarDictionary (configuredSettings 10415 []) = .ok cer ∧
      validateMessage cer = none ∧
      ∃ cea, buildCEA ⟨1, 2⟩ cer (configuredSettings 10415 []) successCode = .ok cea ∧
        validateMessage cea = none := by
  obtain ⟨⟨cer, hcer, hvalid⟩, hanswer⟩ := capabilities_acceptable configuredSettings_acceptable
    grammarDictionary_published baseApp_grammarDictionary ⟨1, 2⟩
  obtain ⟨hcode, hrequest⟩ := buildCER_header hcer
  exact ⟨cer, hcer, hvalid, hanswer cer hcode hrequest hvalid⟩

/-- The CER of these settings is built and does not pass. -/
def refused (cfg : Settings) : Bool :=
  (buildCER ⟨1, 2⟩ grammarDictionary cfg).toOption.any fun m => (validateMessage m).isSome

theorem not_validateMessage_of_refused {cfg : Settings} (h : refused cfg = true) :
    ∃ m, buildCER ⟨1, 2⟩ grammarDictionary cfg = .ok m ∧ validateMessage m ≠ none := by
  unfold refused at h
  cases hm : buildCER ⟨1, 2⟩ grammarDictionary cfg with
  | error e =>
    rw [hm] at h
    cases h
  | ok m =>
    rw [hm] at h
    exact ⟨m, rfl, Option.isSome_iff_ne_none.1 h⟩

/-- What the check accepts need not pass: a Supported-Vendor-Id of zero, a Product-Name that is not
UTF-8, and a further base AVP in a Vendor-Specific-Application-Id. -/
theorem not_capabilities_acceptable :
    (Checked (configuredSettings 0 []) ∧
      ∃ m, buildCER ⟨1, 2⟩ grammarDictionary (configuredSettings 0 []) = .ok m ∧
        validateMessage m ≠ none) ∧
    (Checked { plainSettings with productName := [0xff] } ∧
      ∃ m, buildCER ⟨1, 2⟩ grammarDictionary { plainSettings with productName := [0xff] } = .ok m ∧
        validateMessage m ≠ none) ∧
    Checked (configuredSettings 10415 [unsigned32AVP originStateIDCode 1]) ∧
      ∃ m, buildCER ⟨1, 2⟩ grammarDictionary
          (configuredSettings 10415 [unsigned32AVP originStateIDCode 1]) = .ok m ∧
        validateMessage m ≠ none := by
  have hname : validateCapabilities { plainSettings with productName := [0xff] } = none := by
    simp [validateCapabilities, checkList, advertisedApplications, explicitApplications,
      plainSettings, mergeApplications]
  obtain ⟨hvendor, hproduct, hmember⟩ : refused (configuredSettings 0 []) = true ∧
      refused { plainSettings with productName := [0xff] } = true ∧
      refused (configuredSettings 10415 [unsigned32AVP originStateIDCode 1]) = true := by
    decide +kernel
  refine ⟨⟨⟨rfl, ?_, ?_, ?_, ?_⟩, not_validateMessage_of_refused hvendor⟩,
    ⟨⟨hname, ?_, ?_, ?_, ?_⟩, not_validateMessage_of_refused hproduct⟩,
    ⟨rfl, ?_, ?_, ?_, ?_⟩, not_validateMessage_of_refused hmember⟩
  all_goals decide

end Diameter.Base
