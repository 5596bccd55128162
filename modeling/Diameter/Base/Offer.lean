import Diameter.Base.Fields

/-!
# Base.Offer

The applications a node offers, from the settings to what its peer reads.

The AVPs are taken from the settings as they are configured, or made from the applications of the
dictionary, which are grouped under their vendors. Each names one application
(`applicationAVPs_names`), and together they name those of the settings (`mem_advertised_iff`). A
CER and a success CEA hold them and no other AVP under their names (`Carries`), so that the offer
is read as it was made (`capabilities_round_trip`).
-/

namespace Diameter.Base

open Lib Datatype Dict

variable {a : AVP} {m : Message} {cfg : Settings} {s : Snapshot} {id : UInt32}
variable {values : Option (List (Option AVP))}

/-! ## The offer -/

/-- The offer in the fields of a CER or CEA. -/
def offered (auth acct vsai : List AVP) : List UInt32 :=
  advertisedApplicationIDs
    { authApplicationID := some (auth.map some), acctApplicationID := some (acct.map some),
      vendorSpecificApplicationID := some (vsai.map some) }

theorem mem_advertisedApplicationIDs :
    id ∈ advertisedApplicationIDs cfg ↔ ∃ app ∈ advertisedApplications cfg, app.id = id := by
  rw [advertisedApplicationIDs, List.mem_dedup, List.mem_mergeSort, List.mem_map]

theorem offer_id (available : List LocalApplication) (id : UInt32) (kind : String)
    (vendor : UInt32) : (offer available id kind vendor).id = id := by
  unfold offer
  dsimp only
  split <;> rfl

/-- The identifiers that configured lists name. -/
def Names (auth acct vsai : List AVP) (id : UInt32) : Prop :=
  (∃ a ∈ auth, a.unsigned32? = some id) ∨ (∃ a ∈ acct, a.unsigned32? = some id) ∨
    ∃ v ∈ vsai, ∃ w, vendorApplication v = some w ∧ w.id = id

theorem mem_explicit (hexplicit : explicitApplications cfg = true) :
    id ∈ advertisedApplicationIDs cfg ↔ Names (configured cfg.authApplicationID)
      (configured cfg.acctApplicationID) (configured cfg.vendorSpecificApplicationID) id := by
  have hvalues : ∀ (as : List AVP) (kind : String),
      (∃ app ∈ (as.filterMap AVP.unsigned32?).map
        (fun id => offer (mergeApplications cfg.applications) id kind 0), app.id = id) ↔
        ∃ a ∈ as, a.unsigned32? = some id := by
    intro as kind
    simp only [List.mem_map, List.mem_filterMap]
    constructor
    · rintro ⟨_, ⟨n, ⟨a, ha, hn⟩, rfl⟩, rfl⟩
      exact ⟨a, ha, by rw [hn, offer_id]⟩
    · rintro ⟨a, ha, hid⟩
      exact ⟨_, ⟨id, ⟨a, ha, hid⟩, rfl⟩, offer_id _ _ _ _⟩
  rw [mem_advertisedApplicationIDs, advertisedApplications, hexplicit, Names, ← hvalues _ "auth",
    ← hvalues _ "acct"]
  simp only [Bool.not_true, Bool.false_eq_true, if_false, List.mem_append, or_and_right,
    exists_or, or_assoc]
  refine or_congr_right (or_congr_right ?_)
  simp only [List.mem_map, List.mem_filterMap]
  constructor
  · rintro ⟨_, ⟨w, ⟨v, hv, hw⟩, rfl⟩, rfl⟩
    exact ⟨v, hv, w, hw, (offer_id _ _ _ _).symm⟩
  · rintro ⟨v, hv, w, hw, rfl⟩
    exact ⟨_, ⟨w, ⟨v, hv, hw⟩, rfl⟩, offer_id _ _ _ _⟩

theorem configured_some (as : List AVP) : configured (some (as.map some)) = as := by
  simp [configured]

theorem mem_offered {auth acct vsai : List AVP} :
    id ∈ offered auth acct vsai ↔ Names auth acct vsai id := by
  rw [offered, mem_explicit rfl]
  simp only [configured_some]

/-! ## The AVPs of its messages -/

theorem addFields_checked {m m' : Message} {fields : List Field} (h : addFields m fields = .ok m') :
    ∀ f ∈ fields, checkNewData (.value f.value) = .ok () := by
  unfold addFields at h
  induction fields generalizing m with
  | nil => exact fun f hf => (List.not_mem_nil hf).elim
  | cons f fields ih =>
    rw [List.foldlM_cons] at h
    obtain ⟨m1, hf, hrest⟩ := bind_eq_ok.1 h
    exact List.forall_mem_cons.2 ⟨(Message.newAVP_ok.1 hf).1, ih hrest⟩

theorem readable_of_data (hcode : a.code ≠ hostIPAddressCode)
    (hdata : ∀ x, a.data ≠ .value (.address x)) : Readable a :=
  ⟨fun h => absurd h hcode, fun _ _ => hdata⟩

theorem readable_unsigned32 {n : UInt32} (hcode : a.code ≠ hostIPAddressCode)
    (h : a.unsigned32? = some n) : Readable a :=
  readable_of_data hcode fun x hx => by rw [data_of_unsigned32? h] at hx; cases hx

theorem readable_field (code : UInt32) {flags : UInt8} {v : Value}
    (hcode : code ∉ hostIPAddressCode :: applicationCodes) (hv : ∀ x, v ≠ .address x) :
    Readable (Field.avp ⟨code, flags, v⟩) ∧ (Field.avp ⟨code, flags, v⟩).code ∉ applicationCodes :=
  ⟨readable_of_data (fun h => hcode (h ▸ List.mem_cons_self)) fun x hx => by
      injection hx with hx
      exact hv x hx,
    fun h => hcode (List.mem_cons_of_mem _ h)⟩

theorem readable_optionalField {setting code value : UInt32} {flags : UInt8}
    (hcode : code ∉ hostIPAddressCode :: applicationCodes) :
    ∀ f ∈ optionalField setting ⟨code, flags, .unsigned32 value⟩,
      Readable f.avp ∧ f.avp.code ∉ applicationCodes := by
  intro f hf
  unfold optionalField at hf
  split at hf
  · rw [List.mem_singleton.1 hf]
    exact readable_field code hcode fun _ h => Value.noConfusion h
  · cases hf

theorem readable_localFields
    (hchecked : ∀ f ∈ localFields cfg cfg.hostIPAddresses, checkNewData (.value f.value) = .ok ()) :
    ∀ f ∈ localFields cfg cfg.hostIPAddresses,
      Readable f.avp ∧ f.avp.code ∉ applicationCodes := by
  intro f hf
  have hvalid := hchecked f hf
  unfold localFields at hf
  simp only [List.mem_append, List.mem_cons, List.mem_map, List.not_mem_nil, or_false] at hf
  rcases hf with (((rfl | rfl) | ⟨x, -, rfl⟩) | (rfl | rfl)) | hf
  · exact readable_field originHostCode (by decide) fun _ h => Value.noConfusion h
  · exact readable_field originRealmCode (by decide) fun _ h => Value.noConfusion h
  · exact ⟨⟨fun _ => ⟨x, rfl, hvalid⟩, fun h => absurd rfl h⟩,
      show hostIPAddressCode ∉ applicationCodes by decide⟩
  · exact readable_field vendorIDCode (by decide) fun _ h => Value.noConfusion h
  · exact readable_field productNameCode (by decide) fun _ h => Value.noConfusion h
  · exact readable_optionalField (by decide) f hf

theorem unsigned32_of_checkList {name : String} {code : UInt32}
    (h : checkList (checkApplicationAVP name code) values = none) (ha : a ∈ configured values) :
    a.code = code ∧ a.vendorID = 0 ∧ ∃ n, a.unsigned32? = some n := by
  obtain ⟨i, hi⟩ := checkList_eq_none h ha
  obtain ⟨hcode, hietf, hvalue⟩ := checkApplicationAVP_eq_none hi
  exact ⟨hcode, (vendorID_of_isIETF hietf).1, Option.isSome_iff_exists.1 hvalue⟩

theorem readable_supportedVendors (hcfg : validateCapabilities cfg = none)
    (apps : List LocalApplication) : ∀ a ∈ supportedVendorAVPs cfg apps,
      Readable a ∧ a.code ∉ applicationCodes := by
  have hgood : ∀ {a : AVP} {n : UInt32}, a.code = supportedVendorIDCode →
      a.unsigned32? = some n → Readable a ∧ a.code ∉ applicationCodes := fun hcode hn =>
    ⟨readable_unsigned32 (by rw [hcode]; decide) hn, by rw [hcode]; decide⟩
  intro a ha
  unfold supportedVendorAVPs at ha
  split at ha
  next values hvalues =>
    obtain ⟨hcode, -, n, hn⟩ := unsigned32_of_checkList
      (validateCapabilities_eq_none hcfg).2.1 (by rw [configured, hvalues]; exact ha)
    exact hgood hcode hn
  · obtain ⟨v, -, rfl⟩ := List.mem_map.1 ha
    exact hgood rfl rfl

/-- An AVP that names the application. -/
def NamesApplication (a : AVP) (id : UInt32) : Prop :=
  (a.code = acctApplicationIDCode ∨ a.code = authApplicationIDCode) ∧ a.unsigned32? = some id ∨
    a.code = vendorSpecificApplicationIDCode ∧ ∃ w, vendorApplication a = some w ∧ w.id = id

theorem group_of_checkList
    (h : checkList checkVendorApplication values = none) (ha : a ∈ configured values) :
    a.code = vendorSpecificApplicationIDCode ∧ a.vendorID = 0 ∧ ∃ ms, a.data = .group ms := by
  obtain ⟨i, hi⟩ := checkList_eq_none h ha
  unfold checkVendorApplication at hi
  dsimp only at hi
  split at hi
  next ms hms =>
    split at hi
    · cases hi
    rename_i hok
    simp only [Bool.or_eq_true, not_or, bne_iff_ne, ne_eq, not_not, Bool.not_eq_true',
      Bool.not_eq_false] at hok
    exact ⟨hok.1, (vendorID_of_isIETF hok.2).1, ms, hms⟩
  · cases hi

theorem readMember_unsigned32AVP (w : VendorApplication) (code value : UInt32) :
    readMember w (unsigned32AVP code value) =
      if code = vendorIDCode then { w with vendor := value }
      else if code = authApplicationIDCode then { w with id := value }
      else if code = acctApplicationIDCode then { w with id := value, kind := "acct" }
      else w := by
  have hietf : (unsigned32AVP code value).isIETF = true := by
    simp [AVP.isIETF, unsigned32AVP, newAVP, newAVPWithFlags, newAVP_vbit]
  have hvalue : (unsigned32AVP code value).unsigned32? = some value := rfl
  unfold readMember
  rw [hietf, hvalue]
  rfl

theorem applicationAVP_names (app : LocalApplication) :
    (applicationAVP app).vendorID = 0 ∧ NamesApplication (applicationAVP app) app.id := by
  unfold applicationAVP
  dsimp only
  split
  · refine ⟨rfl, .inr ⟨rfl, ?_⟩⟩
    split
    · exact ⟨_, rfl, by simp [readMember_unsigned32AVP, vendorIDCode, authApplicationIDCode,
        acctApplicationIDCode]⟩
    · exact ⟨_, rfl, by simp [readMember_unsigned32AVP, vendorIDCode, authApplicationIDCode]⟩
  · split
    · exact ⟨rfl, .inl ⟨.inl rfl, rfl⟩⟩
    · exact ⟨rfl, .inl ⟨.inr rfl, rfl⟩⟩

theorem NamesApplication.unique {id id' : UInt32} (h : NamesApplication a id)
    (h' : NamesApplication a id') : id = id' := by
  rcases h with ⟨hcode, h⟩ | ⟨hcode, w, hw, rfl⟩ <;>
    rcases h' with ⟨hcode', h'⟩ | ⟨hcode', w', hw', rfl⟩
  · exact Option.some.inj (h.symm.trans h')
  · rw [hcode'] at hcode
    exact absurd hcode (by decide)
  · rw [hcode] at hcode'
    exact absurd hcode' (by decide)
  · rw [Option.some.inj (hw.symm.trans hw')]

theorem NamesApplication.readable (h : NamesApplication a id) :
    Readable a ∧ a.code ∈ applicationCodes := by
  rcases h with ⟨hcode, hvalue⟩ | ⟨hcode, w, hw, -⟩
  · rcases hcode with hcode | hcode <;>
      exact ⟨readable_unsigned32 (by rw [hcode]; decide) hvalue, by rw [hcode]; decide⟩
  refine ⟨readable_of_data (by rw [hcode]; decide) fun x hx => ?_, by rw [hcode]; decide⟩
  rw [vendorApplication, hx] at hw
  cases hw

section

variable (hcfg : validateCapabilities cfg = none)
include hcfg

theorem namesApplication_configured :
    (∀ a ∈ configured cfg.authApplicationID, a.code = authApplicationIDCode ∧ a.vendorID = 0 ∧
      ∃ id, a.unsigned32? = some id) ∧
    (∀ a ∈ configured cfg.acctApplicationID, a.code = acctApplicationIDCode ∧ a.vendorID = 0 ∧
      ∃ id, a.unsigned32? = some id) ∧
    ∀ a ∈ configured cfg.vendorSpecificApplicationID,
      a.code = vendorSpecificApplicationIDCode ∧ a.vendorID = 0 ∧ ∃ ms, a.data = .group ms := by
  obtain ⟨⟨hauth, hacct⟩, -, hvsai⟩ := validateCapabilities_eq_none hcfg
  exact ⟨fun a => unsigned32_of_checkList hauth, fun a => unsigned32_of_checkList hacct,
    fun a => group_of_checkList hvsai⟩

theorem applicationAVPs_names (ha : a ∈ applicationAVPs cfg (advertisedApplications cfg)) :
    a.vendorID = 0 ∧ ∃ id, NamesApplication a id := by
  obtain ⟨hauth, hacct, hvsai⟩ := namesApplication_configured hcfg
  unfold applicationAVPs at ha
  split at ha
  · simp only [List.mem_append] at ha
    rcases ha with (ha | ha) | ha
    · obtain ⟨hcode, hvendor, id, hid⟩ := hauth a ha
      exact ⟨hvendor, id, .inl ⟨.inr hcode, hid⟩⟩
    · obtain ⟨hcode, hvendor, id, hid⟩ := hacct a ha
      exact ⟨hvendor, id, .inl ⟨.inl hcode, hid⟩⟩
    · obtain ⟨hcode, hvendor, ms, hms⟩ := hvsai a ha
      exact ⟨hvendor, _, .inr ⟨hcode, _, by rw [vendorApplication, hms], rfl⟩⟩
  · obtain ⟨app, -, rfl⟩ := List.mem_map.1 ha
    exact ⟨(applicationAVP_names app).1, app.id, (applicationAVP_names app).2⟩

theorem mem_advertised_iff : id ∈ advertisedApplicationIDs cfg ↔
      ∃ a ∈ applicationAVPs cfg (advertisedApplications cfg), NamesApplication a id := by
  obtain ⟨hauth, hacct, hvsai⟩ := namesApplication_configured hcfg
  by_cases hexplicit : explicitApplications cfg = true
  · rw [mem_explicit hexplicit, applicationAVPs, if_pos hexplicit]
    simp only [List.mem_append]
    constructor
    · rintro (⟨a, ha, hid⟩ | ⟨a, ha, hid⟩ | ⟨a, ha, hid⟩)
      · exact ⟨a, .inl (.inl ha), .inl ⟨.inr (hauth a ha).1, hid⟩⟩
      · exact ⟨a, .inl (.inr ha), .inl ⟨.inl (hacct a ha).1, hid⟩⟩
      · exact ⟨a, .inr ha, .inr ⟨(hvsai a ha).1, hid⟩⟩
    · rintro ⟨a, (ha | ha) | ha, hnames⟩
      · obtain ⟨hcode, -, n, hn⟩ := hauth a ha
        exact .inl ⟨a, ha, hn.trans (congrArg some
          (NamesApplication.unique (.inl ⟨.inr hcode, hn⟩) hnames))⟩
      · obtain ⟨hcode, -, n, hn⟩ := hacct a ha
        exact .inr (.inl ⟨a, ha, hn.trans (congrArg some
          (NamesApplication.unique (.inl ⟨.inl hcode, hn⟩) hnames))⟩)
      · rcases hnames with ⟨hcode, -⟩ | ⟨-, hw⟩
        · rw [(hvsai a ha).1] at hcode
          exact absurd hcode (by decide)
        · exact .inr (.inr ⟨a, ha, hw⟩)
  · rw [mem_advertisedApplicationIDs, applicationAVPs, if_neg hexplicit]
    constructor
    · rintro ⟨app, happ, rfl⟩
      exact ⟨_, List.mem_map_of_mem happ, (applicationAVP_names app).2⟩
    rintro ⟨a, ha, hnames⟩
    obtain ⟨app, happ, rfl⟩ := List.mem_map.1 ha
    exact ⟨app, happ, (applicationAVP_names app).2.unique hnames⟩

/-- The message can be read, and the AVPs in it that name applications are those of the settings. -/
structure Carries (cfg : Settings) (m : Message) : Prop where
  applicationID : m.header.applicationID = 0
  readable : ∀ a, some a ∈ m.avps → Readable a
  naming : ∀ a, some a ∈ m.avps ∧ a.code ∈ applicationCodes ↔
    a ∈ applicationAVPs cfg (advertisedApplications cfg)

theorem carries_of_adds {start m : Message} {before after : List AVP}
    (hadds : Adds start (before ++ (applicationAVPs cfg (advertisedApplications cfg) ++ after)) m)
    (happ : start.header.applicationID = 0)
    (hstart : ∀ a, some a ∈ start.avps → Readable a ∧ a.code ∉ applicationCodes)
    (hbefore : ∀ a ∈ before, Readable a ∧ a.code ∉ applicationCodes)
    (hafter : ∀ a ∈ after, Readable a ∧ a.code ∉ applicationCodes) : Carries cfg m := by
  have havps : ∀ a, some a ∈ m.avps ↔ some a ∈ start.avps ∨ a ∈ before ∨
      a ∈ applicationAVPs cfg (advertisedApplications cfg) ∨ a ∈ after := by
    intro a
    simp [Message.avps, hadds.items]
  have hnaming : ∀ a ∈ applicationAVPs cfg (advertisedApplications cfg),
      Readable a ∧ a.code ∈ applicationCodes := fun a ha =>
    (applicationAVPs_names hcfg ha).2.elim fun _ h => h.readable
  refine ⟨hadds.header.applicationID.trans happ, fun a ha => ?_, fun a => ⟨?_, fun ha => ?_⟩⟩
  · rcases (havps a).1 ha with ha | ha | ha | ha
    · exact (hstart a ha).1
    · exact (hbefore a ha).1
    · exact (hnaming a ha).1
    · exact (hafter a ha).1
  · rintro ⟨ha, hcode⟩
    rcases (havps a).1 ha with ha | ha | ha | ha
    · exact absurd hcode (hstart a ha).2
    · exact absurd hcode (hbefore a ha).2
    · exact ha
    · exact absurd hcode (hafter a ha).2
  · exact ⟨(havps a).2 (.inr (.inr (.inl ha))), (hnaming a ha).2⟩

theorem carries_buildCER {drawn : Drawn} (hm : buildCER drawn s cfg = .ok m) : Carries cfg m := by
  have hadds := buildCER_adds hm
  have hlocal : ∀ f ∈ localFields cfg cfg.hostIPAddresses,
      Readable f.avp ∧ f.avp.code ∉ applicationCodes := by
    obtain ⟨addresses, haddresses, h⟩ := bind_eq_ok.1 hm
    obtain ⟨-, rfl⟩ := addressesFor_ok.1 haddresses
    obtain ⟨m1, h1, -⟩ := bind_eq_ok.1 h
    exact readable_localFields (addFields_checked h1)
  refine @carries_of_adds cfg hcfg _ m (_ ++ _ ++ _) _ (by simpa only [List.append_assoc] using hadds)
    rfl (fun a ha => (List.not_mem_nil ha).elim) ?_ ?_
  · intro a ha
    simp only [List.mem_append, List.mem_map] at ha
    rcases ha with (⟨f, hf, rfl⟩ | ha) | ⟨f, hf, rfl⟩
    · exact hlocal f hf
    · exact readable_supportedVendors hcfg _ a ha
    · exact readable_optionalField (by decide) f hf
  · intro a ha
    obtain ⟨f, hf, rfl⟩ := List.mem_map.1 ha
    exact readable_optionalField (by decide) f hf

theorem carries_buildCEA {drawn : Drawn}
    {request m : Message} (hm : buildCEA drawn request cfg successCode = .ok m) :
    Carries cfg m := by
  have hadds := buildCEA_adds hm
  have hlocal : ∀ f ∈ localFields cfg cfg.hostIPAddresses,
      Readable f.avp ∧ f.avp.code ∉ applicationCodes := by
    obtain ⟨addresses, haddresses, h⟩ := bind_eq_ok.1 hm
    obtain ⟨-, rfl⟩ := addressesFor_ok.1 haddresses
    obtain ⟨m1, h1, -⟩ := bind_eq_ok.1 h
    exact readable_localFields (addFields_checked h1)
  refine @carries_of_adds cfg hcfg _ m (_ ++ _) _ (by simpa only [List.append_assoc] using hadds)
    rfl ?_ ?_ ?_
  · intro a ha
    have hitems : (baseAnswer drawn request successCode).items =
        (request.answer drawn successCode).items := rfl
    rw [Message.avps, hitems, Message.answer_items, if_pos (by decide), List.map_append,
      List.map_map] at ha
    rcases List.mem_append.1 ha with ha | ha
    · cases List.mem_singleton.1 ha
      exact readable_field 268 (by decide) fun _ h => Value.noConfusion h
    obtain ⟨b, hb, hba⟩ := List.mem_map.1 ha
    cases hba
    have hcode : b.echo.code = proxyInfoCode := by
      have hproxy := (List.mem_filter.1 hb).2
      simp only [AVP.isProxyInfo, Bool.and_eq_true, beq_iff_eq] at hproxy
      exact (reshapes_echo.code b).trans hproxy.1
    exact ⟨⟨fun h => absurd (hcode.symm.trans h) (by decide), fun _ h => absurd hcode h⟩,
      by rw [hcode]; decide⟩
  · intro a ha
    simp only [List.mem_append, List.mem_map] at ha
    rcases ha with ⟨f, hf, rfl⟩ | ha
    · exact hlocal f hf
    · exact readable_supportedVendors hcfg _ a ha
  · intro a ha
    obtain ⟨f, hf, rfl⟩ := List.mem_map.1 ha
    exact readable_optionalField (by decide) f hf

theorem Carries.read (h : Carries cfg m) (hs : BaseNames s)
    {l : Lists} (hread : ReadLists ⟨m, s⟩ l none) (a : AVP) :
    (a ∈ l.acct ↔ a ∈ applicationAVPs cfg (advertisedApplications cfg) ∧
      a.code = acctApplicationIDCode) ∧
    (a ∈ l.auth ↔ a ∈ applicationAVPs cfg (advertisedApplications cfg) ∧
      a.code = authApplicationIDCode) ∧
    (a ∈ l.vsai ↔ a ∈ applicationAVPs cfg (advertisedApplications cfg) ∧
      a.code = vendorSpecificApplicationIDCode) := by
  have hlist : ∀ {i : Nat} {name : String} {list : List AVP} {code : UInt32} {t : TypeID},
      ReadList ⟨m, s⟩ name list none → fieldNames[i]? = some (name, code, t) →
      code ∈ applicationCodes →
      (a ∈ list ↔ a ∈ applicationAVPs cfg (advertisedApplications cfg) ∧ a.code = code) := by
    intro i name list code t hlist hentry hcode
    obtain ⟨-, hnone⟩ | ⟨d, hd, rfl⟩ := hlist
    · cases hnone
    obtain ⟨d', hd', rfl, hvendor, -⟩ := hs.field (List.mem_of_getElem? hentry)
    have hsame : d' = d := by
      have hd : s.findAVPByName m.header.applicationID name = .ok d := hd
      rw [h.applicationID, hd'] at hd
      exact Except.ok.inj hd
    rw [mem_matching, ← h.naming a, ← hsame, hvendor]
    constructor
    · rintro ⟨ha, hacode, -⟩
      exact ⟨⟨ha, hacode ▸ hcode⟩, hacode⟩
    · rintro ⟨⟨ha, hin⟩, hacode⟩
      exact ⟨ha, hacode, (applicationAVPs_names hcfg ((h.naming a).1 ⟨ha, hin⟩)).1⟩
  exact ⟨hlist (i := 9) hread.acct rfl (by decide), hlist (i := 10) hread.auth rfl (by decide),
    hlist (i := 11) hread.vsai rfl (by decide)⟩

theorem Carries.offered (h : Carries cfg m)
    (hs : BaseNames s) {l : Lists} (hread : ReadLists ⟨m, s⟩ l none) (id : UInt32) :
    id ∈ offered l.auth l.acct l.vsai ↔ id ∈ advertisedApplicationIDs cfg := by
  have hlists := h.read hcfg hs hread
  rw [mem_offered, mem_advertised_iff hcfg]
  constructor
  · rintro (⟨a, ha, hid⟩ | ⟨a, ha, hid⟩ | ⟨a, ha, hid⟩)
    · obtain ⟨ha, hcode⟩ := (hlists a).2.1.1 ha
      exact ⟨a, ha, .inl ⟨.inr hcode, hid⟩⟩
    · obtain ⟨ha, hcode⟩ := (hlists a).1.1 ha
      exact ⟨a, ha, .inl ⟨.inl hcode, hid⟩⟩
    · obtain ⟨ha, hcode⟩ := (hlists a).2.2.1 ha
      exact ⟨a, ha, .inr ⟨hcode, hid⟩⟩
  · rintro ⟨a, ha, ⟨hcode | hcode, hid⟩ | ⟨hcode, hid⟩⟩
    · exact .inr (.inl ⟨a, (hlists a).1.2 ⟨ha, hcode⟩, hid⟩)
    · exact .inl ⟨a, (hlists a).2.1.2 ⟨ha, hcode⟩, hid⟩
    · exact .inr (.inr ⟨a, (hlists a).2.2.2 ⟨ha, hcode⟩, hid⟩)

end

theorem Carries.readCER (h : Carries cfg m) (hs : BaseNames s) :
    ∃ cer, scanStruct ⟨m, s⟩ cerFields {} = (cer, none) ∧
      ReadLists ⟨m, s⟩ (cerLists cer) none := by
  have herr := @scanStruct_cerFields ⟨m, s⟩ hs h.applicationID h.readable
  have hread := readLists_cer ⟨m, s⟩
  generalize scanStruct (⟨m, s⟩ : Packet) cerFields {} = result at herr hread
  obtain ⟨cer, err⟩ := result
  cases herr
  exact ⟨cer, rfl, hread⟩

theorem Carries.readCEA (h : Carries cfg m) (hs : BaseNames s) :
    ∃ cea, scanStruct ⟨m, s⟩ ceaFields {} = (cea, none) ∧
      ReadLists ⟨m, s⟩ (ceaLists cea) none := by
  have herr := @scanStruct_ceaFields ⟨m, s⟩ hs h.applicationID h.readable
  have hread := readLists_cea ⟨m, s⟩
  generalize scanStruct (⟨m, s⟩ : Packet) ceaFields {} = result at herr hread
  obtain ⟨cea, err⟩ := result
  cases herr
  exact ⟨cea, rfl, hread⟩

/-- The applications a node offers are those its peer reads: from the CER it sends, and from the
success CEA it answers with. -/
theorem capabilities_round_trip {cfg : Settings} (hcfg : validateCapabilities cfg = none)
    {s : Snapshot} (hs : BaseNames s) (drawn : Drawn) :
    (∀ m, buildCER drawn s cfg = .ok m → ∃ cer, scanStruct ⟨m, s⟩ cerFields {} = (cer, none) ∧
      ∀ id, id ∈ offered cer.authApplicationID cer.acctApplicationID
        cer.vendorSpecificApplicationID ↔ id ∈ advertisedApplicationIDs cfg) ∧
    ∀ request m, buildCEA drawn request cfg successCode = .ok m →
      ∃ cea, scanStruct ⟨m, s⟩ ceaFields {} = (cea, none) ∧
        ∀ id, id ∈ offered cea.authApplicationID cea.acctApplicationID
          cea.vendorSpecificApplicationID ↔ id ∈ advertisedApplicationIDs cfg := by
  constructor
  · intro m hm
    have hcarries := carries_buildCER hcfg hm
    obtain ⟨cer, hcer, hread⟩ := hcarries.readCER hs
    exact ⟨cer, hcer, hcarries.offered hcfg hs hread⟩
  · intro request m hm
    have hcarries := carries_buildCEA hcfg hm
    obtain ⟨cea, hcea, hread⟩ := hcarries.readCEA hs
    exact ⟨cea, hcea, hcarries.offered hcfg hs hread⟩

theorem capabilities_round_trip_configured :
    ∃ m cer, buildCER ⟨1, 2⟩ grammarDictionary (configuredSettings 10415 []) = .ok m ∧
      scanStruct ⟨m, grammarDictionary⟩ cerFields {} = (cer, none) ∧
      ∀ id, id ∈ offered cer.authApplicationID cer.acctApplicationID
        cer.vendorSpecificApplicationID ↔
          id ∈ advertisedApplicationIDs (configuredSettings 10415 []) := by
  have hcfg := configuredSettings_acceptable
  obtain ⟨m, hm⟩ := buildCER_isOk hcfg.addresses hcfg.valid ⟨1, 2⟩ grammarDictionary
  obtain ⟨cer, hcer, hoffered⟩ := (capabilities_round_trip hcfg.capabilities
    baseNames_grammarDictionary ⟨1, 2⟩).1 m hm
  exact ⟨m, cer, hm, hcer, hoffered⟩

end Diameter.Base
