import Diameter.Base.Capabilities

/-!
# Base.Builders

The messages of the connection-level commands: CER, DWR and DPR, and the answers to them other
than error answers.

A builder adds its AVPs one after another and stops at the first that is refused, which only
happens to addresses. `addFields_ok` says what is in the message when none is.
-/

namespace Diameter.Base

open Lib Datatype Dict

variable (drawn : Drawn) (s : Snapshot) (request : Message) (cfg : Settings)

def hostIPAddressCode : UInt32 := 257
def productNameCode : UInt32 := 269
def originStateIDCode : UInt32 := 278
def firmwareRevisionCode : UInt32 := 267
def inbandSecurityIDCode : UInt32 := 299

/-! ## Fields -/

/-- An AVP a builder adds, always in the IETF namespace. -/
structure Field where
  code : UInt32
  flags : UInt8 := mbit
  value : Value

def Field.avp (f : Field) : AVP := newAVP f.code f.flags 0 (.value f.value)

def addField (m : Message) (f : Field) : Except String Message :=
  m.newAVP f.code f.flags 0 (.value f.value)

def addFields (m : Message) (fields : List Field) : Except String Message :=
  fields.foldlM addField m

/-- A field that is left out when the setting is zero. -/
def optionalField (setting : UInt32) (f : Field) : List Field := if setting ≠ 0 then [f] else []

def originHost : Field :=
  { code := originHostCode, value := .diameterIdentity cfg.originHost }

def originRealm : Field :=
  { code := originRealmCode, value := .diameterIdentity cfg.originRealm }

def originStateID (osid : UInt32) : Field := { code := originStateIDCode, value := .unsigned32 osid }

/-- The fields of a capabilities message up to the vendors it supports. -/
def localFields (addresses : List Address) : List Field :=
  [originHost cfg, originRealm cfg] ++
    addresses.map (fun a => { code := hostIPAddressCode, value := .address a }) ++
    [{ code := vendorIDCode, value := .unsigned32 cfg.vendorID },
     { code := productNameCode, flags := 0, value := .utf8String cfg.productName }] ++
    optionalField cfg.originStateID (originStateID cfg.originStateID)

def firmwareField : List Field :=
  optionalField cfg.firmwareRevision
    { code := firmwareRevisionCode, flags := 0, value := .unsigned32 cfg.firmwareRevision }

def inbandField : List Field :=
  optionalField cfg.inbandSecurityID
    { code := inbandSecurityIDCode, value := .unsigned32 cfg.inbandSecurityID }

/-- `capabilityAddresses`. -/
def capabilityAddresses : Except String (List Address) :=
  if cfg.hostIPAddresses = [] then
    .error ("no usable local Host-IP-Address; configure Settings.HostIPAddresses explicitly for " ++
      "custom transports")
  else .ok cfg.hostIPAddresses

/-- The addresses, with the message they are for in the error. -/
def addressesFor (what : String) (cfg : Settings) : Except String (List Address) :=
  (capabilityAddresses cfg).mapError (s!"find local addresses for {what}: " ++ ·)

/-! ## Requests -/

/-- `BuildCER`. -/
def buildCER : Except String Message := do
  let addresses ← addressesFor "CER" cfg
  let apps := advertisedApplications cfg
  let m := newRequest drawn BaseCommand.capabilitiesExchange.code 0 s
  let m ← addFields m (localFields cfg addresses)
  let m := addSupportedVendors m cfg apps
  let m ← addFields m (inbandField cfg)
  let m := addApplications m cfg apps
  addFields m (firmwareField cfg)

/-- `BuildDWR`. -/
def buildDWR (osid : UInt32) : Except String Message :=
  addFields (newRequest drawn BaseCommand.deviceWatchdog.code 0 s)
    ([originHost cfg, originRealm cfg] ++ optionalField cfg.originStateID (originStateID osid))

/-- `BuildDPR`. -/
def buildDPR (cause : UInt32) : Except String Message :=
  addFields (newRequest drawn BaseCommand.disconnectPeer.code 0 s)
    [originHost cfg, originRealm cfg,
     { code := disconnectCauseCode, value := .enumerated cause.toInt32 }]

/-! ## Answers -/

/-- An answer with the flags and the application of a base answer. -/
def baseAnswer (resultCode : UInt32) : Message :=
  let a := request.answer drawn resultCode
  { a with header := { a.header with commandFlags := 0, applicationID := 0 } }

/-- `BuildCEA` for results that are not protocol errors. -/
def buildCEA (resultCode : UInt32) : Except String Message := do
  let addresses ← addressesFor "CEA" cfg
  let a ← addFields (baseAnswer drawn request resultCode) (localFields cfg addresses)
  let a :=
    if resultCode = successCode then
      let apps := advertisedApplications cfg
      addApplications (addSupportedVendors a cfg apps) cfg apps
    else a
  addFields a (firmwareField cfg)

/-- `BuildDWA`. -/
def buildDWA : Except String Message :=
  addFields (baseAnswer drawn request successCode)
    ([originHost cfg, originRealm cfg] ++
      optionalField cfg.originStateID (originStateID cfg.originStateID))

/-- `BuildDPAResult`. -/
def buildDPAResult (result : UInt32) : Except String Message :=
  addFields (baseAnswer drawn request result) [originHost cfg, originRealm cfg]

/-! ## What the messages hold -/

/-- `m'` is `m` with more AVPs. -/
structure Adds (m : Message) (as : List AVP) (m' : Message) : Prop where
  items : m'.items = m.items ++ as.map fun a => ⟨some a, none⟩
  header : m.SameHeader m'

variable {cfg}

theorem Adds.trans {m m' m'' : Message} {as bs : List AVP} (h : Adds m as m')
    (h' : Adds m' bs m'') : Adds m (as ++ bs) m'' where
  items := by rw [h'.items, h.items, List.append_assoc, List.map_append]
  header := h.header.trans h'.header

theorem adds_addAVPs (m : Message) (as : List AVP) : Adds m as (m.addAVPs as) where
  items := by rw [Message.addAVPs_eq, Message.foldl_addItem_items]
  header := by rw [Message.addAVPs_eq]; exact Message.foldl_addItem_header _ _

/-- Fields are added as they stand, unless an address is invalid. -/
theorem addFields_ok {m m' : Message} {fields : List Field} :
    addFields m fields = .ok m' → Adds m (fields.map Field.avp) m' := by
  unfold addFields
  induction fields generalizing m with
  | nil =>
    intro h
    cases h
    exact ⟨(List.append_nil _).symm, .refl _⟩
  | cons f fields ih =>
    intro h
    rw [List.foldlM_cons] at h
    obtain ⟨m1, hf, hrest⟩ := bind_eq_ok.1 h
    obtain ⟨-, rfl⟩ := Message.newAVP_ok.1 hf
    have hone : Adds m [f.avp] (m.addAVP f.avp) := ⟨rfl, m.addItem_header _⟩
    exact hone.trans (ih hrest)

theorem addFields_isOk {fields : List Field}
    (h : ∀ f ∈ fields, checkNewData (.value f.value) = .ok ()) (m : Message) :
    ∃ m', addFields m fields = .ok m' := by
  unfold addFields
  induction fields generalizing m with
  | nil => exact ⟨m, rfl⟩
  | cons f fields ih =>
    obtain ⟨m', hm'⟩ := ih (fun g hg => h g (List.mem_cons_of_mem _ hg)) (m.addAVP f.avp)
    refine ⟨m', ?_⟩
    rw [List.foldlM_cons]
    exact bind_eq_ok.2 ⟨_, Message.newAVP_ok.2 ⟨h f List.mem_cons_self, rfl⟩, hm'⟩

theorem baseAnswer_answers (resultCode : UInt32) :
    Answers (baseAnswer drawn request resultCode).header request.header where
  isAnswer := by
    show ((0 : UInt8) &&& requestFlag == requestFlag) = false
    decide
  commandCode := (request.answer_answers drawn resultCode).commandCode
  hopByHopID := (request.answer_answers drawn resultCode).hopByHopID
  endToEndID := (request.answer_answers drawn resultCode).endToEndID

theorem addressesFor_ok {what : String} {addresses : List Address} :
    addressesFor what cfg = .ok addresses ↔
      cfg.hostIPAddresses ≠ [] ∧ addresses = cfg.hostIPAddresses := by
  unfold addressesFor capabilityAddresses
  split
  next h => exact ⟨(fun h => by cases h), fun h' => absurd h h'.1⟩
  next h => exact ⟨fun h' => ⟨h, by cases h'; rfl⟩, fun h' => by rw [h'.2]; rfl⟩

theorem buildCER_adds {drawn : Drawn} {s : Snapshot} {m : Message}
    (h : buildCER drawn s cfg = .ok m) :
    Adds (newRequest drawn BaseCommand.capabilitiesExchange.code 0 s)
      ((localFields cfg cfg.hostIPAddresses).map Field.avp ++
        (supportedVendorAVPs cfg (advertisedApplications cfg) ++
          ((inbandField cfg).map Field.avp ++
            (applicationAVPs cfg (advertisedApplications cfg) ++
              (firmwareField cfg).map Field.avp)))) m := by
  obtain ⟨addresses, haddresses, h⟩ := bind_eq_ok.1 h
  obtain ⟨-, rfl⟩ := addressesFor_ok.1 haddresses
  obtain ⟨m1, h1, h⟩ := bind_eq_ok.1 h
  obtain ⟨m2, h2, h⟩ := bind_eq_ok.1 h
  exact (addFields_ok h1).trans ((adds_addAVPs _ _).trans ((addFields_ok h2).trans
    ((adds_addAVPs _ _).trans (addFields_ok h))))

theorem buildCEA_adds {drawn : Drawn} {request : Message} {m : Message}
    (h : buildCEA drawn request cfg successCode = .ok m) :
    Adds (baseAnswer drawn request successCode)
      ((localFields cfg cfg.hostIPAddresses).map Field.avp ++
        (supportedVendorAVPs cfg (advertisedApplications cfg) ++
          (applicationAVPs cfg (advertisedApplications cfg) ++
            (firmwareField cfg).map Field.avp))) m := by
  obtain ⟨addresses, haddresses, h⟩ := bind_eq_ok.1 h
  obtain ⟨-, rfl⟩ := addressesFor_ok.1 haddresses
  obtain ⟨m1, h1, h⟩ := bind_eq_ok.1 h
  exact (addFields_ok h1).trans ((adds_addAVPs _ _).trans ((adds_addAVPs _ _).trans
    (addFields_ok h)))

/-- Only an address can be refused, so a capabilities message is built from valid ones. -/
theorem localFields_checked (h : ∀ a ∈ cfg.hostIPAddresses, a.valid = .ok ()) :
    ∀ f ∈ localFields cfg cfg.hostIPAddresses, checkNewData (.value f.value) = .ok () := by
  intro f hf
  unfold localFields optionalField at hf
  simp only [List.mem_append, List.mem_cons, List.mem_map, List.not_mem_nil, or_false] at hf
  rcases hf with (((rfl | rfl) | ⟨a, ha, rfl⟩) | (rfl | rfl)) | hf
  · rfl
  · rfl
  · exact h a ha
  · rfl
  · rfl
  split at hf
  · rw [List.mem_singleton.1 hf]
    rfl
  · cases hf

theorem optionalField_checked {setting code : UInt32} {flags : UInt8} {v : UInt32} :
    ∀ f ∈ optionalField setting ⟨code, flags, .unsigned32 v⟩,
      checkNewData (.value f.value) = .ok () := by
  intro f hf
  unfold optionalField at hf
  split at hf
  · rw [List.mem_singleton.1 hf]
    rfl
  · cases hf

theorem buildCER_isOk (hne : cfg.hostIPAddresses ≠ [])
    (hvalid : ∀ a ∈ cfg.hostIPAddresses, a.valid = .ok ()) (drawn : Drawn) (s : Snapshot) :
    ∃ m, buildCER drawn s cfg = .ok m := by
  obtain ⟨m1, h1⟩ := addFields_isOk (localFields_checked hvalid)
    (newRequest drawn BaseCommand.capabilitiesExchange.code 0 s)
  obtain ⟨m2, h2⟩ := @addFields_isOk (inbandField cfg) optionalField_checked
    (addSupportedVendors m1 cfg (advertisedApplications cfg))
  obtain ⟨m, h⟩ := @addFields_isOk (firmwareField cfg) optionalField_checked
    (addApplications m2 cfg (advertisedApplications cfg))
  exact ⟨m, bind_eq_ok.2 ⟨_, addressesFor_ok.2 ⟨hne, rfl⟩, bind_eq_ok.2 ⟨m1, h1,
    bind_eq_ok.2 ⟨m2, h2, h⟩⟩⟩⟩

theorem buildCEA_isOk (hne : cfg.hostIPAddresses ≠ [])
    (hvalid : ∀ a ∈ cfg.hostIPAddresses, a.valid = .ok ()) (drawn : Drawn) (request : Message) :
    ∃ m, buildCEA drawn request cfg successCode = .ok m := by
  obtain ⟨m1, h1⟩ := addFields_isOk (localFields_checked hvalid)
    (baseAnswer drawn request successCode)
  obtain ⟨m, h⟩ := @addFields_isOk (firmwareField cfg) optionalField_checked
    (addApplications (addSupportedVendors m1 cfg (advertisedApplications cfg)) cfg
      (advertisedApplications cfg))
  exact ⟨m, bind_eq_ok.2 ⟨_, addressesFor_ok.2 ⟨hne, rfl⟩, bind_eq_ok.2 ⟨m1, h1, h⟩⟩⟩

end Diameter.Base
