import Diameter.Wire.ReadWrite

/-!
# Wire.WriteRead

Decoding what was encoded. A message whose AVPs are well typed for a dictionary is read back, by
the same dictionary, as the message that was written: no error, the same header, the same tree.

* `AVP.wellTyped`: the typing of an AVP tree against a dictionary, within a nesting limit.
* `decode_encode_aux`: the round trip of one AVP and of a list of members, whatever follows them.
* `readMessage_serialize`: the whole message.
-/

namespace Diameter

open Lib Datatype Dict

variable {ms : List (Option AVP)} {levels : Nat} {s : Snapshot} {app : UInt32}
variable {v : Value} {code vendorID : UInt32} {flags : UInt8} {length : Nat} {h : Header}

mutual

/-- A known AVP carries a value of its dictionary type, or members when that is Grouped; an
unknown AVP carries octets. `levels` more Grouped levels are allowed. -/
def AVP.wellTyped (s : Snapshot) (app : UInt32) : Nat → AVP → Bool
  | levels, ⟨code, flags, _, vendorID, .group ms⟩ =>
    hasVendor flags == (vendorID != 0) &&
    match s.avp app code vendorID, levels with
    | some d, levels + 1 => d.data.type == .grouped && membersWellTyped s app levels ms
    | _, _ => false
  | _, ⟨code, flags, _, vendorID, .value v⟩ =>
    hasVendor flags == (vendorID != 0) &&
    match s.avp app code vendorID with
    | some d => d.data.type != .grouped && decide (HasType d.data.type v)
    | none => decide (HasType .unknown v)
  | _, _ => false

def membersWellTyped (s : Snapshot) (app : UInt32) : Nat → List (Option AVP) → Bool
  | _, [] => true
  | _, none :: _ => false
  | levels, some a :: ms => a.wellTyped s app levels && membersWellTyped s app levels ms

end

mutual

/-- The tree with every `Length` as the decoder computes it. -/
def AVP.relength : AVP → AVP
  | ⟨code, flags, _, vendorID, .group ms⟩ =>
    ⟨code, flags, headerLen flags + membersLen ms, vendorID, .group (membersRelength ms)⟩
  | ⟨code, flags, _, vendorID, data⟩ => ⟨code, flags, headerLen flags + data.len, vendorID, data⟩

def membersRelength : List (Option AVP) → List (Option AVP)
  | [] => []
  | none :: ms => none :: membersRelength ms
  | some a :: ms => some a.relength :: membersRelength ms

end

mutual

/-- The tree without its `Length` fields: two AVPs are structurally equal when these are. -/
def AVP.eraseLength : AVP → AVP
  | ⟨code, flags, _, vendorID, .group ms⟩ =>
    ⟨code, flags, 0, vendorID, .group (membersEraseLength ms)⟩
  | ⟨code, flags, _, vendorID, data⟩ => ⟨code, flags, 0, vendorID, data⟩

def membersEraseLength : List (Option AVP) → List (Option AVP)
  | [] => []
  | none :: ms => none :: membersEraseLength ms
  | some a :: ms => some a.eraseLength :: membersEraseLength ms

end

theorem eraseLength_relength_aux :
    (∀ a : AVP, a.relength.eraseLength = a.eraseLength) ∧
    ∀ ms, membersEraseLength (membersRelength ms) = membersEraseLength ms := by
  apply AVP.tree_induction
  case leaf =>
    rintro ⟨code, flags, length, vendorID, data⟩ hleaf
    match data with
    | .group ms => exact absurd rfl (hleaf ms)
    | .nil | .addressPtr _ | .nilGroup | .value _ => rfl
  case group =>
    intro code flags length vendorID ms ih
    simp [AVP.relength, AVP.eraseLength, ih]
  case nil => rfl
  case none => intro ms ih; simp [membersRelength, membersEraseLength, ih]
  case some =>
    intro a ms iha ihm
    simp [membersRelength, membersEraseLength, iha, ihm]

theorem len_relength_aux :
    (∀ a : AVP, a.sound = true → a.relength.len = a.len) ∧
    ∀ ms, membersSound ms = true → membersLen (membersRelength ms) = membersLen ms := by
  apply AVP.sound_induction
  case address | nilGroup | value | nil => intros; rfl
  case group =>
    intro code flags length vendorID ms _ ih
    simp [AVP.relength, AVP.len, ih]
  case some =>
    intro a ms _ _ iha ihm
    simp [membersRelength, membersLen, iha, ihm]

/-! ## Well-typed trees can be written -/

theorem checkValue_of_hasType {t : TypeID} (h : HasType t v) :
    checkValue v = .ok () := by
  cases v with
  | address a => simp [checkValue, checkAddress, Address.valid_of_isOk h.expressible]
  | _ => rfl

theorem wellTyped_value
    (h : AVP.wellTyped s app levels ⟨code, flags, length, vendorID, .value v⟩ = true) :
    hasVendor flags = (vendorID != 0) ∧
    ((∃ d, s.avp app code vendorID = some d ∧ d.data.type ≠ .grouped ∧ HasType d.data.type v) ∨
      (s.avp app code vendorID = none ∧ HasType .unknown v)) := by
  simp only [AVP.wellTyped, Bool.and_eq_true, beq_iff_eq] at h
  refine ⟨h.1, ?_⟩
  cases hd : s.avp app code vendorID with
  | none =>
    rw [hd] at h
    exact .inr ⟨rfl, of_decide_eq_true h.2⟩
  | some d =>
    rw [hd] at h
    simp only [Bool.and_eq_true, bne_iff_ne, decide_eq_true_eq] at h
    exact .inl ⟨d, rfl, h.2.1, h.2.2⟩

theorem wellTyped_group
    (h : AVP.wellTyped s app levels ⟨code, flags, length, vendorID, .group ms⟩ = true) :
    hasVendor flags = (vendorID != 0) ∧
    ∃ d l, s.avp app code vendorID = some d ∧ d.data.type = .grouped ∧ levels = l + 1 ∧
      membersWellTyped s app l ms = true := by
  simp only [AVP.wellTyped, Bool.and_eq_true, beq_iff_eq] at h
  refine ⟨h.1, ?_⟩
  cases hd : s.avp app code vendorID with
  | none => rw [hd] at h; cases h.2
  | some d =>
    cases levels with
    | zero => rw [hd] at h; cases h.2
    | succ l =>
      rw [hd] at h
      simp only [Bool.and_eq_true, beq_iff_eq] at h
      exact ⟨d, l, rfl, h.2.1, rfl, h.2.2⟩

theorem wellTyped_sound_aux (s : Snapshot) (app : UInt32) :
    (∀ a : AVP, ∀ levels, a.wellTyped s app levels = true → a.sound = true ∧ a.len % 4 = 0) ∧
    ∀ ms, ∀ levels, membersWellTyped s app levels ms = true →
      membersSound ms = true ∧ membersLen ms % 4 = 0 := by
  apply AVP.tree_induction
  case leaf =>
    rintro ⟨code, flags, length, vendorID, data⟩ hleaf levels h
    match data with
    | .group ms => exact absurd rfl (hleaf ms)
    | .nil | .addressPtr _ | .nilGroup => simp [AVP.wellTyped] at h
    | .value v =>
      obtain ⟨t, ht, hg⟩ : ∃ t, HasType t v ∧ t ≠ .grouped := by
        obtain ⟨-, ⟨d, -, hg, ht⟩ | ⟨-, ht⟩⟩ := wellTyped_value h
        · exact ⟨_, ht, hg⟩
        · exact ⟨_, ht, by decide⟩
      have hpad : v.padding = pad v.len := Value.padding_eq (by rw [ht.typeID]; exact hg)
      have h1 := headerLen_mod flags
      have h2 := add_pad_mod v.len
      refine ⟨sound_value_iff.2 ⟨length_serialize ht, checkValue_of_hasType ht⟩, ?_⟩
      simp only [AVP.len]
      rw [hpad]
      omega
  case group =>
    intro code flags length vendorID ms ih levels h
    obtain ⟨-, d, l, -, -, -, hms⟩ := wellTyped_group h
    have h1 := headerLen_mod flags
    have h2 := ih l hms
    refine ⟨by simpa [AVP.sound] using h2.1, ?_⟩
    simp only [AVP.len]
    omega
  case nil => intro levels _; exact ⟨rfl, rfl⟩
  case none => intro ms _ levels h; simp [membersWellTyped] at h
  case some =>
    intro a ms iha ihm levels h
    simp only [membersWellTyped, Bool.and_eq_true] at h
    have h1 := iha levels h.1
    have h2 := ihm levels h.2
    simp only [membersSound, membersLen, Bool.and_eq_true]
    exact ⟨⟨h1.1, h2.1⟩, by omega⟩

theorem sound_of_wellTyped {a : AVP} (h : a.wellTyped s app levels = true) : a.sound = true :=
  ((wellTyped_sound_aux s app).1 a levels h).1

theorem membersSound_of_wellTyped (h : membersWellTyped s app levels ms = true) :
    membersSound ms = true :=
  ((wellTyped_sound_aux s app).2 ms levels h).1

/-! ## The round trip -/

theorem decodeLeaf_serialize {d : Dict.AVP} (h : HasType d.data.type v) :
    decodeLeaf d v.serialize = .ok v := by
  rw [decodeLeaf, decode_serialize h]
  simp only
  rw [if_neg (by rw [length_serialize h]; exact not_not.2 rfl)]

theorem decode_value_encode {failed : Bool}
    (h : AVP.wellTyped s app levels ⟨code, flags, length, vendorID, .value v⟩ = true)
    (hlt : headerLen flags + v.len < 16777216) (rest : Bytes) :
    decodeAVPAt s app levels failed
        (AVP.encode ⟨code, flags, length, vendorID, .value v⟩ ++ rest) =
      (AVP.relength ⟨code, flags, length, vendorID, .value v⟩, none) := by
  obtain ⟨hv, hdef⟩ := wellTyped_value h
  have hser : v.serialize.length = v.len := by
    obtain ⟨d, -, -, ht⟩ | ⟨-, ht⟩ := hdef <;> exact length_serialize ht
  have hframe : readFrame (AVP.encode ⟨code, flags, length, vendorID, .value v⟩ ++ rest) =
      .ok ⟨code, flags, headerLen flags + v.serialize.length, vendorID, v.serialize⟩ := by
    rw [AVP.encode, ← hser, ← List.append_assoc, List.append_assoc]
    refine readFrame_complete (by rw [hser]; exact hlt) (fun hf => ?_) _
    simpa [hf] using hv
  rw [decodeAVPAt_frame hframe]
  obtain ⟨d, hd, hg, ht⟩ | ⟨hd, ht⟩ := hdef
  · simp [decodePayload, hd, hg, decodeLeaf_serialize ht, AVP.relength, Data.len, hser]
  obtain ⟨b, rfl⟩ : ∃ b, v = .unknown b := by
    have := ht.typeID
    cases v <;> first | exact ⟨_, rfl⟩ | cases this
  simp [decodePayload, hd, AVP.relength, Data.len, Value.serialize, Value.len]

theorem decode_encode_aux (s : Snapshot) (app : UInt32) :
    (∀ a : AVP, ∀ levels failed rest, a.wellTyped s app levels = true →
      a.len ≤ maxMessageLength →
      decodeAVPAt s app levels failed (a.encode ++ rest) = (a.relength, none)) ∧
    ∀ ms, ∀ what levels failed n, membersWellTyped s app levels ms = true →
      membersLen ms ≤ maxMessageLength →
      ∃ avps : List AVP, avps.map some = membersRelength ms ∧
        RunsLoop what failed (decodeAVPAt s app levels failed) (encodeMembers ms) n
          ⟨avps, [], .done⟩ := by
  apply AVP.tree_induction
  case leaf =>
    rintro ⟨code, flags, length, vendorID, data⟩ hleaf levels failed rest h hlen
    match data with
    | .group ms => exact absurd rfl (hleaf ms)
    | .nil | .addressPtr _ | .nilGroup => simp [AVP.wellTyped] at h
    | .value v =>
      refine decode_value_encode h ?_ rest
      simp only [AVP.len, maxMessageLength] at hlen
      omega
  case group =>
    intro code flags length vendorID ms ih levels failed rest h hlen
    obtain ⟨hv, d, l, hd, hg, rfl, hms⟩ := wellTyped_group h
    simp only [AVP.len, maxMessageLength] at hlen
    have henc : (encodeMembers ms).length = membersLen ms :=
      length_encodeMembers (membersSound_of_wellTyped hms)
    have hframe : readFrame (AVP.encode ⟨code, flags, length, vendorID, .group ms⟩ ++ rest) =
        .ok ⟨code, flags, headerLen flags + (encodeMembers ms).length, vendorID,
          encodeMembers ms⟩ := by
      rw [AVP.encode, ← henc]
      refine readFrame_complete (by omega) (fun hf => ?_) _
      simpa [hf] using hv
    obtain ⟨avps, havps, hrun⟩ := ih "grouped AVP" l
      (failed || Frame.isFailedAVP ⟨code, flags, headerLen flags + (encodeMembers ms).length,
        vendorID, encodeMembers ms⟩) 0 hms (by rw [maxMessageLength]; omega)
    rw [decodeAVPAt_frame hframe]
    simp only [decodePayload, hd, hg, if_true, groupDecoder, decodeLoop_eq hrun, havps,
      AVP.relength]
    rw [henc]
  case nil =>
    intro what levels failed n _ _
    exact ⟨[], rfl, .nil⟩
  case none => intro ms _ what levels failed n h; simp [membersWellTyped] at h
  case some =>
    intro a ms iha ihm what levels failed n h hlen
    simp only [membersWellTyped, Bool.and_eq_true] at h
    simp only [membersLen] at hlen
    have hsound := sound_of_wellTyped h.1
    have hdec := iha levels failed (encodeMembers ms) h.1 (by omega)
    have hla := length_encode hsound
    have hlr : a.relength.len = a.len := len_relength_aux.1 a hsound
    obtain ⟨avps, havps, hrun⟩ := ihm what levels failed (n + a.len) h.2 (by omega)
    have hpos : 0 < a.len := len_pos hsound
    refine ⟨a.relength :: avps, by simp [membersRelength, havps], ?_⟩
    have hne : a.encode ++ encodeMembers ms ≠ [] := by
      intro hnil
      have := congrArg List.length hnil
      rw [List.length_append, hla, List.length_nil] at this
      omega
    rw [encodeMembers]
    exact .next hne hdec (by simp) (by simp) (by rw [hlr]; exact hpos)
      (by rw [hlr, List.length_append, hla]; omega)
      (by rw [hlr, drop_append_of_length hla]; exact hrun)

/-! ## Messages -/

theorem headerFields_octets {l : Nat} (hl : l ≤ maxMessageLength)
    (hc : h.commandCode.toNat < 16777216) :
    headerFields (h.octets l) = { h with messageLength := UInt32.ofNat l } := by
  have hlt : l < 16777216 := by rw [maxMessageLength] at hl; omega
  have hfields : headerFields (h.octets l) =
      ⟨h.version, UInt32.ofNat (ofBigEndian (bigEndian 3 l)), h.commandFlags,
        UInt32.ofNat (ofBigEndian (bigEndian 3 h.commandCode.toNat)),
        UInt32.ofNat (ofBigEndian (bigEndian 4 h.applicationID.toNat)),
        UInt32.ofNat (ofBigEndian (bigEndian 4 h.hopByHopID.toNat)),
        UInt32.ofNat (ofBigEndian (bigEndian 4 h.endToEndID.toNat))⟩ := by
    rw [Header.octets_eq h hl]; rfl
  rw [hfields]
  simp only [uint32_ofBigEndian_bigEndian]
  rw [ofBigEndian_bigEndian, ofBigEndian_bigEndian, Nat.mod_eq_of_lt (by omega),
    Nat.mod_eq_of_lt (by omega), UInt32.ofNat_toNat]

/-- What a message must meet to be read back: the conditions on its header, its AVPs and its
length under which the decoder accepts all of it. -/
structure Message.Encodable (m : Message) (s : Snapshot) : Prop where
  version : m.header.version = 1
  commandCode : m.header.commandCode.toNat < 16777216
  wellTyped : membersWellTyped s m.header.applicationID s.groupedDepthLimit m.avps = true
  length : m.len ≤ maxMessageLength
  rules : m.header.HasRules s

theorem decodeAVPs_encodeMembers
    (hwt : membersWellTyped s h.applicationID s.groupedDepthLimit ms = true)
    (hlen : membersLen ms ≤ maxMessageLength) :
    ∃ m' : Message, Message.decodeAVPs { header := h } (encodeMembers ms) s = (m', none) ∧
      m'.header = h ∧ m'.decodeErr = none ∧ m'.avps = membersRelength ms := by
  obtain ⟨avps, havps, hrun⟩ :=
    (decode_encode_aux s h.applicationID).2 ms "AVP" s.groupedDepthLimit false 0 hwt hlen
  have hloop := decodeLoop_eq hrun
  unfold Message.decodeAVPs
  simp only [decodeAVP, Nat.sub_zero]
  rw [hloop]
  refine ⟨_, rfl, rfl, rfl, ?_⟩
  simp [Message.avps, Function.comp_def, havps]

theorem Header.check_ok {l : Nat} (hv : h.version = 1) (hl : l ≤ maxMessageLength)
    (hge : headerLength ≤ l) (hmod : l % 4 = 0) :
    Header.check { h with messageLength := UInt32.ofNat l } = .ok () := by
  have hnat : (UInt32.ofNat l).toNat = l := by
    apply UInt32.toNat_ofNat_of_lt'
    simp only [maxMessageLength, UInt32.size] at *
    omega
  simp [Header.check, hv, hnat, hmod, Nat.not_lt.2 hge]

/-- Reading back a message whose AVPs can be written: what the AVP loop yields on their octets is
the result. -/
theorem readMessage_of_decodeAVPs {m m' : Message} (hv : m.header.version = 1)
    (hcode : m.header.commandCode.toNat < 16777216) (hlen : m.len ≤ maxMessageLength)
    (hrules : m.header.HasRules s) (hsound : membersSound m.avps = true)
    (haligned : membersLen m.avps % 4 = 0)
    (hdec : Message.decodeAVPs
      { header := { m.header with messageLength := UInt32.ofNat m.len } }
      (encodeMembers m.avps) s = (m', none))
    (herr : m'.decodeErr = none) :
    ∃ out, m.serialize = .ok out ∧ readMessage out s = (some m', none) := by
  have hnat : (UInt32.ofNat m.len).toNat = m.len := by
    apply UInt32.toNat_ofNat_of_lt'
    simp only [maxMessageLength, UInt32.size] at *
    omega
  have hhdr : (m.header.octets m.len).length = headerLength := Header.length_serialize _
  have hfields := headerFields_octets hlen hcode
  have hmod : m.len % 4 = 0 := by rw [Message.len, headerLength]; omega
  have hcheck : (headerFields (m.header.octets m.len)).check = .ok () := by
    rw [hfields]
    exact Header.check_ok hv hlen (by rw [Message.len]; omega) hmod
  have hdeclared : (headerFields (m.header.octets m.len)).messageLength.toNat
      = headerLength + (encodeMembers m.avps).length := by
    rw [hfields, length_encodeMembers hsound]
    exact hnat
  have hread := readMessage_eq hhdr hcheck hdeclared (by rw [hfields]; exact hrules)
  rw [hfields, hdec] at hread
  refine ⟨_, Message.serialize_eq hsound hlen, ?_⟩
  rw [hread]
  simp only [Message.strictResult, herr]
  cases s.strict <;> rfl

theorem Message.Encodable.read {m : Message} (h : m.Encodable s) :
    ∃ out m', m.serialize = .ok out ∧ readMessage out s = (some m', none) ∧
      m'.decodeErr = none ∧ m'.header = { m.header with messageLength := UInt32.ofNat m.len } ∧
      m'.avps = membersRelength m.avps := by
  obtain ⟨hsound, haligned⟩ :=
    (wellTyped_sound_aux s m.header.applicationID).2 m.avps _ h.wellTyped
  have hlen := h.length
  obtain ⟨m', hdec, hheader, herr, havps⟩ := decodeAVPs_encodeMembers (s := s)
    (h := { m.header with messageLength := UInt32.ofNat m.len })
    h.wellTyped (by rw [Message.len] at hlen; omega)
  obtain ⟨out, hout, hread⟩ :=
    readMessage_of_decodeAVPs h.version h.commandCode hlen h.rules hsound haligned hdec herr
  exact ⟨out, m', hout, hread, herr, hheader, havps⟩

/-- Decode after encode: the message is read back without an error, with the same header, its
length filled in, and the same tree of AVPs. -/
theorem readMessage_serialize {m : Message} {s : Snapshot} (h : m.Encodable s) :
    ∃ out m', m.serialize = .ok out ∧ readMessage out s = (some m', none) ∧
      m'.decodeErr = none ∧ m'.header = { m.header with messageLength := UInt32.ofNat m.len } ∧
      m'.header.messageLength.toNat = m.len ∧
      membersEraseLength m'.avps = membersEraseLength m.avps := by
  obtain ⟨out, m', hout, hread, herr, hheader, havps⟩ := h.read
  refine ⟨out, m', hout, hread, herr, hheader, ?_, ?_⟩
  · have hlen := h.length
    rw [hheader]
    apply UInt32.toNat_ofNat_of_lt'
    simp only [maxMessageLength, UInt32.size] at *
    omega
  · rw [havps, eraseLength_relength_aux.2]

/-- A request with a group of one unknown AVP. -/
def groupRequest : Message where
  header := ⟨1, 0, requestFlag, 272, 0, 1, 2⟩
  items := [⟨some (newAVP 1000 mbit 0
    (.group [some (newAVP 2000 0 10415 (.value (.unknown [0x61])))])), none⟩]

theorem readMessage_serialize_groupRequest :
    groupRequest.Encodable groupSnapshot ∧
    ∃ out m', groupRequest.serialize = .ok out ∧
      readMessage out groupSnapshot = (some m', none) ∧ m'.decodeErr = none ∧
      m'.header = { groupRequest.header with messageLength := UInt32.ofNat groupRequest.len } ∧
      m'.header.messageLength.toNat = groupRequest.len ∧
      membersEraseLength m'.avps = membersEraseLength groupRequest.avps :=
  have h : groupRequest.Encodable groupSnapshot :=
    ⟨rfl, by decide, by decide, by decide, fun _ h => by cases h⟩
  ⟨h, readMessage_serialize h⟩

end Diameter
