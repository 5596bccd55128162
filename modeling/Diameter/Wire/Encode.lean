import Diameter.Wire.Avp

/-!
# Wire.Encode

The octets an AVP denotes, and that `SerializeTo` writes exactly these.

* `AVP.encode`: header, payload and zero padding, the members of a group one after the other.
* `AVP.sound`: serialization cannot fail: the payloads have their declared lengths, addresses
  are valid, and no member is missing.
* `serializeTo_eq`: a sound AVP written to the front of a buffer that has room for it replaces
  the first `len` octets by `encode` and keeps the others.
* `AVP.padMask`: which of those octets are padding.
-/

namespace Diameter

open Lib Datatype

variable {ms : List (Option AVP)}
variable {a : AVP} {b : Bytes}

mutual

def AVP.encode : AVP → Bytes
  | ⟨code, flags, _, vendorID, .value v⟩ =>
    headerBytes code flags vendorID v.len ++ (v.serialize ++ List.replicate v.padding 0)
  | ⟨code, flags, _, vendorID, .addressPtr (some a)⟩ =>
    headerBytes code flags vendorID a.len ++ (a.serialize ++ List.replicate (pad a.len) 0)
  | ⟨code, flags, _, vendorID, .nilGroup⟩ => headerBytes code flags vendorID 0
  | ⟨code, flags, _, vendorID, .group ms⟩ =>
    headerBytes code flags vendorID (membersLen ms) ++ encodeMembers ms
  | ⟨_, _, _, _, .nil⟩ | ⟨_, _, _, _, .addressPtr none⟩ => []

def encodeMembers : List (Option AVP) → Bytes
  | [] => []
  | none :: ms => encodeMembers ms
  | some a :: ms => a.encode ++ encodeMembers ms

end

mutual

def AVP.sound : AVP → Bool
  | ⟨_, _, _, _, .value v⟩ => (v.serialize.length == v.len) && (checkValue v).isOk
  | ⟨_, _, _, _, .addressPtr (some a)⟩ => (checkAddress a).isOk
  | ⟨_, _, _, _, .nilGroup⟩ => true
  | ⟨_, _, _, _, .group ms⟩ => membersSound ms
  | ⟨_, _, _, _, .nil⟩ | ⟨_, _, _, _, .addressPtr none⟩ => false

def membersSound : List (Option AVP) → Bool
  | [] => true
  | none :: _ => false
  | some a :: ms => a.sound && membersSound ms

end

mutual

/-- Marks the padding octets of an AVP and of its members. -/
def AVP.padMask : AVP → List Bool
  | ⟨_, flags, _, _, .value v⟩ =>
    List.replicate (headerLen flags + v.len) false ++ List.replicate v.padding true
  | ⟨_, flags, _, _, .addressPtr (some a)⟩ =>
    List.replicate (headerLen flags + a.len) false ++ List.replicate (pad a.len) true
  | ⟨_, flags, _, _, .group ms⟩ => List.replicate (headerLen flags) false ++ membersPadMask ms
  | ⟨_, flags, _, _, .nilGroup⟩ => List.replicate (headerLen flags) false
  | ⟨_, _, _, _, .nil⟩ | ⟨_, _, _, _, .addressPtr none⟩ => []

def membersPadMask : List (Option AVP) → List Bool
  | [] => []
  | none :: ms => membersPadMask ms
  | some a :: ms => a.padMask ++ membersPadMask ms

end

@[simp] theorem length_headerBytes (code : UInt32) (flags : UInt8) (vendorID : UInt32) (n : Nat) :
    (headerBytes code flags vendorID n).length = headerLen flags := by
  unfold headerBytes headerLen
  split <;> simp

theorem headerLen_ge (flags : UInt8) : 8 ≤ headerLen flags := by
  unfold headerLen; split <;> omega

theorem headerLen_mod (flags : UInt8) : headerLen flags % 4 = 0 := by
  unfold headerLen; split <;> rfl

theorem sound_value_iff {code : UInt32} {flags : UInt8} {length : Nat} {vendorID : UInt32}
    {v : Value} :
    AVP.sound ⟨code, flags, length, vendorID, .value v⟩ = true ↔
      v.serialize.length = v.len ∧ checkValue v = .ok () := by
  simp only [AVP.sound, Bool.and_eq_true, beq_iff_eq]
  refine and_congr_right fun _ => ⟨fun h => ?_, fun h => by rw [h]; rfl⟩
  cases hc : checkValue v with
  | error e => rw [hc] at h; cases h
  | ok u => rfl

theorem sound_addressPtr_iff {code : UInt32} {flags : UInt8} {length : Nat} {vendorID : UInt32}
    {a : Address} :
    AVP.sound ⟨code, flags, length, vendorID, .addressPtr (some a)⟩ = true ↔
      checkAddress a = .ok () := by
  simp only [AVP.sound]
  refine ⟨fun h => ?_, fun h => by rw [h]; rfl⟩
  cases hc : checkAddress a with
  | error e => rw [hc] at h; cases h
  | ok u => rfl

/-- One proof for what can be written, AVPs and lists of members alike. -/
theorem AVP.sound_induction {P : AVP → Prop} {Q : List (Option AVP) → Prop}
    (address : ∀ code flags length vendorID a, checkAddress a = .ok () →
      P ⟨code, flags, length, vendorID, .addressPtr (some a)⟩)
    (nilGroup : ∀ code flags length vendorID, P ⟨code, flags, length, vendorID, .nilGroup⟩)
    (value : ∀ code flags length vendorID v, v.serialize.length = v.len → checkValue v = .ok () →
      P ⟨code, flags, length, vendorID, .value v⟩)
    (group : ∀ code flags length vendorID ms, membersSound ms = true → Q ms →
      P ⟨code, flags, length, vendorID, .group ms⟩) (nil : Q [])
    (some : ∀ a ms, a.sound = true → membersSound ms = true → P a → Q ms → Q (some a :: ms)) :
    (∀ a : AVP, a.sound = true → P a) ∧ ∀ ms, membersSound ms = true → Q ms := by
  apply AVP.tree_induction
  case leaf =>
    rintro ⟨code, flags, length, vendorID, data⟩ hleaf hs
    match data with
    | .nil => simp [AVP.sound] at hs
    | .addressPtr none => simp [AVP.sound] at hs
    | .addressPtr (.some a) => exact address _ _ _ _ a (sound_addressPtr_iff.1 hs)
    | .nilGroup => exact nilGroup _ _ _ _
    | .value v => exact value _ _ _ _ v (sound_value_iff.1 hs).1 (sound_value_iff.1 hs).2
    | .group ms => exact absurd rfl (hleaf ms)
  case group =>
    intro code flags length vendorID ms ih hs
    have hms : membersSound ms = true := by simpa [AVP.sound] using hs
    exact group _ _ _ _ _ hms (ih hms)
  case nil => exact fun _ => nil
  case none => intro ms _ hs; simp [membersSound] at hs
  case some =>
    intro a ms iha ihm hs
    simp only [membersSound, Bool.and_eq_true] at hs
    exact some a ms hs.1 hs.2 (iha hs.1) (ihm hs.2)

/-! ## Lengths -/

theorem length_encode_aux :
    (∀ a : AVP, a.sound = true → a.encode.length = a.len) ∧
    ∀ ms, membersSound ms = true → (encodeMembers ms).length = membersLen ms := by
  apply AVP.sound_induction
  case address =>
    intro code flags length vendorID a _
    simp [AVP.encode, AVP.len, a.length_serialize, Nat.add_assoc]
  case nilGroup => simp [AVP.encode, AVP.len]
  case value =>
    intro code flags length vendorID v hlen _
    simp [AVP.encode, AVP.len, hlen, Nat.add_assoc]
  case group =>
    intro code flags length vendorID ms _ ih
    simp [AVP.encode, AVP.len, ih]
  case nil => rfl
  case some =>
    intro a ms _ _ iha ihm
    simp [encodeMembers, membersLen, iha, ihm]

theorem length_encode (h : a.sound = true) : a.encode.length = a.len :=
  length_encode_aux.1 a h

theorem len_pos (h : a.sound = true) : 0 < a.len := by
  obtain ⟨code, flags, length, vendorID, data⟩ := a
  have hge := headerLen_ge flags
  match data with
  | .nil => simp [AVP.sound] at h
  | .addressPtr none | .addressPtr (some _) | .nilGroup | .value _ | .group _ =>
    simp only [AVP.len]; omega

theorem length_encodeMembers (h : membersSound ms = true) :
    (encodeMembers ms).length = membersLen ms :=
  length_encode_aux.2 ms h

theorem length_padMask_aux :
    (∀ a : AVP, a.sound = true → a.padMask.length = a.len) ∧
    ∀ ms, membersSound ms = true → (membersPadMask ms).length = membersLen ms := by
  apply AVP.sound_induction
  case address | nilGroup | value => simp [AVP.padMask, AVP.len]
  case group =>
    intro code flags length vendorID ms _ ih
    simp [AVP.padMask, AVP.len, ih]
  case nil => rfl
  case some =>
    intro a ms _ _ iha ihm
    simp [membersPadMask, membersLen, iha, ihm]

theorem length_padMask (h : a.sound = true) : a.padMask.length = a.len :=
  length_padMask_aux.1 a h

theorem length_membersPadMask (h : membersSound ms = true) :
    (membersPadMask ms).length = membersLen ms :=
  length_padMask_aux.2 ms h

theorem hasNil_of_sound_aux :
    (∀ a : AVP, a.sound = true → a.hasNil = false) ∧
    ∀ ms, membersSound ms = true → membersHaveNil ms = false := by
  apply AVP.sound_induction
  case address | nilGroup | value | nil => intros; rfl
  case group =>
    intro code flags length vendorID ms _ ih
    simpa [AVP.hasNil] using ih
  case some =>
    intro a ms _ _ iha ihm
    simp [membersHaveNil, iha, ihm]

theorem membersHaveNil_of_sound (h : membersSound ms = true) : membersHaveNil ms = false :=
  hasNil_of_sound_aux.2 ms h

/-! ## Writing into a buffer -/

theorem writeAt_zero {src : Bytes} (h : src.length ≤ b.length) :
    writeAt b 0 src = .ok (src ++ b.drop src.length) := by
  simp [writeAt, overwrite, h]

theorem writePayload_header {hdr payload rest : Bytes} {padding : Nat}
    (h : payload.length + padding ≤ rest.length) :
    writePayload (hdr ++ rest) hdr.length payload padding =
      .ok (hdr ++ (payload ++ List.replicate padding 0) ++ rest.drop (payload.length + padding)) := by
  have hfit : hdr.length + payload.length + padding ≤ (hdr ++ rest).length := by
    rw [List.length_append]; omega
  have hdrop : (hdr ++ rest).drop (hdr.length + (payload ++ List.replicate padding 0).length)
      = rest.drop (payload.length + padding) := by
    rw [← List.drop_drop, List.drop_left, List.length_append, List.length_replicate]
  rw [writePayload, if_pos hfit, overwrite, hdrop, List.take_left]

theorem write_leaf {hdr payload : Bytes} {hl padding : Nat} (hhl : hdr.length = hl)
    (hb : hl + payload.length + padding ≤ b.length) :
    (do let b' ← writeAt b 0 hdr; writePayload b' hl payload padding) =
      .ok (hdr ++ (payload ++ List.replicate padding 0)
        ++ b.drop (hl + payload.length + padding)) := by
  subst hhl
  have hrest : payload.length + padding ≤ (b.drop hdr.length).length := by
    rw [List.length_drop]; omega
  rw [writeAt_zero (by omega)]
  change writePayload _ _ _ _ = _
  rw [writePayload_header hrest, List.drop_drop, Nat.add_assoc]

theorem serializeTo_aux :
    (∀ a : AVP, a.sound = true → ∀ b : Bytes, a.len ≤ b.length →
      a.serializeTo b = .ok (a.encode ++ b.drop a.len)) ∧
    ∀ ms, membersSound ms = true → ∀ b : Bytes, membersLen ms ≤ b.length →
      serializeMembers ms b = .ok (encodeMembers ms ++ b.drop (membersLen ms)) := by
  apply AVP.sound_induction
  case address =>
    intro code flags length vendorID a hcheck b hb
    have hfit : headerLen flags + a.serialize.length + pad a.len ≤ b.length := by
      rw [a.length_serialize]; simpa [AVP.len] using hb
    simp only [AVP.serializeTo, hcheck, AVP.encode, AVP.len]
    refine (write_leaf (length_headerBytes _ _ _ _) hfit).trans ?_
    rw [a.length_serialize]
  case nilGroup =>
    intro code flags length vendorID b hb
    have hfit : (headerBytes code flags vendorID 0).length ≤ b.length := by simpa [AVP.len] using hb
    simp only [AVP.serializeTo, AVP.encode, AVP.len, writeAt_zero hfit, length_headerBytes]
  case value =>
    intro code flags length vendorID v hlen hcheck b hb
    have hfit : headerLen flags + v.serialize.length + v.padding ≤ b.length := by
      rw [hlen]; simpa [AVP.len] using hb
    simp only [AVP.serializeTo, hcheck, AVP.encode, AVP.len]
    refine (write_leaf (length_headerBytes _ _ _ _) hfit).trans ?_
    rw [hlen]
  case group =>
    intro code flags length vendorID ms hms ih b hb
    have hfit : (headerBytes code flags vendorID (membersLen ms)).length ≤ b.length := by
      rw [length_headerBytes]; simp only [AVP.len] at hb; omega
    have hrest : membersLen ms ≤ (b.drop (headerLen flags)).length := by
      rw [List.length_drop]; simp only [AVP.len] at hb; omega
    have hhl := length_headerBytes code flags vendorID (membersLen ms)
    simp only [AVP.serializeTo, membersHaveNil_of_sound hms, writeAt_zero hfit, AVP.encode,
      AVP.len, length_headerBytes]
    simp [bind, Except.bind, pure, Except.pure, drop_append_of_length hhl,
      take_append_of_length hhl, ih _ hrest, List.drop_drop]
  case nil => intro b _; simp [serializeMembers, encodeMembers, membersLen]
  case some =>
    intro a ms hs _ iha ihm b hb
    simp only [membersLen] at hb
    have hrest : membersLen ms ≤ (b.drop a.len).length := by rw [List.length_drop]; omega
    have hla := length_encode hs
    simp [serializeMembers, encodeMembers, membersLen, iha b (by omega), bind, Except.bind,
      pure, Except.pure, drop_append_of_length hla, take_append_of_length hla, ihm _ hrest,
      List.drop_drop]

theorem serializeTo_eq (h : a.sound = true) (hb : a.len ≤ b.length) :
    a.serializeTo b = .ok (a.encode ++ b.drop a.len) :=
  serializeTo_aux.1 a h b hb

theorem serializeMembers_eq (h : membersSound ms = true) (hb : membersLen ms ≤ b.length)
    :
    serializeMembers ms b = .ok (encodeMembers ms ++ b.drop (membersLen ms)) :=
  serializeTo_aux.2 ms h b hb

end Diameter
