import Diameter.Wire.DecodeSpec
import Diameter.Wire.Message

/-!
# Wire.ReadWrite

Encoding what was decoded. Whatever the decoder makes of a message, even where payloads could not
be decoded and were kept as they were, writing the result gives back the octets that were read,
except that padding, whose contents a receiver ignores, is written as zeros.

* `AVP.ReadFrom`: what one decoded AVP says about the octets it was read from.
* `decodeAVPAt_readFrom`: every AVP the decoder returns without a framing error is of this kind.
* `serialize_readMessage`: the whole message.
-/

namespace Diameter

open Lib Datatype Dict

variable {b data : Bytes}
variable {v : Value} {f : Frame}

/-- The AVP can be written, and its octets are those at the front of `data`, the padding blanked
out, if `data` holds all of them. -/
structure AVP.ReadFrom (a : AVP) (data : Bytes) : Prop where
  sound : a.sound = true
  aligned : a.len % 4 = 0
  hasData : a.data ≠ .nil
  octets : a.len ≤ data.length → a.encode = blank a.padMask (data.take a.len)

/-- The same for a list of AVPs that makes up all of `data`. -/
structure ReadAll (avps : List AVP) (data : Bytes) : Prop where
  sound : membersSound (avps.map some) = true
  aligned : data.length % 4 = 0
  len : membersLen (avps.map some) = data.length
  octets : encodeMembers (avps.map some) = blank (membersPadMask (avps.map some)) data

/-! ## Leaves -/

theorem checkValue_of_decode {t : TypeID} (h : decode t b = .ok v) :
    checkValue v = .ok () := by
  cases t with
  | address =>
    simp only [decode] at h
    split at h
    · cases h
    split at h
    · cases h
    rename_i u hv
    cases h
    simp [checkValue, checkAddress, hv]
  | time =>
    simp only [decode] at h
    split at h
    · cases h
    · split at h <;> (cases h; rfl)
  | _ => cases h; rfl

theorem readFrom_leaf (hf : f.Reads data) (hser : v.serialize = f.body)
    (hlen : v.len = f.body.length) (hpad : v.padding = pad v.len) (hcheck : checkValue v = .ok ()) :
    AVP.ReadFrom ⟨f.code, f.flags, f.length, f.vendorID, .value v⟩ data := by
  have hsound : AVP.sound ⟨f.code, f.flags, f.length, f.vendorID, .value v⟩ = true :=
    sound_value_iff.2 ⟨by rw [hser, hlen], hcheck⟩
  have hlena : AVP.len ⟨f.code, f.flags, f.length, f.vendorID, .value v⟩
      = f.length + pad v.len := by
    simp only [AVP.len]; rw [hpad, hlen, hf.length_eq]
  refine ⟨hsound, ?_, by simp, ?_⟩
  · have h1 := headerLen_mod f.flags
    have h2 := add_pad_mod v.len
    rw [hlena, hf.length_eq, ← hlen]
    omega
  · intro hfit
    rw [hlena] at hfit ⊢
    have htake : (data.take f.length).length = f.length := by
      rw [List.length_take, Nat.min_eq_left hf.length_le]
    have hrest : ((data.drop f.length).take (pad v.len)).length = pad v.len := by
      rw [List.length_take, List.length_drop]; omega
    have hhl : headerLen f.flags + v.len = f.length := by rw [hlen, hf.length_eq]
    rw [List.take_add, AVP.encode, AVP.padMask, hpad, hhl,
      blank_append (by rw [List.length_replicate, htake]), blank_false htake, blank_true hrest,
      hf.octets, hser, hlen, List.append_assoc]

theorem readFrom_unknown (hf : f.Reads data) :
    AVP.ReadFrom ⟨f.code, f.flags, f.length, f.vendorID, .value (.unknown f.body)⟩ data :=
  readFrom_leaf hf rfl rfl rfl rfl

theorem readFrom_value (hf : f.Reads data) {d : Dict.AVP}
    (hg : d.data.type ≠ .grouped) (h : decodeLeaf d f.body = .ok v) :
    AVP.ReadFrom ⟨f.code, f.flags, f.length, f.vendorID, .value v⟩ data := by
  obtain ⟨hdec, hlen⟩ := decodeLeaf_ok h
  have htype := typeID_of_decode hdec
  exact readFrom_leaf hf (serialize_of_decode hdec hlen) hlen
    (Value.padding_eq (by rw [htype]; exact hg)) (checkValue_of_decode hdec)

/-! ## Groups -/

theorem readFrom_group (hf : f.Reads data) {avps : List AVP} (h : ReadAll avps f.body) :
    AVP.ReadFrom ⟨f.code, f.flags, f.length, f.vendorID, .group (avps.map some)⟩ data := by
  have hlena : AVP.len ⟨f.code, f.flags, f.length, f.vendorID, .group (avps.map some)⟩
      = f.length := by
    simp only [AVP.len]; rw [h.len, hf.length_eq]
  refine ⟨by simpa [AVP.sound] using h.sound, ?_, by simp, ?_⟩
  · have h1 := headerLen_mod f.flags
    have h2 := h.aligned
    rw [hlena, hf.length_eq]
    omega
  · intro _
    have hhl := length_headerBytes f.code f.flags f.vendorID f.body.length
    rw [hlena, hf.octets, AVP.encode, AVP.padMask, h.len, h.octets,
      blank_append (by rw [List.length_replicate, hhl]), blank_false hhl]

theorem readAll_cons {a : AVP} {avps : List AVP} (ha : a.ReadFrom b) (hle : a.len ≤ b.length)
    (h : ReadAll avps (b.drop a.len)) : ReadAll (a :: avps) b := by
  have hdrop : (b.drop a.len).length = b.length - a.len := List.length_drop
  have hmask : a.padMask.length = (b.take a.len).length := by
    rw [length_padMask ha.sound, List.length_take, Nat.min_eq_left hle]
  refine ⟨?_, ?_, ?_, ?_⟩
  · simp only [List.map_cons, membersSound, Bool.and_eq_true]
    exact ⟨ha.sound, h.sound⟩
  · have h1 := ha.aligned
    have h2 := h.aligned
    rw [hdrop] at h2
    omega
  · simp only [List.map_cons, membersLen]
    rw [h.len, hdrop]
    omega
  · simp only [List.map_cons, encodeMembers, membersPadMask]
    rw [ha.octets hle, h.octets, ← blank_append hmask, List.take_append_drop]

theorem RunsLoop.readAll {what : String} {tolerant : Bool} {dec : Bytes → AVP × Option AVPError}
    (hdec : ∀ b a err, dec b = (a, err) → (∀ e, err ≠ some (.length e)) → a.ReadFrom b) {n : Nat}
    {r : Loop} (h : RunsLoop what tolerant dec b n r) (hstop : ∀ e, r.stop ≠ .length e) :
    r.stop = .done ∧ ReadAll r.avps b := by
  induction h with
  | nil => exact ⟨rfl, rfl, rfl, rfl, rfl⟩
  | length _ _ => exact absurd rfl (hstop _)
  | broken _ hd hdata => exact absurd hdata (hdec _ _ _ hd (by simp)).hasData
  | overrun _ _ _ _ _ => exact absurd rfl (hstop _)
  | next _ hd hlen _ _ hle _ ih =>
    obtain ⟨hdone, hall⟩ := ih hstop
    exact ⟨hdone, readAll_cons (hdec _ _ _ hd hlen) hle hall⟩

theorem decodeAVPAt_readFrom (s : Snapshot) (app : UInt32) :
    ∀ (levels : Nat) (failed : Bool) (data : Bytes) (a : AVP) (err : Option AVPError),
      decodeAVPAt s app levels failed data = (a, err) → (∀ e, err ≠ some (.length e)) →
      a.ReadFrom data := by
  intro levels
  induction levels with
  | zero =>
    intro failed data a err h hlen
    obtain ⟨a', text, -, h'⟩ | ⟨f, d, err', hf, hp, h'⟩ := decodeAVPAt_cases s app 0 failed data
    · rw [h] at h'; cases h'; exact absurd rfl (hlen _)
    rw [h] at h'
    cases h'
    have hreads := readFrame_sound hf
    cases hp with
    | unknown _ | tooDeep _ _ _ | leafError _ _ _ => exact readFrom_unknown hreads
    | groupLength _ _ hg _ | groupErrors _ _ hg _ _ | groupOk _ _ hg _ _ => cases hg
    | leaf _ hg hl => exact readFrom_value hreads hg hl
  | succ levels ih =>
    intro failed data a err h hlen
    obtain ⟨a', text, -, h'⟩ | ⟨f, d, err', hf, hp, h'⟩ :=
      decodeAVPAt_cases s app (levels + 1) failed data
    · rw [h] at h'; cases h'; exact absurd rfl (hlen _)
    rw [h] at h'
    cases h'
    have hreads := readFrame_sound hf
    cases hp with
    | unknown _ | tooDeep _ _ _ | leafError _ _ _ | groupErrors _ _ _ _ _ =>
      exact readFrom_unknown hreads
    | groupLength _ _ _ _ => exact absurd rfl (hlen _)
    | groupOk _ _ hg hstop _ =>
      cases hg
      exact readFrom_group hreads ((decodeLoop_spec _ _ _ _ _ _ (Nat.le_refl _)).readAll
        (fun b a err => ih _ b a err) hstop).2
    | leaf _ hg hl => exact readFrom_value hreads hg hl

/-! ## Messages -/

/-- Which octets of a written message are padding of one of its AVPs, at any depth. -/
def Message.isPadding (m : Message) (i : Nat) : Prop :=
  (List.replicate headerLength false ++ membersPadMask m.avps)[i]? = some true

instance (m : Message) (i : Nat) : Decidable (m.isPadding i) :=
  inferInstanceAs (Decidable (_ = _))

theorem headerFields_serialize (h : data.length = headerLength) :
    (headerFields data).serialize = data := by
  match data, h with
  | [v, l0, l1, l2, fl, c0, c1, c2, a0, a1, a2, a3, h0, h1, h2, h3, e0, e1, e2, e3], _ =>
    simp only [Header.serialize, headerFields, List.drop_succ_cons, List.drop_zero,
      List.take_succ_cons, List.take_zero, List.headD_cons]
    rw [bigEndian_field32 (b := [l0, l1, l2]) (w := 3) rfl (by decide),
      bigEndian_field32 (b := [c0, c1, c2]) (w := 3) rfl (by decide),
      bigEndian_field32 (b := [a0, a1, a2, a3]) (w := 4) rfl (by decide),
      bigEndian_field32 (b := [h0, h1, h2, h3]) (w := 4) rfl (by decide),
      bigEndian_field32 (b := [e0, e1, e2, e3]) (w := 4) rfl (by decide)]
    rfl

theorem headerFields_messageLength_le (data : Bytes) :
    (headerFields data).messageLength.toNat ≤ maxMessageLength := by
  have hlen : ((data.drop 1).take 3).length ≤ 3 := by simp
  have hlt := ofBigEndian_lt ((data.drop 1).take 3)
  have hpow : 256 ^ ((data.drop 1).take 3).length ≤ 256 ^ 3 :=
    Nat.pow_le_pow_right (by decide) hlen
  rw [headerFields, toNat_ofNat_ofBigEndian32 (by omega), maxMessageLength]
  omega

theorem decodeAVPs_readAll {m m' : Message} {s : Snapshot} (hm : m.items = [])
    (h : m.decodeAVPs b s = (m', none)) :
    m'.header = m.header ∧ ∃ avps, m'.avps = avps.map some ∧ ReadAll avps b := by
  have hrun := decodeLoop_spec "AVP" false
    (fun data => decodeAVP data m.header.applicationID s 0 false) b.length b 0 (Nat.le_refl _)
  have hread := hrun.readAll (fun b a err => decodeAVPAt_readFrom s _ _ _ b a err)
  unfold Message.decodeAVPs at h
  generalize decodeLoop "AVP" false (fun data => decodeAVP data m.header.applicationID s 0 false)
    b.length b 0 = r at h hread
  simp only at h
  split at h
  · cases h
  · cases h
  next hstop _ =>
    cases h
    refine ⟨rfl, r.avps, ?_, (hread (by rw [hstop]; intro e he; cases he)).2⟩
    simp [Message.avps, hm, Function.comp_def]
  next hstop _ =>
    cases h
    refine ⟨rfl, r.avps, ?_, (hread (by rw [hstop]; intro e he; cases he)).2⟩
    simp [Message.avps, hm, Function.comp_def]

/-- `ReadMessage` on `b` reaches its AVP loop, which returns nil and leaves `m`: `b` is a header
and a body of the declared length. -/
structure LoopReturnsNil (b : Bytes) (s : Snapshot) (m : Message) : Prop where
  header : headerLength ≤ b.length
  declared : (headerFields (b.take headerLength)).messageLength.toNat = b.length
  loop : Message.decodeAVPs { header := headerFields (b.take headerLength) }
    (b.drop headerLength) s = (m, none)

/-- The octets written for a message that was read: those read, with the padding blanked out. -/
theorem LoopReturnsNil.serialize_eq_blank {s : Snapshot} {m : Message} (h : LoopReturnsNil b s m) :
    m.serialize = .ok (blank (List.replicate headerLength false ++ membersPadMask m.avps) b) ∧
      (List.replicate headerLength false ++ membersPadMask m.avps).length = b.length := by
  obtain ⟨hheader, avps, havps, hall⟩ := decodeAVPs_readAll rfl h.loop
  have htake : (b.take headerLength).length = headerLength := by
    rw [List.length_take, Nat.min_eq_left h.header]
  have hdrop : (b.drop headerLength).length = b.length - headerLength := List.length_drop
  have hlen : m.len = b.length := by
    rw [Message.len, havps, hall.len, hdrop]
    have := h.header
    omega
  have hmax : m.len ≤ maxMessageLength := by
    rw [hlen, ← h.declared]; exact headerFields_messageLength_le _
  have hoct : m.header.octets m.len = b.take headerLength := by
    have hself : ({ m.header with messageLength := UInt32.ofNat m.len } : Header) = m.header := by
      rw [hlen, ← h.declared, UInt32.ofNat_toNat, hheader]
    rw [Header.octets, hself, hheader, headerFields_serialize htake]
  refine ⟨?_, ?_⟩
  · rw [Message.serialize_eq (by rw [havps]; exact hall.sound) hmax, hoct, havps, hall.octets]
    conv_rhs => rw [← List.take_append_drop headerLength b]
    rw [blank_append (by rw [List.length_replicate, htake]), blank_false htake]
  · rw [List.length_append, List.length_replicate, havps, length_membersPadMask hall.sound,
      hall.len, hdrop]
    have := h.header
    omega

/-- Encode after decode: what is written has the length of what was read and agrees with it
everywhere but at the padding, which is zero. -/
theorem serialize_readMessage {b : Bytes} {s : Snapshot} {m : Message}
    (h : LoopReturnsNil b s m) :
    ∃ out, m.serialize = .ok out ∧ out.length = b.length ∧
      ∀ i, out[i]? = if m.isPadding i then some 0 else b[i]? := by
  obtain ⟨hser, hmask⟩ := h.serialize_eq_blank
  exact ⟨_, hser, length_blank hmask, fun i => getElem?_blank hmask i⟩

/-- A dictionary with one Grouped AVP and nothing else. -/
def groupSnapshot : Snapshot where
  avpcode := AList.insert ⟨0, 1000, 0⟩
    { name := "Group", code := 1000, data := { type := .grouped, typeName := "Grouped" } } ∅

/-- A group of one unknown AVP of one octet, whose padding is not zero. -/
def paddedGroup : Bytes :=
  [1, 0, 0, 40, 0x80, 0, 1, 0x10, 0, 0, 0, 0, 0, 0, 0, 1, 0, 0, 0, 2,
    0, 0, 0x03, 0xe8, 0x40, 0, 0, 20, 0, 0, 0x07, 0xd0, 0, 0, 0, 9, 0x61, 0xff, 0xff, 0xff]

theorem serialize_readMessage_paddedGroup :
    ∃ m, LoopReturnsNil paddedGroup groupSnapshot m ∧ m.isPadding 37 ∧
      ∃ out, m.serialize = .ok out ∧ out.length = paddedGroup.length ∧
        ∀ i, out[i]? = if m.isPadding i then some 0 else paddedGroup[i]? :=
  have h : LoopReturnsNil paddedGroup groupSnapshot _ := ⟨by decide, by decide, rfl⟩
  ⟨_, h, by decide, serialize_readMessage h⟩

end Diameter
