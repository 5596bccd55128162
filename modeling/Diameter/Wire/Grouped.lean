import Diameter.Wire.Buffer

/-!
# Wire.Grouped

`GroupedAVP.Serialize`, the encoder that builds the payload of a group in a buffer of its own, and
its agreement with `AVP.SerializeTo`, which writes a whole tree in place.

`payload_agrees`: the two give the same octets for every node of a tree, padding included.
-/

namespace Diameter

open Lib Datatype

/-- `copy(b[off:], src)`: what does not fit is not copied. -/
def copyAt (b : Bytes) (off : Nat) (src : Bytes) : Bytes := overwrite b off (src.take (b.length - off))

mutual

/-- `Serialize` of the data of an AVP; of nil data `GroupedAVP.Serialize` takes nothing. -/
def AVP.payload : AVP → Except SerializeError Bytes
  | ⟨_, _, _, _, .value v⟩ => .ok v.serialize
  | ⟨_, _, _, _, .addressPtr (some a)⟩ => .ok a.serialize
  | ⟨_, _, _, _, .group ms⟩ =>
    if membersHaveNil ms then .error .panicked else fillGroup ms 0 (List.replicate (membersLen ms) 0)
  | ⟨_, _, _, _, .nil⟩ | ⟨_, _, _, _, .addressPtr none⟩ | ⟨_, _, _, _, .nilGroup⟩ => .ok []

/-- The loop of `GroupedAVP.Serialize` over a zeroed buffer; `n` octets are done. -/
def fillGroup : List (Option AVP) → Nat → Bytes → Except SerializeError Bytes
  | [], _, b => .ok b
  | none :: _, _, _ => .error .panicked
  | some a :: ms, n, b => do
    let payload ← a.payload
    let b ← writeAt b n (headerBytes a.code a.flags a.vendorID payload.length)
    fillGroup ms (n + a.len) (copyAt b (n + headerLen a.flags) payload)

end

/-! ## One encoder against the octets -/

theorem fill_zeros {done hdr payload : Bytes} {k m : Nat} :
    (do let b ← writeAt (done ++ List.replicate (hdr.length + payload.length + k + m) 0)
          done.length hdr
        pure (copyAt b (done.length + hdr.length) payload) : Except SerializeError Bytes) =
      .ok (done ++ (hdr ++ (payload ++ List.replicate k 0)) ++ List.replicate m 0) := by
  have hzeros : hdr.length + payload.length + k + m = hdr.length + (payload.length + (k + m)) := by
    omega
  have hfirst : writeAt (done ++ List.replicate (hdr.length + (payload.length + (k + m))) 0)
      done.length hdr = .ok (done ++ hdr ++ List.replicate (payload.length + (k + m)) 0) := by
    rw [writeAt, if_pos (by simp), overwrite, List.take_left, ← List.drop_drop, List.drop_left,
      List.drop_replicate, Nat.add_sub_cancel_left]
  have hlen : (done ++ hdr).length = done.length + hdr.length := List.length_append
  rw [hzeros, hfirst, ← hlen]
  simp only [bind, Except.bind, pure, Except.pure, copyAt, overwrite]
  have hfits : payload.length ≤ (done ++ hdr ++ List.replicate (payload.length + (k + m))
      (0 : UInt8)).length - (done ++ hdr).length := by
    simp only [List.length_append, List.length_replicate]
    omega
  rw [List.take_of_length_le hfits, List.take_left, ← List.drop_drop, List.drop_left,
    List.drop_replicate, Nat.add_sub_cancel_left, List.replicate_add]
  simp only [List.append_assoc]

theorem payload_aux :
    (∀ a : AVP, a.sound = true → ∃ p k, a.payload = .ok p ∧ p.length = a.data.len ∧
      a.encode = headerBytes a.code a.flags a.vendorID p.length ++ (p ++ List.replicate k 0)) ∧
    ∀ ms, membersSound ms = true → ∀ done : Bytes,
      fillGroup ms done.length (done ++ List.replicate (membersLen ms) 0) =
        .ok (done ++ encodeMembers ms) := by
  apply AVP.sound_induction
  case address =>
    intro code flags length vendorID a _
    refine ⟨a.serialize, pad a.len, by simp [AVP.payload], a.length_serialize, ?_⟩
    simp only [AVP.encode, a.length_serialize]
  case nilGroup => exact fun _ _ _ _ => ⟨[], 0, by simp [AVP.payload], rfl, by simp [AVP.encode]⟩
  case value =>
    intro code flags length vendorID v hlen _
    refine ⟨v.serialize, v.padding, by simp [AVP.payload], hlen, ?_⟩
    simp only [AVP.encode, hlen]
  case group =>
    intro code flags length vendorID ms hms ih
    refine ⟨encodeMembers ms, 0, ?_, length_encodeMembers hms, ?_⟩
    · rw [AVP.payload, membersHaveNil_of_sound hms]
      exact ih []
    · simp [AVP.encode, length_encodeMembers hms]
  case nil => simp [fillGroup, membersLen, encodeMembers]
  case some =>
    intro a ms hs _ iha ihms done
    obtain ⟨p, k, hp, -, hencode⟩ := iha
    have hlen : a.len = (headerBytes a.code a.flags a.vendorID p.length).length + p.length + k := by
      rw [← length_encode hs, hencode]
      simp [Nat.add_assoc]
    have hfill := @fill_zeros done (headerBytes a.code a.flags a.vendorID p.length) p k
      (membersLen ms)
    rw [← hlen, ← hencode] at hfill
    obtain ⟨b, hb, hcopy⟩ := bind_eq_ok.1 hfill
    have hnext := ihms (done ++ a.encode)
    rw [List.length_append, length_encode hs, ← Except.ok.inj hcopy, length_headerBytes] at hnext
    simp only [fillGroup, membersLen, hp, hb, bind, Except.bind, encodeMembers]
    rw [hnext, List.append_assoc]

/-! ## Nodes of a tree -/

/-- `c` is a node of the tree `a`, and its octets start `off` octets after those of `a`. -/
inductive AVP.Node : AVP → Nat → AVP → Prop where
  | self (a : AVP) : Node a 0 a
  | member {a c d : AVP} {before after : List (Option AVP)} {off : Nat} :
      a.data = .group (before ++ some c :: after) → Node c off d →
      Node a (headerLen a.flags + membersLen before + off) d

theorem encodeMembers_append (xs ys : List (Option AVP)) :
    encodeMembers (xs ++ ys) = encodeMembers xs ++ encodeMembers ys := by
  induction xs with
  | nil => simp [encodeMembers]
  | cons x xs ih => cases x <;> simp [encodeMembers, ih]

theorem membersSound_append {xs ys : List (Option AVP)} :
    membersSound (xs ++ ys) = true ↔ membersSound xs = true ∧ membersSound ys = true := by
  induction xs with
  | nil => simp [membersSound]
  | cons x xs ih => cases x <;> simp [membersSound, ih, and_assoc]

theorem AVP.Node.octets {a c : AVP} {off : Nat} (h : AVP.Node a off c) (hs : a.sound = true) :
    c.sound = true ∧ ∃ front rest, a.encode = front ++ (c.encode ++ rest) ∧ front.length = off := by
  induction h with
  | self a => exact ⟨hs, [], [], by simp, rfl⟩
  | @member a c d before after off hdata _ ih =>
    obtain ⟨code, flags, length, vendorID, data⟩ := a
    subst hdata
    obtain ⟨hbefore, hrest⟩ := membersSound_append.1 hs
    simp only [membersSound, Bool.and_eq_true] at hrest
    obtain ⟨hd, front, rest, hoct, hfront⟩ := ih hrest.1
    refine ⟨hd, headerBytes code flags vendorID (membersLen (before ++ some c :: after)) ++
      encodeMembers before ++ front, rest ++ encodeMembers after, ?_, ?_⟩
    · rw [AVP.encode, encodeMembers_append, encodeMembers, hoct]
      simp only [List.append_assoc]
    · rw [List.length_append, List.length_append, length_headerBytes,
        length_encodeMembers hbefore, hfront]

theorem payload_agrees {a c : AVP} {off : Nat} {b out : Bytes} (hexact : a.exact = true)
    (hlen : b.length = a.len) (hout : a.serializeTo b = .ok out) (hnode : AVP.Node a off c) :
    c.payload = .ok ((out.drop (off + headerLen c.flags)).take c.data.len) := by
  have hs := sound_of_serializeTo_aux.1 a hexact b out hout
  have heq := (serializeTo_eq hs hlen.ge).symm.trans hout
  rw [List.drop_eq_nil_of_le hlen.le, List.append_nil] at heq
  obtain ⟨hc, front, rest, hoct, hfront⟩ := hnode.octets hs
  obtain ⟨p, k, hp, hplen, hencode⟩ := payload_aux.1 c hc
  rw [hp, ← Except.ok.inj heq, ← List.drop_drop, hoct, drop_append_of_length hfront, hencode,
    List.append_assoc, drop_append_of_length (length_headerBytes _ _ _ _), List.append_assoc,
    take_append_of_length hplen]

/-- A group in a group, with a padded octet. -/
def nestedGroup : AVP :=
  newAVP 279 0x40 0 (.group [some (newAVP 297 0x40 10415
    (.group [some (newAVP 263 0x40 0 (.value (.octetString [7])))]))])

theorem nestedGroup_payload : (newAVP 297 0x40 10415
    (.group [some (newAVP 263 0x40 0 (.value (.octetString [7])))])).payload =
      .ok [0, 0, 1, 7, 0x40, 0, 0, 9, 7, 0, 0, 0] :=
  @payload_agrees nestedGroup _ 8 (List.replicate 32 0xaa) _ rfl rfl rfl
    (@AVP.Node.member nestedGroup _ _ [] [] 0 rfl (.self _))

end Diameter
