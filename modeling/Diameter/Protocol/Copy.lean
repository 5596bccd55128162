import Diameter.Protocol.Types
import Diameter.Wire.DecodeSpec

/-!
# Protocol.Copy

`CloneAVP` and `copyMessage`: the copies the core saves and hands out.

A payload other than an address or a group is copied by writing it and decoding what was written,
so a copy can differ from its original. What a decoder made copies to itself: `readMessage_copy`.
-/

namespace Diameter

open Lib Datatype

variable {s : Dict.Snapshot}

def Datatype.Value.clone (v : Value) : Value :=
  match v with
  | .address a => .address a
  | v =>
    match decode v.typeID v.serialize with
    | .ok copy => copy
    | .error _ => .unknown v.serialize

mutual

/-- `CloneAVP`. -/
def AVP.clone : AVP → AVP
  | ⟨code, flags, length, vendorID, .value v⟩ => ⟨code, flags, length, vendorID, .value v.clone⟩
  | ⟨code, flags, length, vendorID, .group ms⟩ =>
    ⟨code, flags, length, vendorID, .group (cloneAVPs ms)⟩
  | a => a

/-- `CloneAVPs`. -/
def cloneAVPs : List (Option AVP) → List (Option AVP)
  | [] => []
  | none :: ms => none :: cloneAVPs ms
  | some a :: ms => some a.clone :: cloneAVPs ms

end

/-- `copyMessage`. The copies of echoed Proxy-Info AVPs are not echoes themselves. -/
def Packet.copy (p : Packet) : Packet :=
  { p with message := { p.message with
      items := (cloneAVPs p.message.avps).map fun a => ⟨a, none⟩ } }

/-! ## Copies of decoded messages -/

theorem Datatype.Value.clone_of_decode {t : TypeID} {b : Bytes} {v : Value}
    (h : decode t b = .ok v) (hlen : v.len = b.length) : v.clone = v := by
  have hround : decode v.typeID v.serialize = .ok v := by
    rw [typeID_of_decode h, serialize_of_decode h hlen]
    exact h
  unfold Value.clone
  split
  · rfl
  · rw [hround]

theorem cloneAVPs_map_some {l : List AVP} (h : ∀ a ∈ l, a.clone = a) :
    cloneAVPs (l.map some) = l.map some := by
  induction l with
  | nil => simp [cloneAVPs]
  | cons a l ih =>
    rw [List.map_cons, cloneAVPs, h a (List.mem_cons_self ..),
      ih fun b hb => h b (List.mem_cons_of_mem _ hb)]

theorem RunsLoop.forall_avps {what : String} {tolerant : Bool}
    {dec : Bytes → AVP × Option AVPError} {b : Bytes} {n : Nat} {r : Loop} {P : AVP → Prop}
    (h : RunsLoop what tolerant dec b n r)
    (hdec : ∀ b a err, dec b = (a, err) → (∀ e, err ≠ some (.length e)) → P a) :
    ∀ a ∈ r.avps, P a := by
  induction h with
  | nil | length | broken | overrun => exact List.forall_mem_nil _
  | next _ h hlen _ _ _ _ ih =>
    intro a ha
    rcases List.mem_cons.1 ha with rfl | ha
    · exact hdec _ _ _ h hlen
    · exact ih a ha

theorem DecodesPayload.clone_eq {group : Option (Bool → Bytes → Loop)} {app : UInt32}
    {failed : Bool} {f : Frame} {d : Data AVP} {err : Option AVPError}
    (h : DecodesPayload group s app failed f d err)
    (hg : ∀ g ∈ group, ∀ failed b, ∀ a ∈ (g failed b).avps, a.clone = a) :
    AVP.clone ⟨f.code, f.flags, f.length, f.vendorID, d⟩ =
      ⟨f.code, f.flags, f.length, f.vendorID, d⟩ := by
  cases h with
  | groupOk _ _ hgroup => rw [AVP.clone, cloneAVPs_map_some (hg _ hgroup _ _)]
  | leaf _ _ hl => rw [AVP.clone, Value.clone_of_decode (decodeLeaf_ok hl).1 (decodeLeaf_ok hl).2]
  | _ => rfl

theorem decodeAVPAt_clone {app : UInt32} (levels : Nat) {failed : Bool} {data : Bytes} {a : AVP}
    {err : Option AVPError} (h : decodeAVPAt s app levels failed data = (a, err))
    (hlen : ∀ e, err ≠ some (.length e)) : a.clone = a := by
  have members : ∀ g ∈ groupDecoder s app levels, ∀ failed b, ∀ a ∈ (g failed b).avps,
      a.clone = a := by
    cases levels with
    | zero => exact fun g hg => (Option.not_mem_none g hg).elim
    | succ levels =>
      rintro g ⟨⟩ failed b
      refine (decodeLoop_spec _ _ _ _ _ _ (Nat.le_refl _)).forall_avps ?_
      exact fun b a err hb hlen => decodeAVPAt_clone levels hb hlen
  rcases decodeAVPAt_cases s app levels failed data with ⟨a', text, -, h'⟩ | ⟨f, d, err', -, hd, h'⟩
  · rw [h] at h'
    cases h'
    exact (hlen _ rfl).elim
  · rw [h] at h'
    cases h'
    exact hd.clone_eq members

theorem Message.decodeAVPs_items (m : Message) (b : Bytes) (s : Dict.Snapshot) :
    ∃ l : List AVP, (m.decodeAVPs b s).1.items = m.items ++ l.map (fun a => ⟨some a, none⟩) ∧
      ∀ a ∈ l, a.clone = a := by
  refine ⟨_, ?_, (decodeLoop_spec "AVP" false (fun data => decodeAVP data m.header.applicationID s 0
    false) _ _ 0 (Nat.le_refl b.length)).forall_avps fun b a err hb hlen => ?_⟩
  · unfold Message.decodeAVPs
    dsimp only
    split <;> rfl
  · exact decodeAVPAt_clone _ hb hlen

theorem readMessage_items {stream : Bytes} {m : Message} (h : (readMessage stream s).1 = some m) :
    ∃ l : List AVP, m.items = l.map (fun a => ⟨some a, none⟩) ∧ ∀ a ∈ l, a.clone = a := by
  have hnone : ∃ l : List AVP, ([] : List Item) = l.map (fun a => ⟨some a, none⟩) ∧
      ∀ a ∈ l, a.clone = a := ⟨[], rfl, List.forall_mem_nil _⟩
  have hbody : ∀ (m : Message) (rest : Bytes), m.items = [] →
      ∃ l : List AVP, (m.readBody rest s).1.items = l.map (fun a => ⟨some a, none⟩) ∧
        ∀ a ∈ l, a.clone = a := by
    intro m rest hm
    have hdec : ∀ b, ∃ l : List AVP, (m.decodeAVPs b s).1.items = l.map (fun a => ⟨some a, none⟩) ∧
        ∀ a ∈ l, a.clone = a := by
      intro b
      have hitems := m.decodeAVPs_items b s
      rw [hm] at hitems
      exact hitems
    unfold Message.readBody
    dsimp only
    split
    · rw [hm]
      exact hnone
    split
    · split
      · rw [hm]
        exact hnone
      · exact hdec _
    · exact hdec _
  unfold readMessage at h
  dsimp only at h
  split at h
  · cases h
  split at h
  · cases h
    exact hnone
  have hread := hbody { header := headerFields (stream.take headerLength) }
    (stream.drop headerLength) rfl
  split at h
  all_goals
    rename_i hb
    cases h
    rw [hb] at hread
    exact hread

theorem readMessage_copy {stream : Bytes} {s d : Dict.Snapshot} {m : Message}
    (h : (readMessage stream s).1 = some m) : Packet.copy ⟨m, d⟩ = ⟨m, d⟩ := by
  obtain ⟨l, hl, hclone⟩ := readMessage_items h
  have havps : m.avps = l.map some := by
    rw [Message.avps, hl, List.map_map]
    rfl
  have hitems : (cloneAVPs m.avps).map (fun a => (⟨a, none⟩ : Item)) = m.items := by
    rw [havps, cloneAVPs_map_some hclone, List.map_map, hl]
    rfl
  show (⟨{ m with items := (cloneAVPs m.avps).map fun a => ⟨a, none⟩ }, d⟩ : Packet) = _
  rw [hitems]

@[simp] theorem Packet.header_copy (p : Packet) : p.copy.header = p.header := rfl

namespace Protocol

def Incoming.copy : Incoming → Incoming
  | .packet p => .packet p.copy
  | m => m

end Protocol
end Diameter
