import Diameter.Datatype.Codec

/-!
# Wire.Avp

AVPs as package `diam` holds them, and `AVP.SerializeTo`.

`serializeTo` writes into a buffer in place, as the source does, and can fail: on missing data,
on an invalid address, and, where Go would panic, on a nil member or a buffer too short. Over it
stands `encode`, the octets an AVP denotes. The two are connected by `serializeTo_eq`: writing a
`Sound` AVP at the start of a buffer puts `encode` there and leaves the rest alone.
-/

namespace Diameter

open Lib Datatype

def vbit : UInt8 := 0x80
def mbit : UInt8 := 0x40
def pbit : UInt8 := 0x20

/-- The payloads an AVP can hold: no data, a value, a pointer to an address, or a pointer to a
list of members, each of which may be a nil pointer. -/
inductive Data (α : Type) where
  | nil
  | value (v : Value)
  | addressPtr (a : Option Address)
  | nilGroup
  | group (members : List (Option α))

structure AVP where
  code : UInt32
  flags : UInt8
  length : Nat
  vendorID : UInt32
  data : Data AVP

/-- Whether the V bit is set, so that the header carries a Vendor-Id. -/
def hasVendor (flags : UInt8) : Bool := flags &&& vbit == vbit

def headerLen (flags : UInt8) : Nat := if hasVendor flags then 12 else 8

/-- `paddedAVPLength`. -/
def paddedAVPLength (length : Nat) : Nat := (length + 3) / 4 * 4

mutual

/-- `AVP.Len`: the length with padding. -/
def AVP.len : AVP → Nat
  | ⟨_, flags, length, _, .nil⟩ => paddedAVPLength (max length (headerLen flags))
  | ⟨_, flags, _, _, .value v⟩ => headerLen flags + v.len + v.padding
  | ⟨_, flags, _, _, .addressPtr none⟩ => headerLen flags
  | ⟨_, flags, _, _, .addressPtr (some a)⟩ => headerLen flags + a.len + pad a.len
  | ⟨_, flags, _, _, .nilGroup⟩ => headerLen flags
  | ⟨_, flags, _, _, .group ms⟩ => headerLen flags + membersLen ms

/-- `GroupedAVP.Len`. A nil member has no length; `hasNil` tells where Go panics on it. -/
def membersLen : List (Option AVP) → Nat
  | [] => 0
  | none :: ms => membersLen ms
  | some a :: ms => a.len + membersLen ms

end

mutual

/-- Whether `Len` would dereference a nil member. -/
def AVP.hasNil : AVP → Bool
  | ⟨_, _, _, _, .group ms⟩ => membersHaveNil ms
  | _ => false

def membersHaveNil : List (Option AVP) → Bool
  | [] => false
  | none :: _ => true
  | some a :: ms => a.hasNil || membersHaveNil ms

end

/-- The `Len` of a payload, without padding. -/
def Data.len : Data AVP → Nat
  | .nil | .nilGroup | .addressPtr none => 0
  | .value v => v.len
  | .addressPtr (some a) => a.len
  | .group ms => membersLen ms

/-- The octets `serializeHeaderTo` writes. -/
def headerBytes (code : UInt32) (flags : UInt8) (vendorID : UInt32) (payloadLen : Nat) : Bytes :=
  bigEndian 4 code.toNat ++ flags :: (bigEndian 3 (headerLen flags + payloadLen)
    ++ if hasVendor flags then bigEndian 4 vendorID.toNat else [])

inductive SerializeError where
  | failed (text : String)
  | panicked
deriving DecidableEq, Repr

/-- A write into a slice that is too short panics. -/
def writeAt (b : Bytes) (off : Nat) (src : Bytes) : Except SerializeError Bytes :=
  if off + src.length ≤ b.length then .ok (overwrite b off src) else .error .panicked

/-- The part of `SerializeTo` after the header for data that is not a `*GroupedAVP`: `copy` stops
at the end of the buffer, the slice after it and the padding panic there. -/
def writePayload (b : Bytes) (hl : Nat) (payload : Bytes) (padding : Nat) :
    Except SerializeError Bytes :=
  if hl + payload.length + padding ≤ b.length then
    .ok (overwrite b hl (payload ++ List.replicate padding 0))
  else .error .panicked

def checkAddress (a : Address) : Except SerializeError Unit :=
  match a.valid with
  | .error e => .error (.failed e)
  | .ok () => .ok ()

/-- Of all values only addresses are checked before they are written. -/
def checkValue : Value → Except SerializeError Unit
  | .address a => checkAddress a
  | _ => .ok ()

mutual

/-- `AVP.SerializeTo`. -/
def AVP.serializeTo : AVP → Bytes → Except SerializeError Bytes
  | ⟨_, _, _, _, .nil⟩, _ => .error (.failed "failed to serialize AVP: Data is nil")
  | ⟨_, _, _, _, .addressPtr none⟩, _ => .error (.failed "nil Address")
  | ⟨code, flags, _, vendorID, .addressPtr (some a)⟩, b => do
    checkAddress a
    let b ← writeAt b 0 (headerBytes code flags vendorID a.len)
    writePayload b (headerLen flags) a.serialize (pad a.len)
  | ⟨code, flags, _, vendorID, .value v⟩, b => do
    checkValue v
    let b ← writeAt b 0 (headerBytes code flags vendorID v.len)
    writePayload b (headerLen flags) v.serialize v.padding
  | ⟨code, flags, _, vendorID, .nilGroup⟩, b => writeAt b 0 (headerBytes code flags vendorID 0)
  | ⟨code, flags, _, vendorID, .group ms⟩, b => do
    if membersHaveNil ms then .error .panicked else
    let b ← writeAt b 0 (headerBytes code flags vendorID (membersLen ms))
    let tail ← serializeMembers ms (b.drop (headerLen flags))
    return b.take (headerLen flags) ++ tail

/-- The loop over the members: each is written at the offset the earlier ones reached. -/
def serializeMembers : List (Option AVP) → Bytes → Except SerializeError Bytes
  | [], b => .ok b
  | none :: _, _ => .error .panicked
  | some a :: ms, b => do
    let b ← a.serializeTo b
    let tail ← serializeMembers ms (b.drop a.len)
    return b.take a.len ++ tail

end

/-! ## Construction -/

def zeroAddress : Address := ⟨0, []⟩

/-- The `data` of a new AVP: address pointers are stored as values. -/
def ownedData : Data AVP → Data AVP
  | .addressPtr none => .value (.address zeroAddress)
  | .addressPtr (some a) => .value (.address a)
  | d => d

def newAVPWithFlags (code : UInt32) (flags : UInt8) (vendor : UInt32) (data : Data AVP) : AVP :=
  ⟨code, flags, headerLen flags + (ownedData data).len, vendor, ownedData data⟩

/-- `NewAVP`: the V bit follows the vendor. -/
def newAVP (code : UInt32) (flags : UInt8) (vendor : UInt32) (data : Data AVP) : AVP :=
  let flags := flags &&& ~~~vbit
  newAVPWithFlags code (if vendor ≠ 0 then flags ||| vbit else flags) vendor data

/-- `members`: the members of a Grouped AVP, none for other data. -/
def AVP.members (a : AVP) : List (Option AVP) :=
  match a.data with
  | .group ms => ms
  | _ => []

/-! ## Induction over AVP trees -/

/-- One proof for AVPs and for lists of members: data that is not a list of members is a leaf. -/
theorem AVP.tree_induction {P : AVP → Prop} {Q : List (Option AVP) → Prop}
    (leaf : ∀ a : AVP, (∀ ms, a.data ≠ .group ms) → P a)
    (group : ∀ code flags length vendorID ms, Q ms → P ⟨code, flags, length, vendorID, .group ms⟩)
    (nil : Q []) (none : ∀ ms, Q ms → Q (none :: ms))
    (some : ∀ a ms, P a → Q ms → Q (some a :: ms)) :
    (∀ a, P a) ∧ ∀ ms, Q ms := by
  apply AVP.len.mutual_induct P Q
  case case6 => intro code flags length vendorID ms ih; exact group _ _ _ _ _ ih
  case case7 => exact nil
  case case8 => exact none
  case case9 => exact some
  all_goals (intros; exact leaf _ (fun ms h => by cases h))

/-- What passes from the members of an AVP to the AVP holds of every AVP. -/
theorem AVP.members_induction {P : AVP → Prop}
    (level : ∀ a : AVP, (∀ c, Option.some c ∈ a.members → P c) → P a) (a : AVP) : P a := by
  refine (AVP.tree_induction (Q := fun ms => ∀ c, Option.some c ∈ ms → P c) ?leaf ?group ?nil
    ?none ?some).1 a
  case leaf =>
    intro a hleaf
    refine level a fun c hc => ?_
    unfold AVP.members at hc
    split at hc
    · rename_i ms hms; exact absurd hms (hleaf ms)
    · cases hc
  case group => intro code flags length vendorID ms ih; exact level _ ih
  case nil => intro c hc; cases hc
  case none =>
    intro ms ih c hc
    rcases List.mem_cons.1 hc with h | h
    · cases h
    · exact ih c h
  case some =>
    intro a ms iha ihms c hc
    rcases List.mem_cons.1 hc with h | h
    · cases h; exact iha
    · exact ihms c h

end Diameter
