import Diameter.Wire.Decode

/-!
# Wire.Message

Message headers, `ReadMessage` and `Message.Serialize`.

`readMessage` takes the octets available on the stream and one dictionary snapshot, and returns
what the source returns: a message, possibly only partly decoded, and an error, either of which
may be missing. `serialize_eq` gives the octets of every message that can be written.
-/

namespace Diameter

open Lib Datatype Dict

def headerLength : Nat := 20
def maxMessageLength : Nat := 16777215

def requestFlag : UInt8 := 0x80
def proxiableFlag : UInt8 := 0x40
def errorFlag : UInt8 := 0x20
def retransmittedFlag : UInt8 := 0x10

def unsupportedVersion : UInt32 := 5011
def invalidMessageLength : UInt32 := 5015

structure Header where
  version : UInt8
  messageLength : UInt32
  commandFlags : UInt8
  commandCode : UInt32
  applicationID : UInt32
  hopByHopID : UInt32
  endToEndID : UInt32
deriving DecidableEq, Repr

/-- Whether the R bit is set. -/
def Header.isRequest (h : Header) : Bool := h.commandFlags &&& requestFlag == requestFlag

structure MessageError where
  resultCode : UInt32
  failedAVP : Option AVP := none
  fatal : Bool := false
  text : String

/-- `Message.DecodeErr`: the payload errors of a message, in the order they were met. -/
structure DecodeErr where
  errs : List PayloadError

def DecodeErr.text (e : DecodeErr) : String :=
  "failed to decode one or more AVPs: \x7b" ++ errorsText e.errs ++ "\x7d"

inductive ReadError where
  | message (e : MessageError)
  | decode (e : DecodeErr)
  | payload (e : PayloadError)
  | other (text : String)

/-- An AVP of a message. `echo` holds the octets of a Proxy-Info that was copied from the request,
as they were when it was copied. -/
structure Item where
  avp : Option AVP
  echo : Option Bytes := none

structure Message where
  header : Header
  items : List Item := []
  decodeErr : Option DecodeErr := none
  unknownMandatoryAVPs : List AVP := []

/-- `Message.AVP`. -/
def Message.avps (m : Message) : List (Option AVP) := m.items.map Item.avp

/-! ## Header -/

def Header.serialize (h : Header) : Bytes :=
  h.version :: (bigEndian 3 h.messageLength.toNat ++ h.commandFlags ::
    (bigEndian 3 h.commandCode.toNat ++ (bigEndian 4 h.applicationID.toNat ++
      (bigEndian 4 h.hopByHopID.toNat ++ bigEndian 4 h.endToEndID.toNat))))

/-- The fields of a header of twenty octets. -/
def headerFields (data : Bytes) : Header where
  version := data.headD 0
  messageLength := UInt32.ofNat (ofBigEndian ((data.drop 1).take 3))
  commandFlags := (data.drop 4).headD 0
  commandCode := UInt32.ofNat (ofBigEndian ((data.drop 5).take 3))
  applicationID := UInt32.ofNat (ofBigEndian ((data.drop 8).take 4))
  hopByHopID := UInt32.ofNat (ofBigEndian ((data.drop 12).take 4))
  endToEndID := UInt32.ofNat (ofBigEndian ((data.drop 16).take 4))

/-- The checks `Header.DecodeFromBytes` makes on the fields. -/
def Header.check (h : Header) : Except MessageError Unit :=
  if h.version ≠ 1 then
    .error ⟨unsupportedVersion, none, true,
      "unsupported Diameter version: " ++ toString h.version.toNat⟩
  else if h.messageLength.toNat < headerLength then
    .error ⟨invalidMessageLength, none, true, "invalid Diameter message length " ++
      toString h.messageLength.toNat ++ ": shorter than header length " ++ toString headerLength⟩
  else if h.messageLength.toNat % 4 ≠ 0 then
    .error ⟨invalidMessageLength, none, true, "invalid Diameter message length " ++
      toString h.messageLength.toNat ++ ": not a multiple of 4"⟩
  else .ok ()

/-! ## Reading -/

/-- `maxAVPsFor`: the number of rules the command has in the header's direction. -/
def Header.maxAVPsFor (h : Header) (cmd : Command) : Nat :=
  if h.isRequest then cmd.request.rule.length else cmd.answer.rule.length

/-- `io.ReadFull`: the error when fewer octets are there than asked for. -/
def readFullError (read want : Nat) : Option String :=
  if want ≤ read then none else if read = 0 then some "EOF" else some "unexpected EOF"

/-- `decodeAVPs`: the message with what was decoded, and the error that stopped it. -/
def Message.decodeAVPs (m : Message) (b : Bytes) (s : Snapshot) : Message × Option ReadError :=
  let r := decodeLoop "AVP" false
    (fun data => decodeAVP data m.header.applicationID s 0 false) b.length b 0
  let m := { m with
    items := m.items ++ r.avps.map fun a => ⟨some a, none⟩
    unknownMandatoryAVPs := m.unknownMandatoryAVPs ++
      r.avps.filterMap (unknownMandatoryHierarchy s m.header.applicationID) }
  match r.stop, r.errs with
  | .length e, _ => (m, some (.message ⟨invalidAVPLength, some e.failedAVP, false, e.text⟩))
  | .broken e, _ => (m, some (.payload e))
  | .done, [] => (m, none)
  | .done, errs => ({ m with decodeErr := some ⟨errs⟩ }, none)

/-- `readBody` on what follows the header. -/
def Message.readBody (m : Message) (rest : Bytes) (s : Snapshot) : Message × Option ReadError :=
  let want := m.header.messageLength.toNat - headerLength
  let b := rest.take want
  match readFullError b.length want with
  | some e => (m, some (.other ("read body error: " ++ e ++ ", " ++ toString b.length
      ++ " bytes read")))
  | none =>
    match s.findCommand m.header.applicationID m.header.commandCode with
    | .ok cmd =>
      if m.header.maxAVPsFor cmd = 0 then
        (m, some (.other ("command " ++ cmd.name ++ " (" ++ toString cmd.code ++
          ") has no AVPs defined in the dictionary")))
      else m.decodeAVPs b s
    -- `unknownCommand` stands in for it, with 32 slots in either direction.
    | .error _ => m.decodeAVPs b s

/-- The last part of `ReadMessage`: what a strict dictionary makes of payload errors. -/
def Message.strictResult (m : Message) (s : Snapshot) : Option ReadError :=
  match s.strict, m.decodeErr with
  | true, some e =>
    match m.header.isRequest, e.errs with
    | true, first :: _ => some (.message ⟨first.resultCode, some first.failedAVP, false, e.text⟩)
    | _, _ => some (.decode e)
  | _, _ => none

/-- `ReadMessage`. -/
def readMessage (stream : Bytes) (s : Snapshot) : Option Message × Option ReadError :=
  let b := stream.take headerLength
  match readFullError b.length headerLength with
  | some e => (none, some (.other e))
  | none =>
    let m : Message := { header := headerFields b }
    match m.header.check with
    | .error e => (some m, some (.message e))
    | .ok () =>
      match m.readBody (stream.drop headerLength) s with
      | (m, some e) => (some m, some e)
      | (m, none) => (some m, m.strictResult s)

/-- The command is unknown to the dictionary, or has rules in the header's direction. A message
for which this fails is rejected before its AVPs are looked at. -/
def Header.HasRules (h : Header) (s : Snapshot) : Prop :=
  ∀ cmd, s.findCommand h.applicationID h.commandCode = .ok cmd → 0 < h.maxAVPsFor cmd

theorem Message.readBody_eq {m : Message} {body : Bytes} {s : Snapshot}
    (hlen : m.header.messageLength.toNat = headerLength + body.length)
    (hrules : m.header.HasRules s) : m.readBody body s = m.decodeAVPs body s := by
  have hwant : m.header.messageLength.toNat - headerLength = body.length := by omega
  have hfull : readFullError body.length body.length = none := if_pos (Nat.le_refl _)
  unfold Message.readBody
  simp only [hwant, List.take_length, hfull]
  cases hcmd : s.findCommand m.header.applicationID m.header.commandCode with
  | error e => rfl
  | ok cmd =>
    have hpos := hrules cmd hcmd
    exact if_neg (by omega)

theorem readMessage_eq {hdr body : Bytes} {s : Snapshot} (hhdr : hdr.length = headerLength)
    (hcheck : (headerFields hdr).check = .ok ())
    (hlen : (headerFields hdr).messageLength.toNat = headerLength + body.length)
    (hrules : (headerFields hdr).HasRules s) :
    readMessage (hdr ++ body) s =
      match Message.decodeAVPs { header := headerFields hdr } body s with
      | (m, some e) => (some m, some e)
      | (m, none) => (some m, m.strictResult s) := by
  have hfull : readFullError headerLength headerLength = none := if_pos (Nat.le_refl _)
  have hbody := Message.readBody_eq (m := { header := headerFields hdr }) hlen hrules
  unfold readMessage
  simp only [take_append_of_length hhdr, drop_append_of_length hhdr, hhdr, hfull, hcheck, hbody]

/-! ## Writing -/

/-- `Message.Len`. -/
def Message.len (m : Message) : Nat := headerLength + membersLen m.avps

/-- `serializedLength`. `Len` dereferences every AVP, so a nil one panics here. -/
def Message.serializedLength (m : Message) : Except SerializeError Nat :=
  if membersHaveNil m.avps then .error .panicked
  else if m.len > maxMessageLength then
    .error (.failed ("diameter message length " ++ toString m.len ++ " exceeds 24-bit maximum " ++
      toString maxMessageLength))
  else .ok m.len

/-- `serializeTo`: the header, the computed length over its length field, and the AVPs. -/
def Message.serializeTo (m : Message) (b : Bytes) (l : Nat) : Except SerializeError Bytes := do
  let b ← writeAt b 0 m.header.serialize
  let b ← writeAt b 1 (bigEndian 3 l)
  let tail ← serializeMembers m.avps (b.drop headerLength)
  return b.take headerLength ++ tail

/-- `Message.Serialize`. -/
def Message.serialize (m : Message) : Except SerializeError Bytes := do
  let l ← m.serializedLength
  m.serializeTo (List.replicate l 0) l

/-! ## The octets of a message -/

@[simp] theorem Header.length_serialize (h : Header) : h.serialize.length = headerLength := by
  simp [Header.serialize, headerLength]

theorem overwrite_messageLength (h : Header) (l : Nat) (rest : Bytes) :
    overwrite (h.serialize ++ rest) 1 (bigEndian 3 l) =
      h.version :: (bigEndian 3 l ++ h.commandFlags ::
        (bigEndian 3 h.commandCode.toNat ++ (bigEndian 4 h.applicationID.toNat ++
          (bigEndian 4 h.hopByHopID.toNat ++ bigEndian 4 h.endToEndID.toNat)))) ++ rest := by
  simp [overwrite, Header.serialize]

/-- The header octets of a message of length `l`. -/
def Header.octets (h : Header) (l : Nat) : Bytes :=
  { h with messageLength := UInt32.ofNat l }.serialize

theorem Header.octets_eq (h : Header) {l : Nat} (hl : l ≤ maxMessageLength) :
    h.octets l = h.version :: (bigEndian 3 l ++ h.commandFlags ::
        (bigEndian 3 h.commandCode.toNat ++ (bigEndian 4 h.applicationID.toNat ++
          (bigEndian 4 h.hopByHopID.toNat ++ bigEndian 4 h.endToEndID.toNat)))) := by
  have hlt : l < UInt32.size := by simp only [maxMessageLength, UInt32.size] at *; omega
  simp only [Header.octets, Header.serialize, UInt32.toNat_ofNat_of_lt' hlt]

section

variable {m : Message} (hs : membersSound m.avps = true) (hl : m.len ≤ maxMessageLength)
include hs hl

theorem Message.serializeTo_eq {b : Bytes} (hb : b.length = m.len) :
    m.serializeTo b m.len = .ok (m.header.octets m.len ++ encodeMembers m.avps) := by
  have hlen : b.length = headerLength + membersLen m.avps := hb
  have hw1 : writeAt b 0 m.header.serialize = .ok (m.header.serialize ++ b.drop headerLength) := by
    rw [writeAt_zero (by rw [hlen, Header.length_serialize]; omega), Header.length_serialize]
  have hdrop : (b.drop headerLength).length = membersLen m.avps := by
    rw [List.length_drop, hlen]; omega
  have hoct : (m.header.octets m.len).length = headerLength := Header.length_serialize _
  have hw2 : writeAt (m.header.serialize ++ b.drop headerLength) 1 (bigEndian 3 m.len) =
      .ok (m.header.octets m.len ++ b.drop headerLength) := by
    have hfit : 1 + (bigEndian 3 m.len).length ≤
        (m.header.serialize ++ b.drop headerLength).length := by
      rw [List.length_append, length_bigEndian, Header.length_serialize]
      simp only [headerLength]; omega
    rw [writeAt, if_pos hfit, overwrite_messageLength, Header.octets_eq _ hl]
  have htail := serializeMembers_eq hs (Nat.le_of_eq hdrop.symm)
  rw [← hdrop, List.drop_length, List.append_nil] at htail
  simp only [Message.serializeTo, bind, Except.bind, hw1, hw2, pure, Except.pure,
    drop_append_of_length hoct, take_append_of_length hoct, htail]

theorem Message.serializedLength_eq : m.serializedLength = .ok m.len := by
  simp [Message.serializedLength, membersHaveNil_of_sound hs, Nat.not_lt.2 hl]

/-- A message of sound AVPs within the 24-bit limit is written as its header, with its length,
followed by the AVPs. -/
theorem Message.serialize_eq :
    m.serialize = .ok (m.header.octets m.len ++ encodeMembers m.avps) := by
  simp only [Message.serialize, Message.serializedLength_eq hs hl, bind, Except.bind]
  exact Message.serializeTo_eq hs hl List.length_replicate

end

end Diameter
