import Diameter.Dict.Snapshot
import Diameter.Wire.Encode

/-!
# Wire.Decode

The AVP decoder: `decodeFromBytes`, the loop over the AVPs of a payload, and the Failed-AVP
evidence it makes of what it rejects.

The source counts the enclosing Grouped AVPs upwards until the dictionary's limit. The model
recurses on the levels that are left, which decrease; `decodeAVP_eq` states the source's form.
The loop takes the number of octets as fuel, and every iteration consumes at least one.
-/

namespace Diameter

open Lib Datatype Dict

def failedAVPCode : UInt32 := 279

def invalidAVPValue : UInt32 := 5004
def invalidAVPLength : UInt32 := 5014

/-! ## Errors -/

/-- `avpLengthError`: an AVP that does not fit its frame. -/
structure LengthError where
  failedAVP : AVP
  text : String

/-- `avpDecodeError`: a payload that cannot be decoded. `tooDeep` is what `errors.Is` finds of
`errGroupedTooDeep` in its chain. -/
structure PayloadError where
  resultCode : UInt32
  failedAVP : AVP
  tooDeep : Bool
  text : String

/-- What `decodeAVP` returns besides the AVP. Every error that is not a length error carries an
`avpDecodeError`, so that is the only other case. -/
inductive AVPError where
  | length (e : LengthError)
  | payload (e : PayloadError)

/-- The joined text of `decodeErrors`; its `first` is the head of the list. -/
def errorsText (errs : List PayloadError) : String :=
  String.intercalate "; " (errs.map PayloadError.text)

/-- The parent's header around evidence from one of its members. -/
def groupedParent (code : UInt32) (flags : UInt8) (vendorID : UInt32) (failed : AVP) : AVP :=
  newAVPWithFlags code flags vendorID (.group [some failed])

/-- `minimumAVPPayloadLength`. -/
def minimumAVPPayloadLength : TypeID → Nat
  | .address => 2
  | .enumerated | .float32 | .ipv4 | .integer32 | .time | .unsigned32 => 4
  | .float64 | .integer64 | .unsigned64 => 8
  | .ipv6 => 16
  | _ => 0

/-- `failedAVPFromWire`: the header that is there, completed with zeros, and the smallest payload
of the AVP's type. -/
def failedAVPFromWire (data : Bytes) (app : UInt32) (s : Snapshot) : AVP :=
  let header := (data ++ List.replicate 12 0).take 12
  let code := UInt32.ofNat (ofBigEndian (header.take 4))
  let flags := (header.drop 4).headD 0
  let vendorID := if hasVendor flags then UInt32.ofNat (ofBigEndian (header.drop 8)) else 0
  let payloadLength :=
    match s.findAVP app code vendorID with
    | .ok d => minimumAVPPayloadLength d.data.type
    | .error _ => 0
  newAVPWithFlags code flags vendorID (.value (.unknown (List.replicate payloadLength 0)))

/-! ## One frame -/

/-- An AVP header and the payload it delimits. -/
structure Frame where
  code : UInt32
  flags : UInt8
  length : Nat
  vendorID : UInt32
  body : Bytes
deriving DecidableEq

def tooShort (what : String) (have_ need : Nat) : String :=
  what ++ ": have " ++ toString have_ ++ " need " ++ toString need

def headerTooShort : String := "not enough data to decode AVP header"
def dataTooShort : String := "not enough data to decode AVP"
def vendorTooShort : String := "not enough data to decode AVP with Vendor-ID"

/-- The framing part of `decodeFromBytes`: on an error, the fields read so far and its text. -/
def readFrame (data : Bytes) : Except (AVP × String) Frame :=
  if data.length < 8 then .error (⟨0, 0, 0, 0, .nil⟩, tooShort headerTooShort data.length 8)
  else
    let code := UInt32.ofNat (ofBigEndian (data.take 4))
    let flags := (data.drop 4).headD 0
    let length := ofBigEndian ((data.drop 5).take 3)
    let a : AVP := ⟨code, flags, length, 0, .nil⟩
    if data.length < length then .error (a, tooShort dataTooShort data.length length)
    else
      let data := data.take length
      if data.length < 8 then .error (a, tooShort headerTooShort data.length 8)
      else if hasVendor flags = true ∧ length < 12 then
        .error (a, tooShort vendorTooShort length 12)
      else
        let vendorID :=
          if hasVendor flags then UInt32.ofNat (ofBigEndian ((data.drop 8).take 4)) else 0
        let payload := data.drop (headerLen flags)
        let bodyLen := length - headerLen flags
        if payload.length < bodyLen then
          .error (⟨code, flags, length, vendorID, .nil⟩,
            tooShort dataTooShort payload.length bodyLen)
        else .ok ⟨code, flags, length, vendorID, payload.take bodyLen⟩

/-! ## The loop over the AVPs of a payload -/

inductive LoopEnd where
  | done
  | length (e : LengthError)
  /-- The last AVP has no data, so there is no next offset. -/
  | broken (e : PayloadError)

/-- The AVPs decoded, the payload errors collected on the way, in order, and why it stopped. -/
structure Loop where
  avps : List AVP
  errs : List PayloadError
  stop : LoopEnd

/-- Whether an error of a member counts: inside a Failed-AVP undecodable payloads are evidence,
but nesting beyond the limit still is an error. -/
def PayloadError.counts (tolerant : Bool) (e : PayloadError) : Bool := !tolerant || e.tooDeep

/-- What an iteration adds to the errors. -/
def countedErrs (tolerant : Bool) : Option AVPError → List PayloadError
  | some (.payload e) => if e.counts tolerant then [e] else []
  | _ => []

def advanceError (what : String) (a : AVP) (n have_ : Nat) : LengthError :=
  ⟨a, dataTooShort ++ ": " ++ what ++ " at offset " ++ toString n ++ " consumes " ++
    toString a.len ++ " padded bytes, have " ++ toString have_⟩

/-- The loop of `decodeGroupedFromBytes` and of `decodeAVPs`, from offset `n` with `b` left. The
two differ in the wording `what` and in the tolerance. -/
def decodeLoop (what : String) (tolerant : Bool) (dec : Bytes → AVP × Option AVPError) :
    Nat → Bytes → Nat → Loop
  | 0, _, _ => ⟨[], [], .done⟩
  | fuel + 1, b, n =>
    if b.isEmpty then ⟨[], [], .done⟩
    else
      match dec b with
      | (_, some (.length e)) => ⟨[], [], .length e⟩
      | (a, err) =>
        let errs := countedErrs tolerant err
        match err, a.data with
        | some (.payload e), .nil => ⟨[], errs, .broken e⟩
        | _, _ =>
          if a.len ≤ 0 ∨ a.len > b.length then
            ⟨[], errs, .length (advanceError what a n b.length)⟩
          else
            let rest := decodeLoop what tolerant dec fuel (b.drop a.len) (n + a.len)
            ⟨a :: rest.avps, errs ++ rest.errs, rest.stop⟩

/-! ## One AVP -/

/-- `newAVPDecodeError` for an AVP whose payload `body` was kept as `Unknown`. -/
def newAVPDecodeError (f : Frame) (typeID : TypeID) (tooDeep : Bool) (text : String) :
    PayloadError :=
  let minimum := minimumAVPPayloadLength typeID
  let badLength : Bool := decide (0 < minimum ∧ (f.body.length < minimum ∨
    (typeID ≠ .address ∧ f.body.length ≠ minimum)))
  let data := if !badLength && typeID == .grouped then [] else f.body
  ⟨if badLength then invalidAVPLength else invalidAVPValue,
    newAVPWithFlags f.code f.flags f.vendorID (.value (.unknown data)), tooDeep, text⟩

/-- How a definition is named in an error. -/
def definitionText (d : Dict.AVP) (text : String) : String :=
  d.name ++ "(" ++ toString d.code ++ "): " ++ text

def groupedText (d : Dict.AVP) (errs : List PayloadError) : String :=
  definitionText d ("Grouped\x7b" ++ errorsText errs ++ "\x7d")

/-- `datatype.Decode` and the check that the value accounts for the whole payload. -/
def decodeLeaf (d : Dict.AVP) (body : Bytes) : Except String Value :=
  match decode d.data.type body with
  | .error e => .error e
  | .ok v =>
    if v.len ≠ body.length then
      .error ("size mismatch: " ++ d.data.typeName ++ " expects " ++ toString v.len ++
        " bytes, wire has " ++ toString body.length)
    else .ok v

/-- Whether the members of this AVP are evidence. -/
def Frame.isFailedAVP (f : Frame) : Bool := f.code == failedAVPCode && f.vendorID == 0

/-- The payload part of `decodeFromBytes`. `group` decodes the members of a Grouped AVP; there is
none at the nesting limit. -/
def decodePayload (group : Option (Bool → Bytes → Loop)) (s : Snapshot) (app : UInt32)
    (failed : Bool) (f : Frame) : Data AVP × Option AVPError :=
  let fallback : Data AVP := .value (.unknown f.body)
  match s.avp app f.code f.vendorID with
  | none => (.value (.unknown f.body), none)
  | some d =>
    if d.data.type = .grouped then
      match group with
      | none => (fallback, some (.payload (newAVPDecodeError f d.data.type true
          (definitionText d "grouped AVP nesting exceeds limit"))))
      | some decodeGroup =>
        let r := decodeGroup (failed || f.isFailedAVP) f.body
        match r.stop, r.errs with
        | .length e, _ =>
          (fallback, some (.length ⟨groupedParent f.code f.flags f.vendorID e.failedAVP, e.text⟩))
        | _, e :: es => (fallback, some (.payload ⟨e.resultCode,
            groupedParent f.code f.flags f.vendorID e.failedAVP, e.tooDeep,
            groupedText d (e :: es)⟩))
        | _, [] => (.group (r.avps.map some), none)
    else
      match decodeLeaf d f.body with
      | .error e =>
        (fallback, some (.payload (newAVPDecodeError f d.data.type false (definitionText d e))))
      | .ok v => (.value v, none)

def decodeAVPWith (group : Option (Bool → Bytes → Loop)) (s : Snapshot) (app : UInt32)
    (failed : Bool) (data : Bytes) : AVP × Option AVPError :=
  match readFrame data with
  | .error (a, text) => (a, some (.length ⟨failedAVPFromWire data app s, text⟩))
  | .ok f =>
    let r := decodePayload group s app failed f
    (⟨f.code, f.flags, f.length, f.vendorID, r.1⟩, r.2)

/-- `decodeAVP` with `levels` more Grouped levels allowed. -/
def decodeAVPAt (s : Snapshot) (app : UInt32) : Nat → Bool → Bytes → AVP × Option AVPError
  | 0, failed => decodeAVPWith none s app failed
  | levels + 1, failed =>
    decodeAVPWith (some fun failed b =>
      decodeLoop "grouped AVP" failed (decodeAVPAt s app levels failed) b.length b 0) s app failed

/-- `decodeAVP` for an AVP enclosed by `depth` Grouped AVPs. -/
def decodeAVP (data : Bytes) (app : UInt32) (s : Snapshot) (depth : Nat) (failed : Bool) :
    AVP × Option AVPError :=
  decodeAVPAt s app (s.groupedDepthLimit - depth) failed data

/-- `decodeGroupedFromBytes` for members enclosed by `depth` Grouped AVPs. -/
def decodeGroupedFromBytes (b : Bytes) (app : UInt32) (s : Snapshot) (depth : Nat)
    (failed : Bool) : Loop :=
  decodeLoop "grouped AVP" failed (fun data => decodeAVP data app s depth failed) b.length b 0

/-- The source's recursion: at the limit a Grouped AVP is not entered, below it its members are
decoded one level deeper. -/
theorem decodeAVP_eq (data : Bytes) (app : UInt32) (s : Snapshot) (depth : Nat) (failed : Bool) :
    decodeAVP data app s depth failed =
      decodeAVPWith (if depth ≥ s.groupedDepthLimit then none
        else some fun failed b => decodeGroupedFromBytes b app s (depth + 1) failed)
        s app failed data := by
  unfold decodeAVP
  by_cases h : s.groupedDepthLimit ≤ depth
  · rw [Nat.sub_eq_zero_of_le h, if_pos h, decodeAVPAt]
  obtain ⟨k, hk⟩ : ∃ k, s.groupedDepthLimit - depth = k + 1 := ⟨s.groupedDepthLimit - depth - 1, by omega⟩
  have hk' : s.groupedDepthLimit - (depth + 1) = k := by omega
  rw [hk, if_neg h, decodeAVPAt]
  simp only [decodeGroupedFromBytes, decodeAVP, hk']

/-! ## Unknown mandatory AVPs -/

mutual

/-- `unknownMandatoryHierarchy`: the AVP itself, or its group reduced to the members that lead to
an unknown mandatory AVP. -/
def unknownMandatoryHierarchy (s : Snapshot) (app : UInt32) : AVP → Option AVP
  | ⟨code, flags, length, vendorID, .value v⟩ =>
    match v with
    | .unknown b =>
      if flags &&& mbit ≠ 0 ∧ s.avp app code vendorID = none then
        some ⟨code, flags, length, vendorID, .value (.unknown b)⟩
      else none
    | _ => none
  | ⟨code, flags, _, vendorID, .group ms⟩ =>
    match unknownMandatoryMembers s app ms with
    | [] => none
    | children => some (newAVPWithFlags code flags vendorID (.group (children.map some)))
  | _ => none

def unknownMandatoryMembers (s : Snapshot) (app : UInt32) : List (Option AVP) → List AVP
  | [] => []
  | none :: ms => unknownMandatoryMembers s app ms
  | some a :: ms =>
    match unknownMandatoryHierarchy s app a with
    | some failed => failed :: unknownMandatoryMembers s app ms
    | none => unknownMandatoryMembers s app ms

end

end Diameter
