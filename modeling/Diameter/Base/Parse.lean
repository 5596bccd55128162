import Diameter.Base.Builders

/-!
# Base.Parse

Reading the base messages: the fields of the message structs, the common applications and the
checks of CER and CEA.

A struct is filled field by field in its own order, and keeps what was read before an error
(`scanStruct`). The conversions are those of Go's `reflect` between the payload types and the
types of the fields; a field whose payload does not convert keeps its zero value.
-/

namespace Diameter.Base

open Lib Datatype Dict

variable {α : Type}

/-! ## Conversions -/

/-- The UTF-8 octets of a rune; what is not one is replaced. -/
def runeBytes (n : Int) : Bytes :=
  let c : Nat := if 0 ≤ n ∧ n < 0x110000 ∧ ¬ (0xd800 ≤ n ∧ n < 0xe000) then n.toNat else 0xfffd
  let tail (shift : Nat) : UInt8 := UInt8.ofNat (0x80 + c / 64 ^ shift % 64)
  if c < 0x80 then [UInt8.ofNat c]
  else if c < 0x800 then [UInt8.ofNat (0xc0 + c / 64), tail 0]
  else if c < 0x10000 then [UInt8.ofNat (0xe0 + c / 4096), tail 1, tail 0]
  else [UInt8.ofNat (0xf0 + c / 262144), tail 2, tail 1, tail 0]

/-- The integer a value is, if its type is an integer type. -/
def integer? : Value → Option Int
  | .enumerated n | .integer32 n => some n.toInt
  | .integer64 n => some n.toInt
  | .unsigned32 n => some n.toNat
  | .unsigned64 n => some n.toNat
  | _ => none

/-- Conversion to a string type. -/
def toText? : Value → Option Bytes
  | .unknown b | .diameterIdentity b | .diameterURI b | .grouped b | .ipFilterRule b | .ipv4 b
  | .octetString b | .qosFilterRule b | .utf8String b | .ipv6 b => some b
  | v => (integer? v).map runeBytes

/-- Conversion to `uint32`, which truncates. -/
def toUnsigned32? (v : Value) : Option UInt32 := (integer? v).map UInt32.ofInt

/-- The Go name of the type of a payload. -/
def goType : Data AVP → String
  | .nil => "<nil>"
  | .addressPtr _ => "*datatype.Address"
  | .nilGroup | .group _ => "*diam.GroupedAVP"
  | .value v => "datatype." ++
    match v.typeID with
    | .unknown => "Unknown"
    | .address => "Address"
    | .diameterIdentity => "DiameterIdentity"
    | .diameterURI => "DiameterURI"
    | .enumerated => "Enumerated"
    | .float32 => "Float32"
    | .float64 => "Float64"
    | .grouped => "Grouped"
    | .ipFilterRule => "IPFilterRule"
    | .ipv4 => "IPv4"
    | .integer32 => "Integer32"
    | .integer64 => "Integer64"
    | .octetString => "OctetString"
    | .qosFilterRule => "QoSFilterRule"
    | .time => "Time"
    | .utf8String => "UTF8String"
    | .unsigned32 => "Unsigned32"
    | .unsigned64 => "Unsigned64"
    | .ipv6 => "IPv6"

/-- `unmarshalAddress` of one AVP. -/
def readAddress (target : String) (a : AVP) : Except String Address :=
  match a.data with
  | .value (.address x) => x.valid.map fun _ => x
  | data => .error ("cannot unmarshal " ++ goType data ++ " as Address into " ++ target)

/-! ## Structs -/

/-- A field of a message struct: its tag, and how the AVPs of that name are stored. The reader gets
the type the dictionary gives the AVP. -/
structure FieldReader (α : Type) where
  name : String
  read : TypeID → AVP → List AVP → α → Except String α

/-- `scanStruct`. -/
def scanStruct (p : Packet) : List (FieldReader α) → α → α × Option ProtocolError
  | [], r => (r, none)
  | f :: fields, r =>
    match p.dictionary.findAVPByName p.header.applicationID f.name with
    | .error e => (r, some (.other e.text))
    | .ok d =>
      match (p.message.avps.filterMap id).filter fun a =>
          a.code == d.code && a.vendorID == d.vendorID with
      | [] => scanStruct p fields r
      | a :: rest =>
        match f.read d.data.type a rest r with
        | .error e => (r, some (.other e))
        | .ok r => scanStruct p fields r

/-- A field of type `*diam.AVP`. -/
def rawField (name : String) (set : α → Option AVP → α) : FieldReader α where
  name := name
  read _ a _ r := .ok (set r (some a))

/-- A field of type `[]*diam.AVP`. -/
def rawFields (name : String) (set : α → List AVP → α) : FieldReader α where
  name := name
  read _ a rest r := .ok (set r (a :: rest))

/-- A field of type `[]datatype.Address`. -/
def addressFields (name : String) (set : α → List Address → α) : FieldReader α where
  name := name
  read _ a rest r := ((a :: rest).mapM (readAddress "datatype.Address")).map (set r)

/-- A field of a basic type named `target`: an Address has no place in it. -/
def valueField {α β : Type} (name target : String) (convert : Value → Option β)
    (set : α → β → α) : FieldReader α where
  name := name
  read expected a _ r :=
    let addressData := match a.data with
      | .value (.address _) => true
      | _ => false
    if expected == .address || addressData then
      match readAddress target a with
      | .error e => .error e
      | .ok _ => .error ("cannot unmarshal Address into " ++ target)
    else
      match a.data with
      | .value v => .ok (((convert v).map (set r)).getD r)
      | _ => .ok r

def identityField (name : String) (set : α → Bytes → α) : FieldReader α :=
  valueField name "datatype.DiameterIdentity" toText? set

def textField (name : String) (set : α → Bytes → α) : FieldReader α :=
  valueField name "string" toText? set

def unsigned32Field (name : String) (set : α → UInt32 → α) : FieldReader α :=
  valueField name "uint32" toUnsigned32? set

/-! ## Applications -/

inductive Role where
  | server | client
deriving DecidableEq, Repr

/-- The errors of `Application`. -/
inductive ApplicationError where
  | missing
  | noCommon
  | unexpected (a : AVP)

/-- The text of an `ErrUnexpectedAVP` names the AVP by its identity only. -/
def ApplicationError.error : ApplicationError → ProtocolError
  | .missing => .other "missing application"
  | .noCommon => .noCommonApplication
  | .unexpected a => .other s!"unexpected AVP: {a.code.toNat}"

/-- The outcome of a check: the AVP at fault and the error. -/
structure Outcome where
  failed : Option AVP := none
  error : Option ApplicationError := none

/-- `chooseErr`. -/
def chooseErr (current : Outcome) (oneFound : Bool) (new : Outcome) : Outcome × Bool :=
  match new.error with
  | none => (current, true)
  | some _ =>
    if current.error.isNone ∨ (current.failed.isNone ∧ new.failed.isSome) then (new, oneFound)
    else (current, oneFound)

/-- `Application.validate` against the advertised identifiers, with the identifiers it records. -/
def validateApplication (advertised : List UInt32) (appType : UInt32) (a : AVP)
    (ids : List UInt32) : Outcome × List UInt32 :=
  if a.code ≠ appType then (⟨some a, some (.unexpected a)⟩, ids)
  else
    match a.unsigned32? with
    | none => (⟨some a, some (.unexpected a)⟩, ids)
    | some id =>
      if id = 0 then (⟨some a, some .noCommon⟩, ids)
      else if id = Diameter.relayApplication then ({}, ids ++ [id])
      else if !advertised.contains id && !advertised.contains Diameter.relayApplication then
        (⟨some a, some .noCommon⟩, ids)
      else ({}, ids ++ [id])

def noApplication : Role → ApplicationError
  | .client => .missing
  | .server => .noCommon

/-- `Application.validateAll`. -/
def validateApplications (advertised : List UInt32) (appType : UInt32) (role : Role)
    (as : List AVP) (ids : List UInt32) : Outcome × List UInt32 :=
  if as.isEmpty then (⟨none, some (noApplication role)⟩, ids)
  else
    let (current, oneFound, ids) := as.foldl
      (fun (current, oneFound, ids) a =>
        let (new, ids) := validateApplication advertised appType a ids
        let (current, oneFound) := chooseErr current oneFound new
        (current, oneFound, ids)) (({} : Outcome), false, ids)
    if oneFound then ({}, ids) else (current, ids)

/-- `Application.handleGroup`. A member that is not an application identifier leaves the outcome of
the members before it in place, so one that comes first counts as a success. On a nil group Go
panics. -/
def handleGroup (advertised : List UInt32) (vs : AVP) (ids : List UInt32) : Outcome × List UInt32 :=
  match vs.data with
  | .group ms =>
    let (current, success, ids) := (ms.filterMap id).foldl
      (fun (current, success, ids) a =>
        let (current, ids) :=
          if a.code = acctApplicationIDCode ∨ a.code = authApplicationIDCode then
            validateApplication advertised a.code a ids
          else (current, ids)
        (current, success || current.error.isNone, ids)) (({} : Outcome), false, ids)
    if success then ({}, ids) else (current, ids)
  | _ => (⟨some vs, some (.unexpected vs)⟩, ids)

/-- `Application.ParseWithApplicationIDs` with the advertised identifiers given: the common ones. -/
def parseApplications (advertised : List UInt32) (role : Role) (acct auth vendor : List AVP) :
    Except ApplicationError (List UInt32) :=
  let (current, ids) := validateApplications advertised acctApplicationIDCode role acct []
  let oneFound := current.error.isNone
  let (new, ids) := validateApplications advertised authApplicationIDCode role auth ids
  let (current, oneFound) := chooseErr current oneFound new
  let (current, oneFound, ids) := vendor.foldl
    (fun (current, oneFound, ids) vs =>
      let (new, ids) := handleGroup advertised vs ids
      let (current, oneFound) := chooseErr current oneFound new
      (current, oneFound, ids)) (current, oneFound, ids)
  if !oneFound then .error (current.error.getD .noCommon)
  else if ids.isEmpty then .error (noApplication role)
  else .ok ids

/-! ## Messages -/

/-- An undecoded Host-IP-Address, and the result code for it. -/
def rawAddress (m : Message) : Option (AVP × UInt32) :=
  (m.avps.filterMap id).findSome? fun a =>
    if a.code = hostIPAddressCode ∧ a.vendorID = 0 then
      match a.data with
      | .value (.unknown b) => some (a, if b.length < 2 then invalidAVPLength else invalidAVPValue)
      | _ => none
    else none

def cerFields : List (FieldReader CER) :=
  [addressFields "Host-IP-Address" fun r v => { r with hostIPAddresses := v },
   identityField "Origin-Host" fun r v => { r with originHost := v },
   identityField "Origin-Realm" fun r v => { r with originRealm := v },
   rawField "Origin-State-Id" fun r v => { r with originStateID := v },
   rawField "Inband-Security-Id" fun r v => { r with inbandSecurityID := v },
   rawFields "Acct-Application-Id" fun r v => { r with acctApplicationID := v },
   rawFields "Auth-Application-Id" fun r v => { r with authApplicationID := v },
   rawFields "Vendor-Specific-Application-Id" fun r v => { r with vendorSpecificApplicationID := v }]

/-- The error for a CER without one of its identities, with an example of what is missing. -/
def missingIdentity (code : UInt32) (text : String) : ProtocolError :=
  .message ⟨missingAVP, some (newAVP code mbit 0 (.value (.diameterIdentity [0]))), false, text⟩

/-- Whether an offered Inband-Security-Id is common: the first that is no Unsigned32, or whether
any was offered and any is common. -/
def inbandSecurity (tls : Bool) (m : Message) : Except AVP (Bool × Bool) :=
  (m.avps.filterMap id).foldlM (fun ((offered, common) : Bool × Bool) (a : AVP) =>
    if a.code = inbandSecurityIDCode ∧ a.vendorID = 0 then
      match a.unsigned32? with
      | none => .error a
      | some v => .ok (true, common || v == 0 || v == 1 && tls)
    else .ok (offered, common)) (false, false)

/-- `CER.Parse` as a server. -/
def parseCER (p : Packet) (options : ParseOptions) : Except ProtocolError CER :=
  match validateHeader p.header with
  | some e => .error (.message e)
  | none =>
    match rawAddress p.message with
    | some (a, code) =>
      .error (.message ⟨code, some a, false, "Host-IP-Address is not a valid Address"⟩)
    | none =>
      match scanStruct p cerFields {} with
      | (_, some e) => .error e
      | (cer, none) =>
        if cer.originHost.isEmpty then .error (missingIdentity originHostCode "missing Origin-Host")
        else if cer.originRealm.isEmpty then
          .error (missingIdentity originRealmCode "missing Origin-Realm")
        else
          match inbandSecurity options.tls p.message with
          | .error a =>
            .error (.message ⟨invalidAVPLength, some a, false,
              "Inband-Security-Id must be Unsigned32"⟩)
          | .ok (true, false) => .error .noCommonSecurity
          | .ok _ =>
            match parseApplications options.localApplications .server cer.acctApplicationID
                cer.authApplicationID cer.vendorSpecificApplicationID with
            | .error e => .error e.error
            | .ok ids => .ok { cer with applications := ids }

def ceaFields : List (FieldReader CEA) :=
  [addressFields "Host-IP-Address" fun r v => { r with hostIPAddresses := v },
   unsigned32Field "Result-Code" fun r v => { r with resultCode := v },
   identityField "Origin-Host" fun r v => { r with originHost := v },
   identityField "Origin-Realm" fun r v => { r with originRealm := v },
   unsigned32Field "Origin-State-Id" fun r v => { r with originStateID := v },
   unsigned32Field "Vendor-Id" fun r v => { r with vendorID := v },
   textField "Product-Name" fun r v => { r with productName := v },
   rawFields "Supported-Vendor-Id" fun r v => { r with supportedVendorID := v },
   rawFields "Acct-Application-Id" fun r v => { r with acctApplicationID := v },
   rawFields "Auth-Application-Id" fun r v => { r with authApplicationID := v },
   rawFields "Vendor-Specific-Application-Id" fun r v => { r with vendorSpecificApplicationID := v },
   rawFields "Failed-AVP" fun r v => { r with failedAVP := v },
   textField "Error-Message" fun r v => { r with errorMessage := v }]

/-- `CEA.Parse` as a client. -/
def parseCEA (p : Packet) (options : ParseOptions) : CEA × Option ProtocolError :=
  match validateHeader p.header with
  | some e => ({}, some (.message e))
  | none =>
    match rawAddress p.message with
    | some (a, code) =>
      ({}, some (.message ⟨code, some a, false,
        "invalid CEA Host-IP-Address: not a valid Address"⟩))
    | none =>
      match scanStruct p ceaFields {} with
      | (cea, some e) => (cea, some e)
      | (cea, none) =>
        if cea.resultCode = 0 then (cea, some (.other "missing Result-Code"))
        else if cea.originHost.isEmpty then (cea, some (.other "missing Origin-Host"))
        else if cea.originRealm.isEmpty then (cea, some (.other "missing Origin-Realm"))
        else if cea.resultCode ≠ successCode then (cea, some (.failedResultCode cea.resultCode))
        else
          match parseApplications options.localApplications .client cea.acctApplicationID
              cea.authApplicationID cea.vendorSpecificApplicationID with
          | .error e => (cea, some e.error)
          | .ok ids => ({ cea with applications := ids }, none)

def dwrFields : List (FieldReader DWR) :=
  [identityField "Origin-Host" fun r v => { r with originHost := v },
   identityField "Origin-Realm" fun r v => { r with originRealm := v },
   rawField "Origin-State-Id" fun r v => { r with originStateID := v }]

/-- `DWR.Parse`. -/
def parseDWR (p : Packet) : DWR × Option ProtocolError :=
  match scanStruct p dwrFields {} with
  | (dwr, some e) => (dwr, some e)
  | (dwr, none) =>
    if dwr.originHost.isEmpty then (dwr, some (.other "missing Origin-Host"))
    else if dwr.originRealm.isEmpty then (dwr, some (.other "missing Origin-Realm"))
    else (dwr, none)

def dwaFields : List (FieldReader DWA) :=
  [unsigned32Field "Result-Code" fun r v => { r with resultCode := v },
   unsigned32Field "Origin-State-Id" fun r v => { r with originStateID := v }]

/-- `DWA.Parse`. -/
def parseDWA (p : Packet) : Except ProtocolError DWA :=
  match scanStruct p dwaFields {} with
  | (_, some e) => .error e
  | (dwa, none) => .ok dwa

end Diameter.Base
