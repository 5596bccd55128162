import Diameter.Base.Messages

/-!
# Base.Capabilities

The local capabilities: which applications and vendors a node advertises, the check of a
configuration, and the AVPs that carry them in a CER or CEA.

Configured AVPs are sent as they are. Where no application list is configured, the applications of
the dictionary are merged by their identifiers and sent in order.
-/

namespace Diameter

open Lib Datatype Dict

variable (cfg : Settings)

/-- Whether an AVP is in the IETF namespace. -/
def AVP.isIETF (a : AVP) : Bool := a.vendorID == 0 && a.flags &&& vbit == 0

namespace Base

/-! ## Applications -/

/-- The suppliers a declaration names, its author last. -/
def suppliers (app : LocalApplication) : List UInt32 :=
  if app.vendor ≠ 0 then app.supportedVendors ++ [app.vendor] else app.supportedVendors

/-- The first declaration of an application fixes its author and its type. -/
def firstDeclaration (app : LocalApplication) : LocalApplication where
  id := app.id
  appType := if app.appType ≠ "acct" then "auth" else app.appType
  vendor := if isVendorSpecificApplication app.id then app.vendor else 0
  supportedVendors := suppliers app

/-- Later declarations only add suppliers. -/
def declare (result : List LocalApplication) (app : LocalApplication) : List LocalApplication :=
  if app.id = 0 then result
  else if result.any fun old => old.id == app.id then
    result.map fun old =>
      if old.id = app.id then
        { old with supportedVendors := old.supportedVendors ++ suppliers app }
      else old
  else result ++ [firstDeclaration app]

def mergeApplications (apps : List LocalApplication) : List LocalApplication :=
  (apps.foldl declare []).mergeSort fun a b => decide (a.id ≤ b.id)

def explicitApplications : Bool :=
  cfg.authApplicationID.isSome || cfg.acctApplicationID.isSome ||
    cfg.vendorSpecificApplicationID.isSome

/-- The AVPs of a configured list that are not nil. -/
def configured (values : Option (List (Option AVP))) : List AVP := (values.getD []).filterMap id

/-- An offered application with what the dictionary says about it. A configured
Vendor-Specific-Application-Id names its own author. -/
def offer (available : List LocalApplication) (id : UInt32) (kind : String) (vendor : UInt32) :
    LocalApplication :=
  let app := (available.find? fun app => app.id == id).getD { id := id }
  let app := { app with id := id, appType := kind }
  if vendor ≠ 0 then
    { app with supportedVendors := app.supportedVendors ++ [app.vendor], vendor := vendor }
  else app

/-- What a Vendor-Specific-Application-Id names: the application, its type and its author. -/
structure VendorApplication where
  id : UInt32 := 0
  kind : String := "auth"
  vendor : UInt32 := 0

def readMember (v : VendorApplication) (child : AVP) : VendorApplication :=
  match child.isIETF, child.unsigned32? with
  | true, some value =>
    if child.code = vendorIDCode then { v with vendor := value }
    else if child.code = authApplicationIDCode then { v with id := value }
    else if child.code = acctApplicationIDCode then { v with id := value, kind := "acct" }
    else v
  | _, _ => v

def vendorApplication (a : AVP) : Option VendorApplication :=
  match a.data with
  | .group ms => some ((ms.filterMap id).foldl readMember {})
  | _ => none

def advertisedApplications : List LocalApplication :=
  let available := mergeApplications cfg.applications
  if !explicitApplications cfg then available
  else
    ((configured cfg.authApplicationID).filterMap AVP.unsigned32?).map
        (fun id => offer available id "auth" 0) ++
      ((configured cfg.acctApplicationID).filterMap AVP.unsigned32?).map
        (fun id => offer available id "acct" 0) ++
      ((configured cfg.vendorSpecificApplicationID).filterMap vendorApplication).map
        (fun v => offer available v.id v.kind v.vendor)

/-- `AdvertisedApplicationIDs`. -/
def advertisedApplicationIDs : List UInt32 :=
  (((advertisedApplications cfg).map LocalApplication.id).mergeSort
    fun a b => decide (a ≤ b)).dedup

/-! ## The check of a configuration -/

/-- A configured AVP of an Unsigned32 list. -/
def checkApplicationAVP (name : String) (code : UInt32) (i : Nat) : Option AVP → Option String
  | none => some s!"{name}[{i}]: nil AVP"
  | some a =>
    if a.unsigned32?.isNone || a.code != code || !a.isIETF then
      some s!"{name}[{i}]: expected an IETF Unsigned32 AVP"
    else none

def checkList (check : Nat → Option AVP → Option String) (values : Option (List (Option AVP))) :
    Option String :=
  (values.getD []).zipIdx.findSome? fun (a, i) => check i a

/-- The Vendor-Ids and the application identifiers among the members, counted until a member is
nil or has other data. -/
def countMembers (i : Nat) : List (Option AVP) → Nat → Nat → Except String (Nat × Nat)
  | [], vendors, apps => .ok (vendors, apps)
  | none :: _, _, _ => .error s!"Vendor-Specific-Application-Id[{i}]: nil member"
  | some child :: rest, vendors, apps =>
    if !child.isIETF then countMembers i rest vendors apps
    else if child.code = vendorIDCode ∨ child.code = authApplicationIDCode ∨
        child.code = acctApplicationIDCode then
      if child.unsigned32?.isNone then
        .error (s!"Vendor-Specific-Application-Id[{i}]: member {child.code.toNat}" ++
          " must be Unsigned32")
      else if child.code = vendorIDCode then countMembers i rest (vendors + 1) apps
      else countMembers i rest vendors (apps + 1)
    else countMembers i rest vendors apps

def checkVendorApplication (i : Nat) : Option AVP → Option String
  | none => some s!"Vendor-Specific-Application-Id[{i}]: nil AVP"
  | some a =>
    match a.data with
    | .group ms =>
      if a.code != vendorSpecificApplicationIDCode || !a.isIETF then
        some s!"Vendor-Specific-Application-Id[{i}]: expected an IETF Grouped AVP"
      else
        match countMembers i ms 0 0 with
        | .error e => some e
        | .ok (1, 1) => none
        | .ok _ => some (s!"Vendor-Specific-Application-Id[{i}]: requires exactly one Vendor-Id and" ++
            " exactly one Auth-Application-Id or Acct-Application-Id (RFC 6733 §6.11, Erratum 4808)")
    | _ => some s!"Vendor-Specific-Application-Id[{i}]: expected an IETF Grouped AVP"

/-- `ValidateCapabilities`. -/
def validateCapabilities : Option ProtocolError :=
  let error :=
    (checkList (checkApplicationAVP "Auth-Application-Id" authApplicationIDCode)
        cfg.authApplicationID).or <|
      (checkList (checkApplicationAVP "Acct-Application-Id" acctApplicationIDCode)
        cfg.acctApplicationID).or <|
      (checkList (checkApplicationAVP "Supported-Vendor-Id" supportedVendorIDCode)
        cfg.supportedVendorID).or <|
      (checkList checkVendorApplication cfg.vendorSpecificApplicationID).or <|
      if (advertisedApplications cfg).any fun app => app.id == 0 then
        some "application 0 is implicit and must not be advertised"
      else none
  error.map ProtocolError.other

/-! ## The AVPs of a capabilities message -/

def unsigned32AVP (code value : UInt32) : AVP := newAVP code mbit 0 (.value (.unsigned32 value))

/-- The AVP an application of the dictionary is advertised with. -/
def applicationAVP (app : LocalApplication) : AVP :=
  let id := unsigned32AVP
    (if app.appType = "acct" then acctApplicationIDCode else authApplicationIDCode) app.id
  if isVendorSpecificApplication app.id && app.vendor != 0 then
    newAVP vendorSpecificApplicationIDCode mbit 0
      (.group [some (unsigned32AVP vendorIDCode app.vendor), some id])
  else id

/-- The AVPs `addApplications` adds. -/
def applicationAVPs (apps : List LocalApplication) : List AVP :=
  if explicitApplications cfg then
    configured cfg.authApplicationID ++ configured cfg.acctApplicationID ++
      configured cfg.vendorSpecificApplicationID
  else apps.map applicationAVP

def addApplications (m : Message) (cfg : Settings) (apps : List LocalApplication) : Message :=
  m.addAVPs (applicationAVPs cfg apps)

/-- The vendors inferred from the applications: the node's own only if it is an author. -/
def inferredVendors (apps : List LocalApplication) : List UInt32 :=
  let authors := (apps.map LocalApplication.vendor).filter (· ≠ 0)
  let vendors := (apps.flatMap fun app => app.vendor :: app.supportedVendors).filter (· ≠ 0)
  let vendors := if cfg.vendorID ∈ authors then vendors else vendors.filter (· ≠ cfg.vendorID)
  vendors.dedup.mergeSort fun a b => decide (a ≤ b)

/-- The AVPs `addSupportedVendors` adds. -/
def supportedVendorAVPs (apps : List LocalApplication) : List AVP :=
  match cfg.supportedVendorID with
  | some values => values.filterMap id
  | none => (inferredVendors cfg apps).map (unsigned32AVP supportedVendorIDCode)

def addSupportedVendors (m : Message) (cfg : Settings) (apps : List LocalApplication) : Message :=
  m.addAVPs (supportedVendorAVPs cfg apps)

end Base
end Diameter
