import Diameter.Dict.Parser

/-!
# Base.Dictionary

The dictionary file of the base protocol, `base.xml`, and the dictionary the grammar of the base
commands is taken from.
-/

namespace Diameter.Base

open Lib Datatype Dict

/-! ## Rules -/

/-- The extension point of a grammar. -/
def extensions : Rule := { avp := "AVP" }

def one (name : String) : Rule := { avp := name, required := true, max := 1, maxSet := true }

/-- Required in a fixed position. -/
def first (name : String) : Rule := { one name with fixed := true }

def atMostOne (name : String) : Rule := { avp := name, max := 1, maxSet := true }

def many (name : String) : Rule := { avp := name }

def atLeastOne (name : String) : Rule := { avp := name, required := true, min := 1 }

/-! ## AVPs -/

/-- Data before its type name is resolved. -/
def leaf (typeName : String) : Dict.Data := { type := .unknown, typeName := typeName }

def enumerated (items : List (Int32 × String)) : Dict.Data :=
  { leaf "Enumerated" with enum := items.map fun (code, name) => ⟨code, name⟩ }

def group (rules : List Rule) : Dict.Data := { leaf "Grouped" with rule := rules }

/-- An AVP that is sent with the M bit. -/
def mandatory (name : String) (code : UInt32) (data : Dict.Data) : Dict.AVP :=
  { name := name, code := code, must := "M", mustNot := "V", data := data }

/-- An AVP that is sent without the M bit. -/
def plain (name : String) (code : UInt32) (data : Dict.Data) : Dict.AVP :=
  { name := name, code := code, must := "-", mustNot := "V,M", data := data }

/-- An AVP without a rule for the M bit. -/
def either (name : String) (code : UInt32) (data : Dict.Data) : Dict.AVP :=
  { name := name, code := code, mustNot := "V", data := data }

/-! ## Commands -/

def capabilitiesExchange : Command where
  code := 257
  name := "Capabilities-Exchange"
  short := "CE"
  request := ⟨some false, [one "Origin-Host", one "Origin-Realm", atLeastOne "Host-IP-Address",
      one "Vendor-Id", one "Product-Name", atMostOne "Origin-State-Id", many "Supported-Vendor-Id",
      many "Auth-Application-Id", many "Inband-Security-Id", many "Acct-Application-Id",
      many "Vendor-Specific-Application-Id", atMostOne "Firmware-Revision", extensions]⟩
  answer := ⟨some false, [one "Result-Code", one "Origin-Host", one "Origin-Realm",
      atLeastOne "Host-IP-Address", one "Vendor-Id", one "Product-Name", atMostOne "Origin-State-Id",
      atMostOne "Error-Message", atMostOne "Failed-AVP", many "Supported-Vendor-Id",
      many "Auth-Application-Id", many "Inband-Security-Id", many "Acct-Application-Id",
      many "Vendor-Specific-Application-Id", atMostOne "Firmware-Revision", extensions]⟩

def reAuth : Command where
  code := 258
  name := "Re-Auth"
  short := "RA"
  request := ⟨some true, [first "Session-Id", one "Origin-Host", one "Origin-Realm",
      one "Destination-Realm", one "Destination-Host", one "Auth-Application-Id",
      one "Re-Auth-Request-Type", atMostOne "User-Name", atMostOne "Origin-State-Id",
      many "Proxy-Info", many "Route-Record", extensions]⟩
  answer := ⟨some true, [first "Session-Id", one "Result-Code", one "Origin-Host",
      one "Origin-Realm", atMostOne "User-Name", atMostOne "Origin-State-Id",
      atMostOne "Error-Message", atMostOne "Error-Reporting-Host", atMostOne "Failed-AVP",
      many "Redirect-Host", atMostOne "Redirect-Host-Usage", atMostOne "Redirect-Max-Cache-Time",
      many "Proxy-Info", extensions]⟩

def accounting : Command where
  code := 271
  name := "Accounting"
  short := "AC"
  request := ⟨some true, [first "Session-Id", one "Origin-Host", one "Origin-Realm",
      one "Destination-Realm", one "Accounting-Record-Type", one "Accounting-Record-Number",
      atMostOne "Acct-Application-Id", atMostOne "Vendor-Specific-Application-Id",
      atMostOne "User-Name", atMostOne "Destination-Host", atMostOne "Accounting-Sub-Session-Id",
      atMostOne "Acct-Session-Id", atMostOne "Acct-Multi-Session-Id",
      atMostOne "Acct-Interim-Interval", atMostOne "Accounting-Realtime-Required",
      atMostOne "Origin-State-Id", atMostOne "Event-Timestamp", many "Proxy-Info",
      many "Route-Record", extensions]⟩
  answer := ⟨some true, [first "Session-Id", one "Result-Code", one "Origin-Host",
      one "Origin-Realm", one "Accounting-Record-Type", one "Accounting-Record-Number",
      atMostOne "Acct-Application-Id", atMostOne "Vendor-Specific-Application-Id",
      atMostOne "User-Name", atMostOne "Accounting-Sub-Session-Id", atMostOne "Acct-Session-Id",
      atMostOne "Acct-Multi-Session-Id", atMostOne "Error-Message",
      atMostOne "Error-Reporting-Host", atMostOne "Failed-AVP", atMostOne "Acct-Interim-Interval",
      atMostOne "Accounting-Realtime-Required", atMostOne "Origin-State-Id",
      atMostOne "Event-Timestamp", many "Proxy-Info", extensions]⟩

def abortSession : Command where
  code := 274
  name := "Abort-Session"
  short := "AS"
  request := ⟨some true, [first "Session-Id", one "Origin-Host", one "Origin-Realm",
      one "Destination-Realm", one "Destination-Host", one "Auth-Application-Id",
      atMostOne "User-Name", atMostOne "Origin-State-Id", many "Proxy-Info", many "Route-Record",
      extensions]⟩
  answer := ⟨some true, [first "Session-Id", one "Result-Code", one "Origin-Host",
      one "Origin-Realm", atMostOne "User-Name", atMostOne "Origin-State-Id",
      atMostOne "Error-Message", atMostOne "Error-Reporting-Host", atMostOne "Failed-AVP",
      many "Redirect-Host", atMostOne "Redirect-Host-Usage", atMostOne "Redirect-Max-Cache-Time",
      many "Proxy-Info", extensions]⟩

def sessionTermination : Command where
  code := 275
  name := "Session-Termination"
  short := "ST"
  request := ⟨some true, [first "Session-Id", one "Origin-Host", one "Origin-Realm",
      one "Destination-Realm", one "Auth-Application-Id", one "Termination-Cause",
      atMostOne "User-Name", atMostOne "Destination-Host", many "Class",
      atMostOne "Origin-State-Id", many "Proxy-Info", many "Route-Record", extensions]⟩
  answer := ⟨some true, [first "Session-Id", one "Result-Code", one "Origin-Host",
      one "Origin-Realm", atMostOne "User-Name", many "Class", atMostOne "Error-Message",
      atMostOne "Error-Reporting-Host", atMostOne "Failed-AVP", atMostOne "Origin-State-Id",
      many "Redirect-Host", atMostOne "Redirect-Host-Usage", atMostOne "Redirect-Max-Cache-Time",
      many "Proxy-Info", extensions]⟩

def deviceWatchdog : Command where
  code := 280
  name := "Device-Watchdog"
  short := "DW"
  request := ⟨some false, [one "Origin-Host", one "Origin-Realm", atMostOne "Origin-State-Id",
      extensions]⟩
  answer := ⟨some false, [one "Result-Code", one "Origin-Host", one "Origin-Realm",
      atMostOne "Error-Message", atMostOne "Failed-AVP", atMostOne "Origin-State-Id", extensions]⟩

def disconnectPeer : Command where
  code := 282
  name := "Disconnect-Peer"
  short := "DP"
  request := ⟨some false, [one "Origin-Host", one "Origin-Realm", one "Disconnect-Cause",
      extensions]⟩
  answer := ⟨some false, [one "Result-Code", one "Origin-Host", one "Origin-Realm",
      atMostOne "Error-Message", atMostOne "Failed-AVP", extensions]⟩

/-- The AVPs of the base application, in the order of the file. -/
def definitions : List Dict.AVP := [
    mandatory "Acct-Interim-Interval" 85 (leaf "Unsigned32"),
    mandatory "Accounting-Realtime-Required" 483 (enumerated [(1, "DELIVER_AND_GRANT"),
        (2, "GRANT_AND_STORE"), (3, "GRANT_AND_LOSE")]),
    mandatory "Acct-Multi-Session-Id" 50 (leaf "UTF8String"),
    mandatory "Accounting-Record-Number" 485 (leaf "Unsigned32"),
    mandatory "Accounting-Record-Type" 480 (enumerated [(1, "EVENT_RECORD"), (2, "START_RECORD"),
        (3, "INTERIM_RECORD"), (4, "STOP_RECORD")]),
    mandatory "Acct-Session-Id" 44 (leaf "OctetString"),
    mandatory "Accounting-Sub-Session-Id" 287 (leaf "Unsigned64"),
    mandatory "Acct-Application-Id" 259 (leaf "Unsigned32"),
    mandatory "Auth-Application-Id" 258 (leaf "Unsigned32"),
    mandatory "Auth-Request-Type" 274 (enumerated [(1, "AUTHENTICATE_ONLY"), (2, "AUTHORIZE_ONLY"),
        (3, "AUTHORIZE_AUTHENTICATE")]),
    mandatory "Authorization-Lifetime" 291 (leaf "Unsigned32"),
    mandatory "Auth-Grace-Period" 276 (leaf "Unsigned32"),
    mandatory "Auth-Session-State" 277 (enumerated [(0, "STATE_MAINTAINED"),
        (1, "NO_STATE_MAINTAINED")]),
    mandatory "Re-Auth-Request-Type" 285 (enumerated [(0, "AUTHORIZE_ONLY"),
        (1, "AUTHORIZE_AUTHENTICATE")]),
    mandatory "Class" 25 (leaf "OctetString"),
    mandatory "Destination-Host" 293 (leaf "DiameterIdentity"),
    mandatory "Destination-Realm" 283 (leaf "DiameterIdentity"),
    mandatory "Disconnect-Cause" 273 (enumerated [(0, "REBOOTING"), (1, "BUSY"),
        (2, "DO_NOT_WANT_TO_TALK_TO_YOU")]),
    plain "Error-Message" 281 (leaf "UTF8String"),
    plain "Error-Reporting-Host" 294 (leaf "DiameterIdentity"),
    mandatory "Event-Timestamp" 55 (leaf "Time"),
    mandatory "Experimental-Result" 297 (group [one "Vendor-Id", one "Experimental-Result-Code"]),
    mandatory "Experimental-Result-Code" 298 (leaf "Unsigned32"),
    mandatory "Failed-AVP" 279 (group [atLeastOne "AVP"]),
    plain "Firmware-Revision" 267 (leaf "Unsigned32"),
    mandatory "Host-IP-Address" 257 (leaf "Address"),
    mandatory "Inband-Security-Id" 299 (leaf "Unsigned32"),
    mandatory "Multi-Round-Time-Out" 272 (leaf "Unsigned32"),
    mandatory "Origin-Host" 264 (leaf "DiameterIdentity"),
    mandatory "Origin-Realm" 296 (leaf "DiameterIdentity"),
    mandatory "Origin-State-Id" 278 (leaf "Unsigned32"),
    plain "Product-Name" 269 (leaf "UTF8String"),
    mandatory "Proxy-Host" 280 (leaf "DiameterIdentity"),
    mandatory "Proxy-Info" 284 (group [one "Proxy-Host", one "Proxy-State", extensions]),
    mandatory "Proxy-State" 33 (leaf "OctetString"),
    either "Redirect-Realm" 620 (leaf "DiameterIdentity"),
    mandatory "Redirect-Host" 292 (leaf "DiameterURI"),
    mandatory "Redirect-Host-Usage" 261 (enumerated [(0, "DONT_CACHE"), (1, "ALL_SESSION"),
        (2, "ALL_REALM"), (3, "REALM_AND_APPLICATION"), (4, "ALL_APPLICATION"), (5, "ALL_HOST"),
        (6, "ALL_USER")]),
    mandatory "Redirect-Max-Cache-Time" 262 (leaf "Unsigned32"),
    mandatory "Result-Code" 268 (leaf "Unsigned32"),
    mandatory "Route-Record" 282 (leaf "DiameterIdentity"),
    mandatory "Session-Id" 263 (leaf "UTF8String"),
    mandatory "Session-Timeout" 27 (leaf "Unsigned32"),
    mandatory "Session-Binding" 270 (leaf "Unsigned32"),
    mandatory "Session-Server-Failover" 271 (enumerated [(0, "REFUSE_SERVICE"), (1, "TRY_AGAIN"),
        (2, "ALLOW_SERVICE"), (3, "TRY_AGAIN_ALLOW_SERVICE")]),
    mandatory "Supported-Vendor-Id" 265 (leaf "Unsigned32"),
    mandatory "Termination-Cause" 295 (enumerated [(1, "DIAMETER_LOGOUT"),
        (2, "DIAMETER_SERVICE_NOT_PROVIDED"), (3, "DIAMETER_BAD_ANSWER"),
        (4, "DIAMETER_ADMINISTRATIVE"), (5, "DIAMETER_LINK_BROKEN"), (6, "DIAMETER_AUTH_EXPIRED"),
        (7, "DIAMETER_USER_MOVED"), (8, "DIAMETER_SESSION_TIMEOUT"), (11, "USER_REQUEST"),
        (12, "LOST_CARRIER"), (13, "LOST_SERVICE"), (14, "IDLE_TIMEOUT"), (15, "SESSION_TIMEOUT"),
        (16, "ADMIN_RESET"), (17, "ADMIN_REBOOT"), (18, "PORT_ERROR"), (19, "NAS_ERROR"),
        (20, "NAS_REQUEST"), (21, "NAS_REBOOT"), (22, "PORT_UNNEEDED"), (23, "PORT_PREEMPTED"),
        (24, "PORT_SUSPENDED"), (25, "SERVICE_UNAVAILABLE"), (26, "CALLBACK"), (27, "USER_ERROR"),
        (28, "HOST_REQUEST"), (29, "SUPPLICANT_RESTART"), (30, "REAUTHENTICATION_FAILURE"),
        (31, "PORT_REINITIALIZED"), (32, "PORT_ADMINISTRATIVELY_DISABLED")]),
    mandatory "User-Name" 1 (leaf "UTF8String"),
    mandatory "Vendor-Id" 266 (leaf "Unsigned32"),
    mandatory "Vendor-Specific-Application-Id" 260 (group [one "Vendor-Id",
        atMostOne "Auth-Application-Id", atMostOne "Acct-Application-Id"]),
    either "OC-Supported-Features" 621 (group [atMostOne "OC-Feature-Vector", atMostOne "SourceID",
        atMostOne "OC-Peer-Algo", extensions]),
    either "OC-Feature-Vector" 622 (leaf "Unsigned64"),
    either "OC-OLR" 623 (group [first "OC-Sequence-Number", first "OC-Report-Type",
        atMostOne "OC-Reduction-Percentage", atMostOne "OC-Validity-Duration",
        atMostOne "SourceID", extensions]),
    either "OC-Sequence-Number" 624 (leaf "Unsigned64"),
    either "OC-Validity-Duration" 625 (leaf "Unsigned32"),
    either "OC-Report-Type" 626 (enumerated [(0, "HOST_REPORT"), (1, "REALM_REPORT"),
        (2, "PEER_REPORT")]),
    either "OC-Reduction-Percentage" 627 (leaf "Unsigned32"),
    either "DRMP" 301 (enumerated [(0, "PRIORITY_0"), (1, "PRIORITY_1"), (2, "PRIORITY_2"),
        (3, "PRIORITY_3"), (4, "PRIORITY_4"), (5, "PRIORITY_5"), (6, "PRIORITY_6"),
        (7, "PRIORITY_7"), (8, "PRIORITY_8"), (9, "PRIORITY_9"), (10, "PRIORITY_10"),
        (11, "PRIORITY_11"), (12, "PRIORITY_12"), (13, "PRIORITY_13"), (14, "PRIORITY_14"),
        (15, "PRIORITY_15")]),
    either "Load" 650 (group [atMostOne "Load-Type", atMostOne "Load-Value", atMostOne "SourceID",
        extensions]),
    either "Load-Type" 651 (enumerated [(0, "HOST"), (1, "PEER")]),
    either "Load-Value" 652 (leaf "Unsigned64"),
    either "SourceID" 649 (leaf "DiameterIdentity"),
    either "OC-Peer-Algo" 648 (leaf "Unsigned64")]

/-! ## The file -/

def commands : List Command :=
  [capabilitiesExchange, reAuth, accounting, abortSession, sessionTermination, deviceWatchdog,
   disconnectPeer]

def baseFile : File where
  app := [{ id := 0, command := commands, avp := definitions }, { id := 3, type := "acct" }]

end Diameter.Base
