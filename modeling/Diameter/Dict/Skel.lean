import Diameter.Datatype.Value

/-!
# Dict.Skel

The contents of a dictionary file as package `dict` holds them after XML parsing: applications
with their parents, vendors, commands and AVP definitions, and the rules of command and Grouped
grammars.
-/

namespace Diameter.Dict

open Datatype

/-- A member rule of a command or of a Grouped AVP. `max` bounds the occurrences only when
`maxSet` says that it was written or it is positive. -/
structure Rule where
  avp : String
  mustNot : String := ""
  required : Bool := false
  min : Int := 0
  max : Int := 0
  maxSet : Bool := false
  fixed : Bool := false
deriving DecidableEq, Repr

structure Enum where
  code : Int32
  name : String
deriving DecidableEq, Repr

structure Data where
  type : TypeID
  typeName : String
  enum : List Enum := []
  rule : List Rule := []
deriving DecidableEq, Repr

/-- An AVP definition. -/
structure AVP where
  name : String
  code : UInt32
  must : String := ""
  may : String := ""
  mustNot : String := ""
  mayEncrypt : String := ""
  vendorID : UInt32 := 0
  data : Data
deriving DecidableEq, Repr

structure CommandRule where
  proxiable : Option Bool := none
  rule : List Rule := []
deriving DecidableEq, Repr

structure Command where
  code : UInt32
  name : String
  short : String := ""
  request : CommandRule := {}
  answer : CommandRule := {}
deriving DecidableEq, Repr

structure Vendor where
  id : UInt32
deriving DecidableEq, Repr

structure App where
  id : UInt32
  inherits : List UInt32 := []
  type : String := ""
  vendor : List Vendor := []
  command : List Command := []
  avp : List AVP := []
deriving DecidableEq, Repr

structure File where
  app : List App
deriving DecidableEq, Repr

/-- The Relay application identifier. -/
def relayApplication : UInt32 := 0xffffffff

def isVendorSpecificApplication (id : UInt32) : Bool :=
  decide (16777216 ≤ id) && decide (id ≠ relayApplication)

/-- The author a declaration names: its first vendor, for vendor-specific applications only. -/
def App.applicationVendor (app : App) : UInt32 :=
  match isVendorSpecificApplication app.id, app.vendor with
  | true, v :: _ => v.id
  | _, _ => 0

end Diameter.Dict
