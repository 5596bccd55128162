import Diameter.Lib.Bytes

/-!
# Datatype.Value

The AVP data formats of package `datatype`: the type identifiers, the values the library stores
in an AVP, and for every format its `Serialize`, `Len`, `Padding` and decoder.

A float is its bit pattern, a `Time` its Unix seconds (all that `Time.Serialize` reads), and the
text formats are octet strings, as they are in the source.
-/

namespace Diameter

export Lib (Bytes)

namespace Datatype

open Lib

inductive TypeID where
  | unknown | address | diameterIdentity | diameterURI | enumerated | float32 | float64 | grouped
  | ipFilterRule | ipv4 | integer32 | integer64 | octetString | qosFilterRule | time | utf8String
  | unsigned32 | unsigned64 | ipv6
deriving DecidableEq, Repr

/-- The type names a dictionary may use. -/
def available : String → Option TypeID
  | "Address" => some .address
  | "DiameterIdentity" => some .diameterIdentity
  | "DiameterURI" => some .diameterURI
  | "Enumerated" => some .enumerated
  | "Float32" => some .float32
  | "Float64" => some .float64
  | "Grouped" => some .grouped
  | "IPFilterRule" => some .ipFilterRule
  | "IPv4" => some .ipv4
  | "IPv6" => some .ipv6
  | "Integer32" => some .integer32
  | "Integer64" => some .integer64
  | "OctetString" => some .octetString
  | "QoSFilterRule" => some .qosFilterRule
  | "Time" => some .time
  | "UTF8String" => some .utf8String
  | "Unsigned32" => some .unsigned32
  | "Unsigned64" => some .unsigned64
  | _ => none

structure Address where
  family : UInt16
  value : Bytes
deriving DecidableEq, Repr

namespace Address

def familyIPv4 : UInt16 := 1
def familyIPv6 : UInt16 := 2

def valid (a : Address) : Except String Unit :=
  if a.family = 0 ∨ a.family = 65535 then .error "invalid address family received"
  else if a.family = familyIPv4 ∧ a.value.length ≠ 4 then .error "invalid length for IPv4"
  else if a.family = familyIPv6 ∧ a.value.length ≠ 16 then .error "invalid length for IPv6"
  else .ok ()

def len (a : Address) : Nat := 2 + a.value.length

def serialize (a : Address) : Bytes := bigEndian 2 a.family.toNat ++ a.value

end Address

inductive Value where
  | unknown (b : Bytes)
  | address (a : Address)
  | diameterIdentity (s : Bytes)
  | diameterURI (s : Bytes)
  | enumerated (n : Int32)
  | float32 (bits : UInt32)
  | float64 (bits : UInt64)
  | grouped (b : Bytes)
  | ipFilterRule (s : Bytes)
  | ipv4 (ip : Bytes)
  | integer32 (n : Int32)
  | integer64 (n : Int64)
  | octetString (s : Bytes)
  | qosFilterRule (s : Bytes)
  | time (unix : Int)
  | utf8String (s : Bytes)
  | unsigned32 (n : UInt32)
  | unsigned64 (n : UInt64)
  | ipv6 (ip : Bytes)
deriving DecidableEq, Repr

/-- `pad4 n - n`: the zero octets that follow a payload of `n` octets. -/
def pad (n : Nat) : Nat := (4 - n % 4) % 4

/-- Difference between 1970 and 1900 in seconds. -/
def rfc868offset : Nat := 2208988800

/-- `2^32 - rfc868offset`, the Unix time of the wire word 0 after the 2036 rollover. -/
def postRolloverUnixOffset : Nat := 2085978496

/-- The prefix of an IPv4 address written in sixteen octets. -/
def v4InV6Prefix : Bytes := [0, 0, 0, 0, 0, 0, 0, 0, 0, 0, 0xff, 0xff]

/-- `net.IP.To4`. -/
def to4 (ip : Bytes) : Option Bytes :=
  if ip.length = 4 then some ip
  else if ip.length = 16 ∧ ip.take 12 = v4InV6Prefix then some (ip.drop 12)
  else none

/-- `net.IP.To16`. -/
def to16 (ip : Bytes) : Option Bytes :=
  if ip.length = 4 then some (v4InV6Prefix ++ ip)
  else if ip.length = 16 then some ip
  else none

namespace Value

def typeID : Value → TypeID
  | .unknown _ => .unknown
  | .address _ => .address
  | .diameterIdentity _ => .diameterIdentity
  | .diameterURI _ => .diameterURI
  | .enumerated _ => .enumerated
  | .float32 _ => .float32
  | .float64 _ => .float64
  | .grouped _ => .grouped
  | .ipFilterRule _ => .ipFilterRule
  | .ipv4 _ => .ipv4
  | .integer32 _ => .integer32
  | .integer64 _ => .integer64
  | .octetString _ => .octetString
  | .qosFilterRule _ => .qosFilterRule
  | .time _ => .time
  | .utf8String _ => .utf8String
  | .unsigned32 _ => .unsigned32
  | .unsigned64 _ => .unsigned64
  | .ipv6 _ => .ipv6

def serialize : Value → Bytes
  | .unknown b | .diameterIdentity b | .diameterURI b | .grouped b | .ipFilterRule b
  | .octetString b | .qosFilterRule b | .utf8String b => b
  | .address a => a.serialize
  | .enumerated n | .integer32 n => bigEndian 4 n.toUInt32.toNat
  | .float32 n | .unsigned32 n => bigEndian 4 n.toNat
  | .float64 n | .unsigned64 n => bigEndian 8 n.toNat
  | .integer64 n => bigEndian 8 n.toUInt64.toNat
  | .ipv4 ip => (to4 ip).getD ip
  | .ipv6 ip => (to16 ip).getD ip
  | .time unix => bigEndian 4 (UInt32.ofInt unix + UInt32.ofNat rfc868offset).toNat

def len : Value → Nat
  | .unknown b | .diameterIdentity b | .diameterURI b | .grouped b | .ipFilterRule b
  | .octetString b | .qosFilterRule b | .utf8String b => b.length
  | .address a => a.len
  | .enumerated _ | .integer32 _ | .float32 _ | .unsigned32 _ | .ipv4 _ | .time _ => 4
  | .float64 _ | .unsigned64 _ | .integer64 _ => 8
  | .ipv6 _ => 16

def padding : Value → Nat
  | .unknown b | .diameterIdentity b | .diameterURI b | .ipFilterRule b
  | .octetString b | .qosFilterRule b | .utf8String b => pad b.length
  | .address a => pad a.len
  | _ => 0

end Value

/-- `Decode`: a fixed-size format given another number of octets yields its zero value, except
`Time` and `Address`, which report the length. -/
def decode : TypeID → Bytes → Except String Value
  | .unknown, b => .ok (.unknown b)
  | .address, b =>
    if b.length < 2 then
      .error ("not enough data to make an Address from byte[" ++ toString b.length ++ "]")
    else
      let addr : Address := ⟨UInt16.ofNat (ofBigEndian (b.take 2)), b.drop 2⟩
      match addr.valid with
      | .error e => .error e
      | .ok () => .ok (.address addr)
  | .diameterIdentity, b => .ok (.diameterIdentity b)
  | .diameterURI, b => .ok (.diameterURI b)
  | .enumerated, b =>
    .ok (.enumerated (if b.length = 4 then (UInt32.ofNat (ofBigEndian b)).toInt32 else 0))
  | .float32, b => .ok (.float32 (if b.length = 4 then UInt32.ofNat (ofBigEndian b) else 0))
  | .float64, b => .ok (.float64 (if b.length = 8 then UInt64.ofNat (ofBigEndian b) else 0))
  | .grouped, b => .ok (.grouped b)
  | .ipFilterRule, b => .ok (.ipFilterRule b)
  | .ipv4, b => .ok (.ipv4 (if b.length = 4 then b else [0, 0, 0, 0]))
  | .integer32, b =>
    .ok (.integer32 (if b.length = 4 then (UInt32.ofNat (ofBigEndian b)).toInt32 else 0))
  | .integer64, b =>
    .ok (.integer64 (if b.length = 8 then (UInt64.ofNat (ofBigEndian b)).toInt64 else 0))
  | .octetString, b => .ok (.octetString b)
  | .qosFilterRule, b => .ok (.qosFilterRule b)
  | .time, b =>
    if b.length ≠ 4 then .error ("invalid Time data length: " ++ toString b.length)
    else if (b.headD 0) >>> 7 = 0 then .ok (.time (ofBigEndian b + postRolloverUnixOffset))
    else .ok (.time (ofBigEndian b - rfc868offset))
  | .utf8String, b => .ok (.utf8String b)
  | .unsigned32, b => .ok (.unsigned32 (if b.length = 4 then UInt32.ofNat (ofBigEndian b) else 0))
  | .unsigned64, b => .ok (.unsigned64 (if b.length = 8 then UInt64.ofNat (ofBigEndian b) else 0))
  | .ipv6, b => .ok (.ipv6 (if b.length = 16 then b else List.replicate 16 0))

end Datatype
end Diameter
