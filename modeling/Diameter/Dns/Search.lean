import Diameter.Base.Validation
import Diameter.Dns.Order

/-!
# Dns.Search

`Discover`: the S-NAPTR search for the peers of a realm. The search follows aliases (`lookup`),
NAPTR records to further NAPTR records, services and hosts (`walk`), services to hosts
(`resolveSRV`) and hosts to addresses (`resolveHost`). Names and texts are octets, all of them ASCII
once they are accepted; a time is the number of nanoseconds since the zero time.

What the resolver, the context, the clock and the random source give is arbitrary and may change
from one call to the next: they are told which observation of the search it is. `asked` is the
record of the calls to the resolver.
-/

namespace Diameter.Dns

open Lib Base

/-! ## Names and times -/

def ascii (s : String) : Bytes := s.toList.map fun c => UInt8.ofNat c.toNat

def lower (s : Bytes) : Bytes := s.map fun c => if inRange 0x41 0x5a c then c + 32 else c

/-- `strings.TrimSuffix(s, ".")`. -/
def trimDot (s : Bytes) : Bytes := if s.getLast? = some dot then s.dropLast else s

def validServiceLabel (label : Bytes) : Bool :=
  decide (0 < label.length) && decide (label.length ≤ 63) && label.head? != some hyphen &&
    label.getLast? != some hyphen &&
    label.all fun c => isLetterOrDigit c || c == hyphen || c == 0x5f

def absolute (name : Bytes) (service : Bool) : Except Error Bytes :=
  let short := trimDot name
  if service then
    if short = [] ∨ short.length > 253 ∨ !(short.splitOn dot).all validServiceLabel then
      .error [.invalid]
    else .ok (lower short ++ [dot])
  else if validIdentity name then .ok (lower short ++ [dot])
  else .error [.invalid]

def identityName (name : Bytes) : Bytes := trimDot (lower name)

def earlier (a b : Int) : Int := if a = 0 ∨ b ≠ 0 ∧ b < a then b else a

def ttlDeadline (received : Int) (ttl : UInt32) : Int :=
  received + (if ttl &&& 0x80000000 ≠ 0 then 0 else ttl.toNat) * 1000000000

def appendNames (names values : List Bytes) : List Bytes :=
  values.foldl (fun names v =>
    if names.contains (identityName v) then names else names ++ [identityName v]) names

/-! ## The search -/

inductive Transport where
  | tls
  | dtls
  | tcp
  | sctp
deriving DecidableEq, Repr

def Transport.tag : Transport → Bytes
  | .tls => ascii "diameter.tls.tcp"
  | .dtls => ascii "diameter.dtls"
  | .tcp => ascii "diameter.tcp"
  | .sctp => ascii "diameter.sctp"

def Transport.label : Transport → Bytes
  | .tls => ascii "_diameters._tcp."
  | .dtls => ascii "_diameters._sctp."
  | .tcp => ascii "_diameter._tcp."
  | .sctp => ascii "_diameter._sctp."

def defaultPort : Transport → UInt16
  | .tls | .dtls => 5868
  | .tcp | .sctp => 3868

structure Answer where
  records : List Record := []
  rcode : UInt16 := 0
  receivedAt : Int := 0
  authenticated : Bool := false
  negativeExpiresAt : Int := 0

structure Candidate where
  realm : Bytes
  applicationID : UInt32
  transport : Transport
  host : Bytes
  port : UInt16
  addresses : List Address
  names : List Bytes
  order : UInt16
  preference : UInt16
  priority : UInt16
  weight : UInt16
  ttl : Int
  expiresAt : Int

structure Request where
  realm : Bytes
  applicationID : UInt32
  transports : List Transport
  requireAuthenticated : Bool

/-- `Config`, and the context of the call. -/
structure Discoverer where
  maxQueries : Nat
  maxDepth : Nat
  maxCandidates : Nat
  resolver : Nat → Bytes → RRType → Except Error Answer
  contextErr : Nat → Option Error
  now : Nat → Int
  randIntn : Nat → Nat → Int
  allowDelegation : Option (Bytes → Bytes → Bool)

structure Search where
  d : Discoverer
  request : Request
  realm : Bytes

structure Counters where
  queries : Nat := 0
  /-- How often the search has looked outside. -/
  tick : Nat := 0
  asked : List (Bytes × RRType) := []

abbrev SearchM := ExceptT Error (StateM Counters)

structure LookupResult where
  records : List Record := []
  expires : Int := 0
  names : List Bytes := []

structure Service where
  extended : Bool := false
  app : Nat := 0
  protocols : List Bytes := []
  diameter : Bool := false

def validTag (tag : Bytes) : Bool :=
  decide (0 < tag.length) && decide (tag.length ≤ 32) && tag.head?.any (inRange 0x61 0x7a) &&
    tag.all fun c => inRange 0x61 0x7a c || inRange 0x30 0x39 c || [0x2b, 0x2d, 0x2e].contains c

def decimal (digits : Bytes) : Nat := digits.foldl (fun n c => n * 10 + (c.toNat - 0x30)) 0

def parseService (text : Bytes) : Except Error Service :=
  if text.length > 255 then .error [.invalid]
  else
    let fields := (lower text).splitOn 0x3a
    let first := fields.headD []
    let id := first.drop 6
    let tags := fields.drop 1
    if first = ascii "aaa" then
      if tags.all validTag then .ok { diameter := true, protocols := tags } else .error [.invalid]
    else if first.take 6 = ascii "aaa+ap" then
      if id = [] ∨ id.length > 10 ∨ (id.length > 1 ∧ id.head? = some 0x30) ∨
          !id.all (inRange 0x30 0x39) ∨ decimal id ≥ 2 ^ 32 ∨ !tags.all validTag then
        .error [.invalid]
      else .ok { diameter := true, extended := true, app := decimal id, protocols := tags }
    else .ok {}

/-- The records a lookup is about, and the alias among them. -/
def scanRecords (name : Bytes) (typ : RRType) (noAlias : Bool) (a : Answer) :
    List Record → LookupResult → Option Record → Except Error (LookupResult × Option Record)
  | [], result, cn => .ok (result, cn)
  | r :: rs, result, cn => do
    let expires := earlier result.expires (ttlDeadline a.receivedAt r.ttl)
    if (← absolute r.name true) ≠ name then scanRecords name typ noAlias a rs result cn
    else if r.type = .cname then
      if noAlias then throw [.invalid, .other "SRV target is an alias"]
      else if cn.isSome then throw [.invalid, .other "multiple CNAMEs"]
      else scanRecords name typ noAlias a rs { result with expires := expires } (some r)
    else if r.type = typ then
      scanRecords name typ noAlias a rs
        { result with records := result.records ++ [r], expires := expires } cn
    else scanRecords name typ noAlias a rs result cn

/-- The end of a lookup. -/
def LookupResult.finish (result : LookupResult) (a : Answer) :
    Except Error (LookupResult ⊕ Bytes) :=
  if result.records = [] then
    .ok (.inl { result with expires := earlier result.expires a.negativeExpiresAt })
  else if a.rcode = 3 then .error [.invalid]
  else .ok (.inl result)

/-- The result of a lookup, or the name to go on with. -/
def LookupResult.next (result : LookupResult) (a : Answer) (target : Option Bytes) :
    Except Error (LookupResult ⊕ Bytes) :=
  match target with
  | some name => if a.rcode ≠ 3 ∧ result.records = [] then .ok (.inr name) else result.finish a
  | none => result.finish a

/-- The order of NAPTR records. -/
def byOrder (a b : Record) : Bool :=
  match a.naptr, b.naptr with
  | some m, some n => decide (m.order < n.order) ||
      decide (m.order = n.order) && decide (m.preference ≤ n.preference)
  | _, _ => true

def parseRecord (r : Record) : Except Error (NAPTR × Service) :=
  match r.naptr with
  | none => .error [.invalid]
  | some n => (parseService n.service).map fun service => (n, service)

namespace Search

/-- One more look outside. -/
def observe : SearchM Nat :=
  modifyGet fun c => (c.tick, { c with tick := c.tick + 1 })

/-- The result of a step, whether or not it fails. -/
def attempt {α : Type} (m : SearchM α) : SearchM (Except Error α) := ExceptT.lift m.run

def ofExcept {α : Type} (r : Except Error α) : SearchM α := ExceptT.mk (pure r)

def checkContext (d : Discoverer) : SearchM Unit := do
  match d.contextErr (← observe) with
  | some e => throw e
  | none => pure ()

variable (s : Search)

/-- The call of the resolver. -/
def ask (name : Bytes) (typ : RRType) : SearchM Answer := do
  modify fun c => { c with queries := c.queries + 1, asked := c.asked ++ [(name, typ)] }
  match s.d.resolver (← observe) name typ with
  | .error e => throw (.dns :: e)
  | .ok a => pure a

def query (name : Bytes) (typ : RRType) : SearchM Answer := do
  checkContext s.d
  if (← get).queries ≥ s.d.maxQueries then throw [.limit]
  let a ← s.ask name typ
  checkContext s.d
  if a.rcode ≠ 0 ∧ a.rcode ≠ 3 then throw [.dns, .other ("response code " ++ toString a.rcode.toNat)]
  if s.request.requireAuthenticated && !a.authenticated then throw [.unauthorized]
  if a.records.length > 1024 then throw [.limit]
  let now := s.d.now (← observe)
  if a.records ≠ [] ∧ (a.receivedAt = 0 ∨ a.receivedAt > now) then
    throw [.invalid, .other "missing receipt time"]
  return a

def permitted (name : Bytes) : Bool :=
  let n := identityName name
  let realm := identityName s.realm
  n == realm || (dot :: realm).isSuffixOf n || s.d.allowDelegation.any fun f => f realm n

/-- The loop of `lookup`, `n` names before its limit. -/
def lookupFrom (typ : RRType) (noAlias : Bool) :
    Nat → List Bytes → Bytes → LookupResult → SearchM LookupResult
  | 0, _, _, _ => throw [.limit]
  | n + 1, seen, name, result => do
    if seen.contains name then throw [.limit]
    let a ← s.query name typ
    let (result, cn) ← ofExcept (scanRecords name typ noAlias a a.records
      { result with names := appendNames result.names [name] } none)
    if cn.isSome ∧ result.records ≠ [] then throw [.invalid, .other "CNAME coexists with data"]
    let target ← ofExcept (cn.mapM fun r => absolute r.cname true)
    if target.any fun name => !s.permitted name then throw [.unauthorized]
    let result := { result with names := appendNames result.names target.toList }
    match ← ofExcept (result.next a target) with
    | .inl result => pure result
    | .inr name' => lookupFrom typ noAlias n (name :: seen) name' result

def lookup (name : Bytes) (typ : RRType) (noAlias : Bool) : SearchM LookupResult := do
  s.lookupFrom typ noAlias s.d.maxDepth [] (← ofExcept (absolute name true)) {}

/-- What `resolveHost` has found. -/
structure Found where
  addresses : List Address := []
  expiry : Int
  names : List Bytes
  failures : Error := []

def addressOf (typ : RRType) : Address → Bool
  | .invalid => false
  | .v4 _ => typ = .a
  | .v6 _ => typ = .aaaa

def findAddresses (host : Bytes) (noAlias : Bool) : List RRType → Found → SearchM Found
  | [], found => pure found
  | typ :: typs, found => do
    match ← attempt (s.lookup host typ noAlias) with
    | .error e =>
      if e.contains .invalid || e.contains .unauthorized || e.contains .limit then throw e
      findAddresses host noAlias typs { found with failures := found.failures ++ e }
    | .ok data =>
      if data.records = [] then findAddresses host noAlias typs found
      else if data.records.all fun r => addressOf typ r.address then
        findAddresses host noAlias typs
          { found with
            addresses := data.records.foldl (fun as r =>
              if as.contains r.address then as else as ++ [r.address]) found.addresses
            expiry := earlier found.expiry data.expires
            names := appendNames found.names data.names }
      else throw [.invalid]

def resolveHost (host : Bytes) (transport : Transport) (port : UInt16) (expiry : Int)
    (names : List Bytes) (n : NAPTR) (srv : SRV) (noAlias : Bool) : SearchM (List Candidate) := do
  let found ← s.findAddresses host noAlias [.a, .aaaa] { expiry := expiry, names := names }
  if found.addresses = [] then throw (.noService :: found.failures)
  if found.expiry = 0 then throw [.invalid]
  let now := s.d.now (← observe)
  return [⟨s.request.realm, s.request.applicationID, transport, identityName host, port,
    found.addresses, found.names, n.order, n.preference, srv.priority, srv.weight,
    max 0 (found.expiry - now), found.expiry⟩]

/-- The loop over the ways to go on: what fails is noted, unless a limit was exceeded. `none` ends
the loop; `after` is done after each way. -/
def collect (after : SearchM Unit) : List (Option (SearchM (List Candidate))) → List Candidate →
    Error → SearchM (List Candidate)
  | [], result, failures => if result = [] then throw (.noService :: failures) else pure result
  | none :: _, _, _ => throw [.noService]
  | some way :: ways, result, failures => do
    match ← attempt way with
    | .error e =>
      if e.contains .limit then throw e
      after
      collect after ways result (failures ++ e)
    | .ok found =>
      if (result ++ found).length > s.d.maxCandidates then throw [.limit]
      after
      collect after ways (result ++ found) failures

/-- What a service record leads to. -/
def followSRV (transport : Transport) (expiry : Int) (names : List Bytes) (n : NAPTR) (v : SRV) :
    SearchM (List Candidate) := do
  let target ← ofExcept (absolute v.target false)
  if !s.permitted target then throw [.unauthorized]
  s.resolveHost target transport v.port expiry (appendNames names [target]) n v true

/-- `orderSRV`, with the numbers that the search draws. -/
def ordered (records : List Record) : SearchM (List Record) := fun c =>
  let (r, t) := orderSRV s.d.randIntn c.tick records
  (r, { c with tick := t })

def resolveSRV (name : Bytes) (transport : Transport) (expiry : Int) (names : List Bytes)
    (n : NAPTR) : SearchM (List Candidate) := do
  let data ← s.lookup name .srv false
  if data.records = [] then throw [.noService]
  let records ← s.ordered data.records
  s.collect (pure ()) ((records.filterMap Record.srv).map fun v =>
    if v.target = [dot] then none
    else some (s.followSRV transport (earlier expiry data.expires)
      (appendNames names data.names) n v)) [] []

/-- `walk`, `fuel` levels before its limit. -/
def walk (transport : Transport) : Nat → Bytes → LookupResult → Int → List Bytes → List Bytes →
    SearchM (List Candidate)
  | 0, _, _, _, _, _ => throw [.limit]
  | fuel + 1, name, data, expiry, names, path => do
    if path.contains name then throw [.limit]
    let parsed ← ofExcept ((data.records.mergeSort byOrder).mapM parseRecord)
    s.collect (pure ()) (parsed.map fun (n, service) => some do
      let extended := parsed.any fun p => p.2.extended
      let flag := lower n.flags
      if !service.diameter || (extended && !service.extended) ||
          (service.extended && service.app != s.request.applicationID.toNat) ||
          (service.protocols != [] && !service.protocols.contains transport.tag) then return []
      if n.regexp ≠ [] then throw [.invalid]
      if flag ≠ [] ∧ flag ≠ ascii "s" ∧ flag ≠ ascii "a" then return []
      let target ← ofExcept (absolute n.replacement (flag != ascii "a"))
      if !s.permitted target then throw [.unauthorized]
      let names := appendNames names [target]
      if flag = ascii "s" then s.resolveSRV target transport expiry names n
      else if flag = ascii "a" then
        s.resolveHost target transport (defaultPort transport) expiry names n default false
      else
        let next ← s.lookup target .naptr false
        walk transport fuel target next (earlier expiry next.expires)
          (appendNames names next.names) (name :: path)) [] []

/-- The searches for the transports, one after the other. -/
def discover : SearchM (List Candidate) := do
  if !decide s.request.transports.Nodup then throw [.invalid, .other "transport"]
  let root ← s.lookup s.realm .naptr false
  s.collect (checkContext s.d) (s.request.transports.map fun transport => some <|
    if root.records = [] then
      s.resolveSRV (transport.label ++ s.realm) transport root.expires root.names default
    else s.walk transport s.d.maxDepth s.realm root root.expires root.names []) [] []

end Search

/-- `Discover`; a transport is one of the known ones by its type. -/
def Discoverer.discover (d : Discoverer) (request : Request) : SearchM (List Candidate) := do
  Search.checkContext d
  let realm ← Search.ofExcept (absolute request.realm false)
  let transports := if request.transports = [] then [.tls] else request.transports
  Search.discover ⟨d, { request with realm := identityName realm, transports := transports }, realm⟩

end Diameter.Dns
