import Diameter.Dict.Build

/-!
# Dict.Parser

The changes of a dictionary parser: loading files, registering AVPs and setting the decoding
policy. Each change is applied to the current snapshot and either publishes a new one or fails
and publishes nothing; `Published` are the snapshots that can be observed.
-/

namespace Diameter.Dict

open Lib Datatype

/-! ## Loading -/

def checkFlagRule (avp name value : String) : Except Error Unit :=
  match parseFlags value with
  | .error e => .error ⟨[], s!"AVP {avp} {name} flags: " ++ e⟩
  | .ok _ => .ok ()

def updateType (a : AVP) : Except Error AVP :=
  match available a.data.typeName with
  | none => .error ⟨[], s!"unsupported data type: {a.data.typeName}"⟩
  | some id => .ok { a with data := { a.data with type := id } }

/-- What loading does to a definition once its XML is decoded. -/
def parseAVP (a : AVP) : Except Error AVP := do
  checkFlagRule a.name "must" a.must
  checkFlagRule a.name "may" a.may
  checkFlagRule a.name "must-not" a.mustNot
  updateType a

def parseApp (app : App) : Except Error App := do
  let avps ← app.avp.mapM parseAVP
  return { app with avp := avps }

def parseFile (f : File) : Except Error File := do
  let apps ← f.app.mapM parseApp
  return { app := apps }

def Snapshot.add (ord : RangeOrder) (s : Snapshot) (files : List File) : Except Error Snapshot :=
  if files = [] then .ok s else s.with ord files []

def Snapshot.load (ord : RangeOrder) (s : Snapshot) (files : List File) : Except Error Snapshot := do
  let files ← files.mapM parseFile
  s.add ord files

/-! ## Registering -/

/-- A definition as a caller passes it to `RegisterAVP`: the items and rules are pointers. -/
structure Definition where
  name : String
  code : UInt32
  must : String := ""
  may : String := ""
  mustNot : String := ""
  mayEncrypt : String := ""
  vendorID : UInt32 := 0
  typeName : String
  enum : List (Option Enum) := []
  rule : List (Option Rule) := []
deriving DecidableEq, Repr

namespace Definition

variable (a : Definition) (app : UInt32)

def fail (text : String) : Error :=
  ⟨[], s!"register AVP \"{a.name}\" (code {a.code}, vendor {a.vendorID}) in application {app}: " ++
    text⟩

def checkIdentity : Except Error Unit :=
  if !isDiameterName a.name then
    .error (a.fail app "name is not in the Diameter name format (RFC 6733 §4.4)")
  else if a.name = "AVP" then
    .error (a.fail app "name AVP stands for any AVP in rules (RFC 6733 §3.2)")
  else if a.code = 0 then .error (a.fail app "AVP code 0 is not used (RFC 6733 §11.1.1)")
  else .ok ()

def checkType : Except Error TypeID :=
  match available a.typeName with
  | none => .error (a.fail app s!"unsupported data type \"{a.typeName}\"")
  | some typ =>
    if a.enum ≠ [] ∧ typ ≠ .enumerated then
      .error (a.fail app "enumerated items need type Enumerated")
    else if a.rule ≠ [] ∧ typ ≠ .grouped then .error (a.fail app "member rules need type Grouped")
    else .ok typ

def parseRule (name value : String) : Except Error Flags :=
  (parseFlags value).mapError fun e => a.fail app (s!"{name} flags: " ++ e)

def checkVendorFlag (must mustNot : Flags) : Except Error Unit :=
  if must.inter mustNot ≠ .none then .error (a.fail app "a flag is both required and forbidden")
  else if a.vendorID = 0 ∧ must.v then
    .error (a.fail app "the V flag is required but the AVP has no vendor (RFC 6733 §4.1)")
  else if a.vendorID ≠ 0 ∧ mustNot.v then
    .error (a.fail app "the V flag is forbidden but the AVP has a vendor (RFC 6733 §4.1)")
  else .ok ()

def checkFlags : Except Error Unit := do
  let must ← a.parseRule app "must" a.must
  let _ ← a.parseRule app "may" a.may
  let mustNot ← a.parseRule app "must-not" a.mustNot
  a.checkVendorFlag app must mustNot

def copyEnum : Option Enum → Except Error Enum
  | none => .error (a.fail app "nil enumerated item")
  | some item => .ok item

def checkRule (members : List String) (rule : Rule) : Except Error Unit :=
  if rule.avp ≠ "AVP" ∧ !isDiameterName rule.avp then
    .error (a.fail app s!"member \"{rule.avp}\" is not an AVP name (RFC 6733 §3.2)")
  else if rule.avp ∈ members then
    .error (a.fail app s!"member {rule.avp} has more than one rule")
  else if rule.min < 0 ∨ rule.max < 0 then
    .error (a.fail app s!"member {rule.avp} has a negative occurrence bound")
  else if rule.bounded ∧ rule.max < max rule.min (if rule.required then 1 else 0) then
    .error (a.fail app s!"member {rule.avp} has a maximum below its minimum")
  else
    match parseMemberProhibitions rule.mustNot with
    | .error e => .error (a.fail app (s!"member {rule.avp} must-not flags: " ++ e))
    | .ok _ => .ok ()

/-- The rules copied so far are the members that have one. -/
def copyRule (copied : List Rule) : Option Rule → Except Error (List Rule)
  | none => .error (a.fail app "nil member rule")
  | some rule =>
    match a.checkRule app (copied.map Rule.avp) rule with
    | .error e => .error e
    | .ok () => .ok (copied ++ [rule])

end Definition

/-- The checked private copy of a definition. -/
def newRegisteredAVP (app : UInt32) : Option Definition → Except Error AVP
  | none => .error ⟨[], s!"register AVP in application {app}: nil definition"⟩
  | some a => do
    a.checkIdentity app
    let typ ← a.checkType app
    a.checkFlags app
    let enum ← a.enum.mapM (a.copyEnum app)
    let rule ← a.rule.foldlM (a.copyRule app) []
    return { name := a.name, code := a.code, must := a.must, may := a.may, mustNot := a.mustNot,
             mayEncrypt := a.mayEncrypt, vendorID := a.vendorID,
             data := { type := typ, typeName := a.typeName, enum := enum, rule := rule } }

namespace Snapshot

/-- What the application already resolves must be the same definition. -/
def checkVisible (app : UInt32) (d : AVP) : Except Error AVP → Except Error Unit
  | .error _ => .ok ()
  | .ok old => if sameAVP old d then .ok () else .error (conflictError app d (some old))

/-- Adds `d` to the registrations of one call. -/
def addDefinition (s : Snapshot) (app : UInt32) (regs : List Registration) (d : AVP) :
    Except Error (List Registration) :=
  match regs.find? fun r =>
      r.avp.name == d.name || (r.avp.code == d.code && r.avp.vendorID == d.vendorID) with
  | some r => if sameAVP r.avp d then .ok regs else .error (conflictError app d (some r.avp))
  | none => do
    checkVisible app d (s.findAVP app d.code d.vendorID)
    checkVisible app d (s.findAVPByName app d.name)
    -- an identical definition changes nothing
    return if (s.avp app d.code d.vendorID).isSome then regs else regs ++ [⟨app, d⟩]

def registerAVP (ord : RangeOrder) (s : Snapshot) (app : UInt32) (avps : List (Option Definition)) :
    Except Error Snapshot := do
  let defs ← avps.mapM (newRegisteredAVP app)
  let regs ← defs.foldlM (s.addDefinition app) []
  if regs = [] then return s else s.with ord [] regs

def setStrict (s : Snapshot) (strict : Bool) : Snapshot := { s with strict := strict }

def setMaxGroupedDepth (s : Snapshot) (depth : Int) : Snapshot :=
  { s with maxGroupedDepth := (max depth 0).toNat }

end Snapshot

/-! ## Histories -/

/-- A call of a parser's changing methods. -/
inductive Op where
  | load (files : List File)
  | registerAVP (app : UInt32) (avps : List (Option Definition))
  | setStrict (strict : Bool)
  | setMaxGroupedDepth (depth : Int)

def Op.apply (ord : RangeOrder) (s : Snapshot) : Op → Except Error Snapshot
  | .load files => s.load ord files
  | .registerAVP app avps => s.registerAVP ord app avps
  | .setStrict strict => .ok (s.setStrict strict)
  | .setMaxGroupedDepth depth => .ok (s.setMaxGroupedDepth depth)

/-- A sequence of successful calls, each with the map orders of its build. A call that fails leaves
the published snapshot in place and is left out. -/
def run (calls : List (RangeOrder × Op)) (s : Snapshot) : Except Error Snapshot :=
  calls.foldlM (fun s call => call.2.apply call.1 s) s

theorem run_invariant {P : Snapshot → Prop} {calls : List (RangeOrder × Op)}
    (hstep : ∀ s call s', call ∈ calls → P s → call.2.apply call.1 s = .ok s' → P s')
    {s s' : Snapshot} (h : run calls s = .ok s') (hs : P s) : P s' :=
  foldlM_invariant hstep h hs

/-- A snapshot a parser publishes at some point of its life. -/
def Published (s : Snapshot) : Prop := ∃ calls, run calls emptySnapshot = .ok s

end Diameter.Dict
