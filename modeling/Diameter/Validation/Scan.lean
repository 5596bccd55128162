import Diameter.Lib.Text
import Diameter.Wire.Message

/-!
# Validation.Scan

`validateAVPs`: the one-pass check of an AVP list against the rules of a command or of a Grouped
AVP.

The source recurses into the members of an AVP in the middle of its loop. Here the outcome for
the members is computed first and handed to the loop with the AVP (`Member.inner`), which is the
same since neither has effects; the recursion is then over the AVP tree.
-/

namespace Diameter

open Lib Datatype Dict

variable (s : Snapshot) (app : UInt32)

def destinationRealmCode : UInt32 := 283
def destinationHostCode : UInt32 := 293
def proxyInfoCode : UInt32 := 284
def resultCodeCode : UInt32 := 268
def vendorSpecificApplicationIDCode : UInt32 := 260
def authApplicationIDCode : UInt32 := 258
def acctApplicationIDCode : UInt32 := 259

def commandUnsupported : UInt32 := 3001
def invalidHDRBits : UInt32 := 3008
def invalidAVPBits : UInt32 := 3009
def missingAVP : UInt32 := 5005
def avpNotAllowed : UInt32 := 5008
def avpOccursTooManyTimes : UInt32 := 5009

structure ValidationError where
  resultCode : UInt32
  failedAVP : Option AVP := none
  reason : String

/-- A check returns the first violation, or nothing. -/
abbrev Check (α : Type) := Except ValidationError α

structure ValidationKey where
  code : UInt32
  vendor : UInt32
deriving DecidableEq, Repr

structure ValidationRule where
  rule : Rule
  definition : Dict.AVP
deriving DecidableEq, Repr

def ValidationRule.key (e : ValidationRule) : ValidationKey :=
  ⟨e.definition.code, e.definition.vendorID⟩

def AVP.key (a : AVP) : ValidationKey := ⟨a.code, a.vendorID⟩

/-! ## Flags -/

/-- `flagListed`: a list with any other letter lists nothing. -/
def flagListed (list : String) (flag : Char) : Bool :=
  let items := (commaItems list).filter fun item => item ≠ [] ∧ item ≠ ['-']
  (flag = 'M' || flag = 'V' || flag = 'P') &&
    items.all (fun item => item.all fun c => c = 'M' || c = 'V' || c = 'P') &&
    items.any (fun item => item.contains flag)

def requiredFlags (d : Dict.AVP) : UInt8 :=
  (if flagListed d.must 'M' then mbit else 0) ||| (if flagListed d.must 'P' then pbit else 0) |||
    (if d.vendorID ≠ 0 ∨ flagListed d.must 'V' then vbit else 0)

/-- `invalidAVPFlags`: the V bit has to agree with the definition's vendor. -/
def invalidAVPFlags (flags : UInt8) (d : Dict.AVP) : Bool :=
  (flags &&& vbit != 0) != (d.vendorID != 0)

/-! ## Rules -/

def hasMaximum (rule : Rule) : Bool := rule.maxSet || decide (rule.max > 0)

def minimumCount (rule : Rule) : Nat :=
  if rule.min > 0 then rule.min.toNat else if rule.required then 1 else 0

/-- The code for an occurrence beyond the maximum. -/
def excessCode (max : Int) : UInt32 := if max = 0 then avpNotAllowed else avpOccursTooManyTimes

/-- The maximum of a fixed rule. -/
def fixedMaximum (rule : Rule) : Int := if hasMaximum rule then rule.max else 1

/-- A rule list as `validateAVPs` prepares it: the rules whose names resolve, and the wildcard. -/
structure Grammar where
  ordered : List ValidationRule
  wildcard : Option Rule

def validationRule (rule : Rule) : Option ValidationRule :=
  if rule.avp = "AVP" then none
  else
    match s.findAVPByName app rule.avp with
    | .ok d => some ⟨rule, d⟩
    | .error _ => none

def grammarOf (rules : List Rule) : Grammar where
  ordered := rules.filterMap (validationRule s app)
  wildcard := (rules.filter fun rule => rule.avp = "AVP").getLast?

/-- `byKey`: a later rule for the same identity replaces an earlier one. -/
def Grammar.byKey (g : Grammar) (key : ValidationKey) : Option ValidationRule :=
  (g.ordered.filter fun e => e.key = key).getLast?

/-! ## Examples of missing AVPs -/

/-- `missingAVPExample` with the definitions entered so far; `fuel` bounds their number. -/
def missingAVPExampleAt (s : Snapshot) (app : UInt32) : Nat → List ValidationKey → Dict.AVP → AVP
  | fuel, seen, d =>
    let key : ValidationKey := ⟨d.code, d.vendorID⟩
    let data : Data AVP :=
      match d.data.type with
      | .grouped =>
        match fuel with
        | 0 => .group []
        | fuel + 1 =>
          if key ∈ seen then .group []
          else .group <| d.data.rule.flatMap fun rule =>
            match validationRule s app rule with
            | none => []
            | some child => List.replicate (minimumCount rule)
                (some (missingAVPExampleAt s app fuel (key :: seen) child.definition))
      | t => .value (.unknown (List.replicate (minimumAVPPayloadLength t) 0))
    newAVP key.code (requiredFlags d) key.vendor data

/-- `missingAVPExample`. A definition is entered at most once on a path, so no path enters more
definitions than the dictionary has, besides the one it starts with. -/
def missingAVPExample (d : Dict.AVP) : AVP :=
  missingAVPExampleAt s app (s.avpcode.entries.length + 1) [] d

/-! ## The loop -/

/-- An AVP of the list that is scanned, with whether it is a preserved echo and what the checks of
its own members yield. -/
structure Member where
  avp : AVP
  echoed : Bool := false
  inner : Check Unit

structure Scan where
  counts : ValidationKey → Nat := fun _ => 0
  extensionCount : Nat := 0
  extensionMinimumCount : Nat := 0
  fixedIndex : Nat := 0
  fixedClosed : Bool := false

/-- `validateFailedEvidence`. -/
def validateFailedEvidence (a : AVP) : Check Unit :=
  match a.data with
  | .group ms =>
    if ms.isEmpty then
      .error ⟨missingAVP, some a, "Failed-AVP requires at least one evidence AVP"⟩
    else if ms.any Option.isNone then .error ⟨invalidAVPValue, some a, "nil Failed-AVP evidence"⟩
    else .ok ()
  | _ => .error ⟨invalidAVPValue, some a, "Failed-AVP must contain grouped evidence"⟩

def AVP.isFailedAVP (a : AVP) : Bool := a.code == failedAVPCode && a.vendorID == 0

/-- The flag check; echoes keep the flags they came with. -/
def checkFlags (definition : Option Dict.AVP) (m : Member) : Check Unit :=
  match definition with
  | some d =>
    if !m.echoed && invalidAVPFlags m.avp.flags d then
      .error ⟨invalidAVPBits, some m.avp, "AVP flags disagree with dictionary"⟩
    else .ok ()
  | none => .ok ()

/-- The search for `key` among the rules from index `i` on: fixed rules before it have to be
complete. `none` is an AVP out of order. -/
def advanceFixed (counts : ValidationKey → Nat) (key : ValidationKey) :
    List ValidationRule → Nat → Option Nat
  | [], _ => none
  | candidate :: rest, i =>
    if !candidate.rule.fixed then advanceFixed counts key rest (i + 1)
    else if candidate.key = key then some i
    else if counts candidate.key < minimumCount candidate.rule then none
    else advanceFixed counts key rest (i + 1)

/-- The part of the loop about fixed positions. -/
def placeMember (g : Grammar) (entry : Option ValidationRule) (a : AVP) (st : Scan) : Check Scan :=
  match entry with
  | some e =>
    if e.rule.fixed then
      if (st.counts a.key : Int) ≥ fixedMaximum e.rule then
        .error ⟨excessCode (fixedMaximum e.rule), some a, "fixed AVP exceeds maximum occurrences"⟩
      else if st.fixedClosed then
        .error ⟨avpNotAllowed, some a, "fixed AVP appears after the prefix"⟩
      else
        match advanceFixed st.counts a.key (g.ordered.drop st.fixedIndex) st.fixedIndex with
        | none => .error ⟨avpNotAllowed, some a, "fixed AVP out of order"⟩
        | some i => .ok { st with
            fixedIndex := if (st.counts a.key : Int) + 1 ≥ fixedMaximum e.rule then i + 1 else i }
    else .ok { st with fixedClosed := true }
  | none => .ok { st with fixedClosed := true }

/-- `counts[key]++` and the maximum of a listed AVP. -/
def countMember (entry : Option ValidationRule) (a : AVP) (st : Scan) : Check Scan :=
  let st := { st with counts := Function.update st.counts a.key (st.counts a.key + 1) }
  match entry with
  | some e =>
    if hasMaximum e.rule ∧ (st.counts a.key : Int) > e.rule.max then
      .error ⟨excessCode e.rule.max, some a, "AVP exceeds maximum occurrences"⟩
    else .ok st
  | none => .ok st

/-- The wildcard's counts, for an AVP that no rule lists. The wildcard's minimum counts all of them, its maximum only those
the dictionary knows; without a wildcard only unknown ones may be there. -/
def countUnlisted (listed : Bool) (wildcard : Option Rule) (known : Bool) (a : AVP) (st : Scan) :
    Check Scan :=
  match listed, wildcard with
  | true, _ => .ok st
  | false, none => if known then .error ⟨avpNotAllowed, some a, "AVP not in grammar"⟩ else .ok st
  | false, some w =>
    let st := { st with extensionMinimumCount := st.extensionMinimumCount + 1 }
    if known then
      let st := { st with extensionCount := st.extensionCount + 1 }
      if hasMaximum w ∧ (st.extensionCount : Int) > w.max then
        .error ⟨excessCode w.max, some a, "extension AVP exceeds maximum occurrences"⟩
      else .ok st
    else .ok st

/-- The contents of a counted AVP. -/
def checkContents (m : Member) : Check Unit :=
  if m.echoed then .ok ()
  else if m.avp.isFailedAVP then validateFailedEvidence m.avp
  else m.inner

/-- One iteration of the loop for an AVP that is not nil. -/
def scanMember (g : Grammar) (s : Snapshot) (app : UInt32) (m : Member) (st : Scan) :
    Check Scan := do
  let entry := g.byKey m.avp.key
  let definition := (s.findAVP app m.avp.code m.avp.vendorID).toOption
  checkFlags definition m
  let st ← countUnlisted entry.isSome g.wildcard definition.isSome m.avp st
  -- Unknown and unlisted: it takes no position and is not counted.
  if entry.isNone && definition.isNone then return st
  let st ← placeMember g entry m.avp st
  let st ← countMember entry m.avp st
  checkContents m
  return st

/-- The loop over the list, from position `i`. -/
def scanMembers (g : Grammar) (s : Snapshot) (app : UInt32) :
    List (Option Member) → Nat → Scan → Check Scan
  | [], _, st => .ok st
  | none :: _, i, _ => .error ⟨avpNotAllowed, none, "nil AVP at position " ++ toString i⟩
  | some m :: ms, i, st => do
    let st ← scanMember g s app m st
    scanMembers g s app ms (i + 1) st

/-- The occurrences of `key`, nil AVPs left out. -/
def presentCount (ms : List (Option Member)) (key : ValidationKey) : Nat :=
  ms.countP fun m => m.any fun m => m.avp.key == key

/-- Reports the first rule of `entries` that `counts` falls short of. -/
def checkMinimums (counts : ValidationKey → Nat) (reason : String)
    (entries : List ValidationRule) : Check Unit :=
  match entries.find? fun e => counts e.key < minimumCount e.rule with
  | some e => .error ⟨missingAVP, some (missingAVPExample s app e.definition), reason⟩
  | none => .ok ()

def validateMembers (ms : List (Option Member)) (rules : List Rule) : Check Unit := do
  let g := grammarOf s app rules
  checkMinimums s app (presentCount ms) "required fixed AVP missing"
    (g.ordered.filter fun e => e.rule.fixed)
  let st ← scanMembers g s app ms 0 {}
  checkMinimums s app st.counts "required AVP missing" g.ordered
  match g.wildcard with
  | some w =>
    if st.extensionMinimumCount < minimumCount w then
      .error ⟨missingAVP, none, "required extension AVP missing"⟩
    else .ok ()
  | none => .ok ()

/-! ## Grouped AVPs -/

/-- Whether an AVP is one of the two application identifiers a Vendor-Specific-Application-Id
chooses between. -/
def AVP.isApplicationChoice (a : AVP) : Bool :=
  a.vendorID == 0 && (a.code == authApplicationIDCode || a.code == acctApplicationIDCode)

/-- `validateVendorApplicationChoice`. -/
def validateVendorApplicationChoice (parent : AVP) (children : List (Option AVP)) : Check Unit :=
  let failed (choices : List AVP) : Option AVP :=
    some (newAVPWithFlags parent.code parent.flags parent.vendorID (.group (choices.map some)))
  let reason := "Vendor-Specific-Application-Id requires exactly one application ID"
  match (children.filterMap id).filter AVP.isApplicationChoice with
  | [_] => .ok ()
  | [] => .error ⟨missingAVP, failed
      [newAVP authApplicationIDCode mbit 0 (.value (.unknown (List.replicate 4 0))),
        newAVP acctApplicationIDCode mbit 0 (.value (.unknown (List.replicate 4 0)))], reason⟩
  | choices => .error ⟨avpOccursTooManyTimes, failed choices, reason⟩

/-- A violation inside `a`, reported under `a`'s header. -/
def nestedError (a : AVP) (e : ValidationError) : ValidationError :=
  let example_ : Data AVP := .group (e.failedAVP.toList.map some)
  { e with failedAVP := some (newAVPWithFlags a.code a.flags a.vendorID example_) }

/-- The rules for the members of `a`: those of a known Grouped definition that has any. -/
def groupRules (a : AVP) : Option Dict.AVP :=
  match (s.findAVP app a.code a.vendorID).toOption with
  | some d => if d.data.type = .grouped ∧ d.data.rule ≠ [] then some d else none
  | none => none

def isVendorSpecificApplicationID (d : Dict.AVP) : Bool :=
  d.code == vendorSpecificApplicationIDCode && d.vendorID == 0

/-- What the loop does with the members of `a`, given what the checks below them yield. -/
def validateGroup (a : AVP) (ms : List (Option Member)) : Check Unit :=
  match groupRules s app a with
  | none => .ok ()
  | some d =>
    match validateMembers s app ms d.data.rule with
    | .error e => .error (nestedError a e)
    | .ok () =>
      if isVendorSpecificApplicationID d then validateVendorApplicationChoice a a.members
      else .ok ()

mutual

/-- The checks of an AVP's own members; only a `*GroupedAVP` has any. -/
def AVP.validateInner (s : Snapshot) (app : UInt32) : AVP → Check Unit
  | ⟨code, flags, length, vendorID, .group ms⟩ =>
    validateGroup s app ⟨code, flags, length, vendorID, .group ms⟩ (validateBelow s app ms)
  | ⟨code, flags, length, vendorID, .nilGroup⟩ =>
    validateGroup s app ⟨code, flags, length, vendorID, .nilGroup⟩ []
  | _ => .ok ()

def validateBelow (s : Snapshot) (app : UInt32) : List (Option AVP) → List (Option Member)
  | [] => []
  | none :: ms => none :: validateBelow s app ms
  | some a :: ms => some ⟨a, false, a.validateInner s app⟩ :: validateBelow s app ms

end

/-! ## Top level -/

/-- `AVP.Serialize`. -/
def AVP.serialize (a : AVP) : Except SerializeError Bytes :=
  if a.hasNil then .error .panicked else a.serializeTo (List.replicate a.len 0)

/-- `isEchoedProxy`: a Proxy-Info copied from the request that still has the octets it was copied
with. Where `Serialize` panics, on a nil member put into the copy, it is no echo here. -/
def Item.isEchoedProxy (i : Item) : Bool :=
  match i.avp, i.echo with
  | some a, some echoed =>
    a.code == proxyInfoCode && a.vendorID == 0 &&
      match a.serialize with
      | .ok current => current == echoed
      | .error _ => false
  | _, _ => false

def Item.member (i : Item) : Option Member :=
  i.avp.map fun a => ⟨a, i.isEchoedProxy, a.validateInner s app⟩

/-- `validateAVPs`. -/
def validateAVPs (items : List Item) (rules : List Rule) (app : UInt32) (s : Snapshot) :
    Check Unit :=
  validateMembers s app (items.map (Item.member s app)) rules

end Diameter
