import Diameter.Dict.Definition
import Diameter.Lib.Bfs
import Diameter.Lib.Checked

/-!
# Dict.Build

How the indexes of a snapshot are filled from its dictionaries and registrations.

Each application first gets its own definitions: those of the dictionaries in load order, a later
one replacing an earlier one with the same key, then the registered AVPs. Each application then
inherits, nearest ancestor first, the definitions of its declared ancestors that it does not have
itself. A build fails as a whole: the parents, the names and the rules of the final state are
checked before anything is published.

Every loop over a Go map goes through a `RangeOrder`, one site for each loop.
-/

namespace Diameter.Dict

open Lib Datatype

variable (ord : RangeOrder) (s : Snapshot)

/-- The error `e` reported from within `text`. -/
def Error.within (text : String) (e : Error) : Error := ⟨e.wraps, text ++ e.text⟩

namespace Snapshot

/-! ## Own definitions -/

def addParent (app : UInt32) (parents : GoMap UInt32 (List UInt32)) (parent : UInt32) :
    GoMap UInt32 (List UInt32) :=
  if parent ∈ parents.at app then parents else parents.append app parent

def addCommand (app : UInt32) (commands : GoMap CommandIdx Command) (cmd : Command) :
    Except Error (GoMap CommandIdx Command) :=
  if (commands.lookup ⟨app, cmd.code⟩).isSome then
    .error ⟨[], s!"command {cmd.name} ({cmd.short}) CODE: {cmd.code} cannot be added: index exists"⟩
  else .ok (commands.insert ⟨app, cmd.code⟩ cmd)

def addApp (app : App) : Except Error Snapshot :=
  match app.command.foldlM (addCommand app.id) s.command with
  | .error e => .error e
  | .ok command => .ok { s with
      parents := app.inherits.foldl (addParent app.id) s.parents
      appcode := s.appcode.insert app.id app
      command := command
      avpcode := app.avp.foldl (fun m a => m.insert ⟨app.id, a.code, a.vendorID⟩ a) s.avpcode }

/-- The applications of all dictionaries, in load order. -/
def indexFiles : Except Error Snapshot :=
  s.apps.foldlM addApp s

/-- The final definitions of the dictionaries by name; an application has each name once. -/
def addName (names : GoMap AppNameIdx AVP) (entry : Sigma fun _ : CodeIdx => AVP) :
    Except Error (GoMap AppNameIdx AVP) :=
  match names.lookup ⟨entry.1.appID, entry.2.name⟩ with
  | some old => .error (conflictError entry.1.appID entry.2 (some old))
  | none => .ok (names.insert ⟨entry.1.appID, entry.2.name⟩ entry.2)

def indexNames : Except Error Snapshot :=
  match (ord.order 2 _ s.avpcode.entries).foldlM addName ∅ with
  | .error e => .error e
  | .ok names => .ok { s with avpname := names }

def addRegistration (r : Registration) : Except Error Snapshot :=
  let code : CodeIdx := ⟨r.app, r.avp.code, r.avp.vendorID⟩
  let name : AppNameIdx := ⟨r.app, r.avp.name⟩
  match (s.avpcode.lookup code).filter (!sameAVP · r.avp),
      (s.avpname.lookup name).filter (!sameAVP · r.avp) with
  | some old, _ => .error (conflictError r.app r.avp (some old))
  | none, some old => .error (conflictError r.app r.avp (some old))
  | none, none => .ok { s with
      avpcode := s.avpcode.insert code r.avp
      avpname := s.avpname.insert name r.avp }

def indexRegistrations : Except Error Snapshot :=
  s.regs.foldlM addRegistration s

/-! ## The graph of parents -/

def checkParent (child parent : UInt32) : Except Error Unit :=
  if parent = relayApplication then
    .error ⟨[], s!"application {child}: parent {parent} is the Relay identifier, " ++
      "not an AVP application"⟩
  else if parent ≠ 0 ∧ (s.appcode.lookup parent).isNone then
    .error ⟨errNotFound.wraps, s!"application {child}: parent {parent} is not declared: " ++
      errNotFound.text⟩
  else .ok ()

/-- The marks of the depth-first search; an application without one is not visited yet. -/
inductive Mark where
  | active | finished
deriving DecidableEq, Repr

/-- The depth-first search from one application. The applications on the path are distinct and
all but the last have parents, so that the fuel `validateParents` gives does not run out. -/
def visit (parents : GoMap UInt32 (List UInt32)) :
    Nat → GoMap UInt32 Mark → UInt32 → Except Error (GoMap UInt32 Mark)
  | 0, _, id => .error ⟨errParentCycle.wraps, errParentCycle.text ++ s!" at application {id}"⟩
  | fuel + 1, state, id =>
    match state.lookup id with
    | some .active => .error ⟨errParentCycle.wraps, errParentCycle.text ++ s!" at application {id}"⟩
    | some .finished => .ok state
    | none =>
      match (parents.at id).foldlM (fun state parent => visit parents fuel state parent)
          (state.insert id .active) with
      | .error e => .error e
      | .ok state => .ok (state.insert id .finished)

def validateParents : Except Error Unit :=
  if s.parents.at 0 ≠ [] then
    .error ⟨errParentCycle.wraps, errParentCycle.text ++ ": base application cannot inherit"⟩
  else do
    (ord.order 0 _ s.parents.entries).forM fun entry => entry.2.forM (s.checkParent entry.1)
    let _ ← (ord.order 1 _ s.parents.keys).foldlM
      (visit s.parents (s.parents.keys.length + 2)) ∅
    return ()

/-- The ancestors in breadth-first order, base last. The slice the source walks while appending
to it is the queue; no application enters it twice, so that one round for each declared parent is
enough. -/
def ancestorApps (appID : UInt32) : List UInt32 :=
  if appID = 0 then []
  else
    let seen := [0, appID]
    let first := fresh seen (s.parents.at appID)
    bfs s.parents.at (s.parents.entries.flatMap (·.2)).length (seen ++ first) first ++ [0]

/-! ## Inheritance -/

/-- The applications with an index, and the keys each of them owns before anything is
inherited. -/
structure OwnDefs where
  apps : List UInt32
  codes : GoMap UInt32 (List CodeIdx)
  names : GoMap UInt32 (List AppNameIdx)

def ownDefs : OwnDefs :=
  let codes := ord.order 4 _ s.avpcode.keys
  let names := ord.order 5 _ s.avpname.keys
  { apps := fresh [] (ord.order 3 _ s.appcode.keys ++ codes.map CodeIdx.appID ++
      names.map AppNameIdx.appID)
    codes := codes.foldl (fun m idx => m.append idx.appID idx) ∅
    names := names.foldl (fun m idx => m.append idx.appID idx) ∅ }

def inheritCode (appID : UInt32) (codes : GoMap CodeIdx AVP) (idx : CodeIdx) : GoMap CodeIdx AVP :=
  match codes.lookup idx with
  | some a => codes.insertNew ⟨appID, idx.code, idx.vendorID⟩ a
  | none => codes

/-- A name is not inherited when its wire identity has another name in the child's scope. -/
def inheritName (appID : UInt32) (codes : GoMap CodeIdx AVP) (names : GoMap AppNameIdx AVP)
    (idx : AppNameIdx) : GoMap AppNameIdx AVP :=
  match names.lookup idx with
  | none => names
  | some a =>
    match codes.lookup ⟨appID, a.code, a.vendorID⟩ with
    | none => names
    | some resolved => if resolved.name ≠ a.name then names else names.insertNew ⟨appID, idx.name⟩ a

def inheritFrom (own : OwnDefs) (appID : UInt32) (s : Snapshot) (ancestorID : UInt32) : Snapshot :=
  let codes := (own.codes.at ancestorID).foldl (inheritCode appID) s.avpcode
  { s with
    avpcode := codes
    avpname := (own.names.at ancestorID).foldl (inheritName appID codes) s.avpname }

def inheritApp (own : OwnDefs) (s : Snapshot) (appID : UInt32) : Snapshot :=
  if appID = 0 then s else (s.ancestorApps appID).foldl (inheritFrom own appID) s

def inheritAll : Snapshot :=
  (ord.order 6 _ (s.ownDefs ord).apps).foldl (inheritApp (s.ownDefs ord)) s

/-- What a name denotes in one of the parents. -/
structure Resolution where
  parent : UInt32
  avp : AVP

def agreeOnName (ownNames : List AppNameIdx) (appID parent : UInt32)
    (seen : GoMap String Resolution) (name : String) : Except Error (GoMap String Resolution) :=
  if (⟨appID, name⟩ : AppNameIdx) ∈ ownNames then .ok seen
  else
    match s.findAVPByName parent name with
    | .error _ => .ok seen
    | .ok a =>
      match seen.lookup name with
      | none => .ok (seen.insert name ⟨parent, a⟩)
      | some old =>
        if old.avp.code ≠ a.code ∨ old.avp.vendorID ≠ a.vendorID then
          .error ⟨errAVPConflict.wraps, errAVPConflict.text ++
            s!": application {appID}: name {name} resolves in parent {old.parent} to " ++
            s!"(code {old.avp.code}, vendor {old.avp.vendorID}), but in parent {parent} to " ++
            s!"(code {a.code}, vendor {a.vendorID})"⟩
        else .ok (seen.insert name ⟨parent, a⟩)

def agreeOnParent (ownNames : List AppNameIdx) (names : GoMap UInt32 (List String))
    (appID : UInt32) (seen : GoMap String Resolution) (parent : UInt32) :
    Except Error (GoMap String Resolution) :=
  if parent = 0 then .ok seen
  else (names.at parent).foldlM (s.agreeOnName ownNames appID parent) seen

def validateInheritedNames (ownNames : List AppNameIdx) : Except Error Unit :=
  let names := (ord.order 7 _ s.avpname.keys).foldl (fun m idx => m.append idx.appID idx.name) ∅
  (ord.order 8 _ s.parents.entries).forM fun entry =>
    (entry.2.foldlM (s.agreeOnParent ownNames names entry.1) ∅).map fun _ => ()

def mergeInheritedAVPs : Except Error Snapshot :=
  match (s.inheritAll ord).validateInheritedNames ord s.avpname.keys with
  | .error e => .error e
  | .ok () => .ok (s.inheritAll ord)

/-! ## Rules -/

/-- The prohibitions of the wildcard members; those of the others are only checked. -/
def addProhibitions (wildcard : Flags) (rule : Rule) : Except Error Flags :=
  if rule.mustNot = "" then .ok wildcard
  else
    match parseMemberProhibitions rule.mustNot with
    | .error e => .error ⟨errAVPConflict.wraps, errAVPConflict.text ++
        s!": member {rule.avp} must-not flags: " ++ e⟩
    | .ok flags => .ok (if rule.avp = "AVP" then wildcard.union flags else wildcard)

def resolveRule (appID : UInt32) (wildcard : Flags) (rule : Rule) : Except Error Unit :=
  if rule.avp = "AVP" then .ok ()
  else
    match s.findAVPByName appID rule.avp with
    | .error e => .error ⟨errAVPConflict.wraps ++ e.wraps, errAVPConflict.text ++
        s!": member {rule.avp} does not resolve in application {appID}; inherited definitions " ++
        "require the defining application in the inherits attribute: " ++ e.text⟩
    | .ok member =>
      let forbidden := (parseMemberProhibitions rule.mustNot).toOption.getD .none
      let required := (parseFlags member.must).toOption.getD .none
      if wildcard = .none ∧ rule.mustNot = "" then .ok ()
      else if (wildcard.union forbidden).inter required ≠ .none then
        .error ⟨errAVPConflict.wraps, errAVPConflict.text ++
          s!": member {rule.avp} prohibition contradicts required flags \"{member.must}\""⟩
      else .ok ()

def resolveRules (appID : UInt32) (rules : List Rule) : Except Error Unit := do
  let wildcard ← rules.foldlM addProhibitions .none
  rules.forM (s.resolveRule appID wildcard)

def resolveCommandRules (appID : UInt32) (cmd : Command) : Except Error Unit := do
  (s.resolveRules appID cmd.request.rule).mapError
    (Error.within s!"command {cmd.name} ({cmd.code}) request in application {appID}: ")
  (s.resolveRules appID cmd.answer.rule).mapError
    (Error.within s!"command {cmd.name} ({cmd.code}) answer in application {appID}: ")

/-- The check of a base command in an application that may fall back to it. -/
def resolveFallback (cmd : Command) (code appID : UInt32) : Except Error Unit :=
  if appID = 0 ∨ (s.command.lookup ⟨appID, code⟩).isSome then .ok ()
  else s.resolveCommandRules appID cmd

def resolveCommand (apps : List UInt32)
    (entry : Sigma fun _ : CommandIdx => Command) : Except Error Unit := do
  s.resolveCommandRules entry.1.appID entry.2
  if entry.1.appID ≠ 0 then .ok ()
  else (ord.order (13 + entry.1.code.toNat) _ apps).forM (s.resolveFallback entry.2 entry.1.code)

def resolveGroup (entry : Sigma fun _ : CodeIdx => AVP) : Except Error Unit :=
  (s.resolveRules entry.1.appID entry.2.data.rule).mapError
    (Error.within s!"AVP {entry.2.name} in application {entry.1.appID}: ")

/-- The applications whose scope rules are resolved in. -/
def scopes : List UInt32 :=
  fresh [] (ord.order 10 _ s.appcode.keys ++ (ord.order 11 _ s.avpcode.keys).map CodeIdx.appID)

def validateRules : Except Error Unit := do
  (ord.order 9 _ s.avpcode.entries).forM s.resolveGroup
  (ord.order 12 _ s.command.entries).forM (s.resolveCommand ord (s.scopes ord))

/-! ## The build -/

def build : Except Error Snapshot := do
  let loaded ← s.indexFiles
  loaded.validateParents ord
  let named ← loaded.indexNames ord
  let registered ← named.indexRegistrations
  let merged ← registered.mergeInheritedAVPs ord
  merged.validateRules ord
  return merged

/-- The snapshot with more files and registrations; its indexes are built from scratch. -/
def «with» (files : List File) (regs : List Registration) : Except Error Snapshot :=
  build ord { files := s.files ++ files, regs := s.regs ++ regs, strict := s.strict,
              maxGroupedDepth := s.maxGroupedDepth }

end Snapshot
end Diameter.Dict
