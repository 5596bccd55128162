import Diameter.Dict.Skel
import Diameter.Lib.GoMap

/-!
# Dict.Snapshot

The published state of a dictionary parser and its lookups. How the indexes are filled is in
`Dict.Build`; everything that reads a dictionary (the decoder, the validators, the answer
builders) goes through the functions here.
-/

namespace Diameter.Dict

open Lib Datatype

structure CodeIdx where
  appID : UInt32
  code : UInt32
  vendorID : UInt32
deriving DecidableEq, Repr

structure AppNameIdx where
  appID : UInt32
  name : String
deriving DecidableEq, Repr

structure CommandIdx where
  appID : UInt32
  code : UInt32
deriving DecidableEq, Repr

/-- An AVP added to application `app` without a dictionary file. -/
structure Registration where
  app : UInt32
  avp : AVP
deriving DecidableEq, Repr

/-- The errors callers test for with `errors.Is`. -/
inductive Sentinel where
  | notFound | parentCycle | avpConflict
deriving DecidableEq, Repr

/-- An error and the sentinels it wraps. -/
structure Error where
  wraps : List Sentinel := []
  text : String
deriving DecidableEq, Repr

def errNotFound : Error := ⟨[.notFound], "dictionary entry not found"⟩
def errParentCycle : Error := ⟨[.parentCycle], "dictionary parent application cycle"⟩
def errAVPConflict : Error := ⟨[.avpConflict], "conflicting AVP definition"⟩

structure Snapshot where
  files : List File := []
  regs : List Registration := []
  parents : GoMap UInt32 (List UInt32) := ∅
  appcode : GoMap UInt32 App := ∅
  command : GoMap CommandIdx Command := ∅
  avpcode : GoMap CodeIdx AVP := ∅
  avpname : GoMap AppNameIdx AVP := ∅
  strict : Bool := true
  maxGroupedDepth : Nat := 0

/-- The state of a parser before its first change. -/
def emptySnapshot : Snapshot := {}

def defaultMaxGroupedDepth : Nat := 32

namespace Snapshot

variable (s : Snapshot) (appid : UInt32)

/-- The nesting limit in force: zero stands for the default. -/
def groupedDepthLimit : Nat :=
  if s.maxGroupedDepth > 0 then s.maxGroupedDepth else defaultMaxGroupedDepth

def apps : List App := s.files.flatMap File.app

def lookupAVP (appid code vendorID : UInt32) : Except Error AVP :=
  match s.avpcode.lookup ⟨appid, code, vendorID⟩ with
  | some a => .ok a
  | none =>
    match s.avpcode.lookup ⟨0, code, vendorID⟩ with
    | some a => .ok a
    | none => .error errNotFound

/-- `AVP`: the definition, or none on a miss. -/
def avp (appid code vendorID : UInt32) : Option AVP :=
  (s.lookupAVP appid code vendorID).toOption

def findAVP (appid code vendorID : UInt32) : Except Error AVP :=
  match s.lookupAVP appid code vendorID with
  | .ok a => .ok a
  | .error e => .error ⟨e.wraps, s!"application {appid}: AVP code {code} vendor {vendorID}: " ++ e.text⟩

/-- The definition `name` has in `app`'s own index, if it still carries that name in the view of
`appid`. -/
def nameIn (name : String) (app : UInt32) : Option AVP :=
  match s.avpname.lookup ⟨app, name⟩ with
  | none => none
  | some a =>
    match s.avp appid a.code a.vendorID with
    | some resolved => if resolved.name = name then some resolved else none
    | none => none

def findAVPByName (name : String) : Except Error AVP :=
  match s.nameIn appid name appid with
  | some a => .ok a
  | none =>
    match s.nameIn appid name 0 with
    | some a => .ok a
    | none => .error ⟨errNotFound.wraps,
        s!"application {appid}: AVP name \"{name}\": " ++ errNotFound.text⟩

def findCommand (appid code : UInt32) : Except Error Command :=
  match s.command.lookup ⟨appid, code⟩ with
  | some cmd => .ok cmd
  | none =>
    match s.command.lookup ⟨0, code⟩ with
    | some cmd => .ok cmd
    | none => .error ⟨errNotFound.wraps,
        s!"application {appid}: command code {code}: " ++ errNotFound.text⟩

theorem avp_eq (appid code vendorID : UInt32) : s.avp appid code vendorID =
      (s.avpcode.lookup ⟨appid, code, vendorID⟩).or (s.avpcode.lookup ⟨0, code, vendorID⟩) := by
  unfold avp lookupAVP
  cases s.avpcode.lookup ⟨appid, code, vendorID⟩ with
  | some a => rfl
  | none => cases s.avpcode.lookup ⟨0, code, vendorID⟩ <;> rfl

theorem mem_of_avp {s : Snapshot} {appid code vendorID : UInt32} {d : AVP}
    (h : s.avp appid code vendorID = some d) : ∃ p ∈ s.avpcode.entries, p.2 = d := by
  rw [avp_eq] at h
  cases hown : s.avpcode.lookup ⟨appid, code, vendorID⟩ with
  | some a =>
    rw [hown] at h
    cases h
    exact ⟨_, GoMap.mem_entries hown, rfl⟩
  | none =>
    rw [hown] at h
    exact ⟨_, GoMap.mem_entries h, rfl⟩

theorem findAVP_toOption (appid code vendorID : UInt32) :
    (s.findAVP appid code vendorID).toOption = s.avp appid code vendorID := by
  unfold findAVP avp
  cases s.lookupAVP appid code vendorID <;> rfl

end Snapshot
end Diameter.Dict
