import Diameter.Wire.ReadWrite

/-!
# Wire.Unknown

The unknown mandatory AVPs of a message, as `UnknownMandatoryAVPs` reports them. An AVP offends when
its M bit is set, its data is Unknown and the snapshot has no definition of it; the report holds, for
every top-level AVP with an offender in it, that AVP reduced to the paths to its offenders.

* `AVP.leaves`        — the AVPs at the ends of the paths of a tree, each with its ancestors.
* `Retains s app a r` — `r` is `a` without the members that lead to no offender.
-/

namespace Diameter

open Lib Datatype Dict

/-- What the header of an AVP says of it. -/
structure Tag where
  code : UInt32
  flags : UInt8
  vendorID : UInt32
deriving DecidableEq, Repr

def AVP.tag (a : AVP) : Tag := ⟨a.code, a.flags, a.vendorID⟩

def Data.isUnknown : Data AVP → Bool
  | .value (.unknown _) => true
  | _ => false

/-- An AVP that is mandatory to understand and unknown to the snapshot. -/
def AVP.offends (s : Snapshot) (app : UInt32) (a : AVP) : Bool :=
  a.flags &&& mbit != 0 && a.data.isUnknown && (s.avp app a.code a.vendorID).isNone

mutual

/-- The ends of the paths in a tree, depth first, each below the tags of its ancestors. A group
without members is an end itself. -/
def AVP.leaves : AVP → List (List Tag × AVP)
  | ⟨code, flags, length, vendorID, .group ms⟩ =>
    if ms.isEmpty then [([], ⟨code, flags, length, vendorID, .group ms⟩)]
    else (membersLeaves ms).map fun x => (⟨code, flags, vendorID⟩ :: x.1, x.2)
  | a => [([], a)]

def membersLeaves : List (Option AVP) → List (List Tag × AVP)
  | [] => []
  | none :: ms => membersLeaves ms
  | some a :: ms => a.leaves ++ membersLeaves ms

end

/-- The ends of paths that offend. -/
def offenders (s : Snapshot) (app : UInt32) (leaves : List (List Tag × AVP)) :
    List (List Tag × AVP) :=
  leaves.filter fun x => x.2.offends s app

/-- Whether a path of this tree ends in an offender. -/
def AVP.leads (s : Snapshot) (app : UInt32) (a : AVP) : Bool :=
  a.leaves.any fun x => x.2.offends s app

/-- A tree and what is left of it without the members that lead to no offender. -/
inductive Retains (s : Snapshot) (app : UInt32) : AVP → AVP → Prop where
  | offender {a : AVP} : a.offends s app = true → Retains s app a a
  | group {a r : AVP} {ms : List (Option AVP)} {kept : List AVP} : a.data = .group ms →
      r.tag = a.tag → r.data = .group (kept.map some) → kept ≠ [] →
      List.Forall₂ (Retains s app) ((ms.filterMap id).filter (AVP.leads s app)) kept →
      Retains s app a r

/-! ## One tree -/

section

variable (s : Snapshot) (app : UInt32)

theorem unknownMandatoryMembers_eq (ms : List (Option AVP)) :
    unknownMandatoryMembers s app ms =
      (ms.filterMap id).filterMap (unknownMandatoryHierarchy s app) := by
  induction ms with
  | nil => simp [unknownMandatoryMembers]
  | cons m ms ih =>
    cases m with
    | none => simpa [unknownMandatoryMembers] using ih
    | some a =>
      simp only [unknownMandatoryMembers, List.filterMap_cons, id, ih]
      cases unknownMandatoryHierarchy s app a <;> rfl

theorem unknownMandatoryHierarchy_value (code : UInt32) (flags : UInt8) (length : Nat)
    (vendorID : UInt32) (v : Value) :
    unknownMandatoryHierarchy s app ⟨code, flags, length, vendorID, .value v⟩ =
      if AVP.offends s app ⟨code, flags, length, vendorID, .value v⟩
      then some ⟨code, flags, length, vendorID, .value v⟩ else none := by
  cases v
  case unknown b =>
    simp only [unknownMandatoryHierarchy, AVP.offends, Data.isUnknown]
    congr 1
    simp
  all_goals simp [unknownMandatoryHierarchy, AVP.offends, Data.isUnknown]

theorem unknownMandatoryHierarchy_leaf {a : AVP} (ha : ∀ ms, a.data ≠ .group ms) :
    unknownMandatoryHierarchy s app a = if a.offends s app then some a else none := by
  obtain ⟨code, flags, length, vendorID, d⟩ := a
  cases d with
  | value v => exact unknownMandatoryHierarchy_value s app code flags length vendorID v
  | group ms => exact (ha ms rfl).elim
  | nil => simp [unknownMandatoryHierarchy, AVP.offends, Data.isUnknown]
  | nilGroup => simp [unknownMandatoryHierarchy, AVP.offends, Data.isUnknown]
  | addressPtr x => simp [unknownMandatoryHierarchy, AVP.offends, Data.isUnknown]

theorem AVP.leaves_leaf {a : AVP} (ha : ∀ ms, a.data ≠ .group ms) : a.leaves = [([], a)] := by
  obtain ⟨code, flags, length, vendorID, d⟩ := a
  cases d
  case group ms => exact (ha ms rfl).elim
  all_goals rfl

theorem membersLeaves_map_some (as : List AVP) :
    membersLeaves (as.map some) = as.flatMap AVP.leaves := by
  induction as with
  | nil => simp [membersLeaves]
  | cons a as ih => simp [membersLeaves, ih]

theorem offenders_group (code : UInt32) (flags : UInt8) (length : Nat) (vendorID : UInt32)
    (ms : List (Option AVP)) :
    offenders s app (AVP.leaves ⟨code, flags, length, vendorID, .group ms⟩) =
      (offenders s app (membersLeaves ms)).map fun x => (⟨code, flags, vendorID⟩ :: x.1, x.2) := by
  by_cases hempty : ms = []
  · subst hempty
    simp [AVP.leaves, membersLeaves, offenders, AVP.offends, Data.isUnknown]
  have hms : ms.isEmpty = false := by simpa using hempty
  rw [AVP.leaves, hms, if_neg Bool.false_ne_true]
  simp only [offenders, List.filter_map]
  rfl

theorem offenders_cons (a : AVP) (ms : List (Option AVP)) :
    offenders s app (membersLeaves (some a :: ms)) =
      offenders s app a.leaves ++ offenders s app (membersLeaves ms) := by
  simp [membersLeaves, offenders]

theorem leaves_hierarchy :
    (∀ a : AVP, (unknownMandatoryHierarchy s app a).toList.flatMap AVP.leaves =
      offenders s app a.leaves) ∧
    ∀ ms, (unknownMandatoryMembers s app ms).flatMap AVP.leaves =
      offenders s app (membersLeaves ms) := by
  apply AVP.tree_induction
  case leaf =>
    intro a ha
    rw [unknownMandatoryHierarchy_leaf s app ha, AVP.leaves_leaf ha, offenders]
    split
    next h => simp [h, AVP.leaves_leaf ha]
    next h => simp [h]
  case group =>
    intro code flags length vendorID ms ih
    rw [offenders_group, ← ih, unknownMandatoryHierarchy]
    split
    next hnone => simp [hnone]
    rename_i hsome
    have hkept : ((unknownMandatoryMembers s app ms).map some).isEmpty = false := by
      simpa using hsome
    simp [newAVPWithFlags, ownedData, AVP.leaves, membersLeaves_map_some, hkept]
  case nil => simp [unknownMandatoryMembers, membersLeaves, offenders]
  case none =>
    intro ms ih
    simpa [unknownMandatoryMembers, membersLeaves] using ih
  case some =>
    intro a ms iha ihms
    rw [offenders_cons, ← iha, ← ihms, unknownMandatoryMembers]
    cases unknownMandatoryHierarchy s app a <;> simp

theorem hierarchy_eq_none :
    (∀ a : AVP, unknownMandatoryHierarchy s app a = none ↔ offenders s app a.leaves = []) ∧
    ∀ ms, unknownMandatoryMembers s app ms = [] ↔ offenders s app (membersLeaves ms) = [] := by
  apply AVP.tree_induction
  case leaf =>
    intro a ha
    rw [unknownMandatoryHierarchy_leaf s app ha, AVP.leaves_leaf ha, offenders]
    simp
  case group =>
    intro code flags length vendorID ms ih
    rw [offenders_group, List.map_eq_nil_iff, ← ih, unknownMandatoryHierarchy]
    split
    next hnone => simp [hnone]
    next hsome => simpa using hsome
  case nil => simp [unknownMandatoryMembers, membersLeaves, offenders]
  case none =>
    intro ms ih
    simpa [unknownMandatoryMembers, membersLeaves] using ih
  case some =>
    intro a ms iha ihms
    rw [offenders_cons, List.append_eq_nil_iff, ← iha, ← ihms, unknownMandatoryMembers]
    cases unknownMandatoryHierarchy s app a <;> simp

theorem isSome_hierarchy (a : AVP) :
    (unknownMandatoryHierarchy s app a).isSome = a.leads s app := by
  have h := (hierarchy_eq_none s app).1 a
  rw [Bool.eq_iff_iff, Option.isSome_iff_ne_none, Ne, h, AVP.leads, offenders]
  simp [List.filter_eq_nil_iff]

theorem retains_hierarchy :
    (∀ a r : AVP, unknownMandatoryHierarchy s app a = some r → Retains s app a r) ∧
    ∀ ms, List.Forall₂ (Retains s app) ((ms.filterMap id).filter (AVP.leads s app))
      (unknownMandatoryMembers s app ms) := by
  apply AVP.tree_induction
  case leaf =>
    intro a ha r hr
    rw [unknownMandatoryHierarchy_leaf s app ha] at hr
    split at hr
    next h =>
      cases hr
      exact .offender h
    · cases hr
  case group =>
    intro code flags length vendorID ms ih r hr
    rw [unknownMandatoryHierarchy] at hr
    split at hr
    · cases hr
    rename_i hsome
    cases hr
    exact .group rfl rfl rfl hsome ih
  case nil => exact .nil
  case none =>
    intro ms ih
    simpa [unknownMandatoryMembers] using ih
  case some =>
    intro a ms iha ihms
    have hleads := isSome_hierarchy s app a
    rw [unknownMandatoryMembers]
    cases hr : unknownMandatoryHierarchy s app a with
    | none =>
      rw [hr] at hleads
      simpa [← hleads] using ihms
    | some r =>
      rw [hr] at hleads
      have hkept : (List.filterMap id (some a :: ms)).filter (AVP.leads s app) =
          a :: (ms.filterMap id).filter (AVP.leads s app) := List.filter_cons_of_pos hleads.symm
      rw [hkept]
      exact .cons (iha r hr) ihms

end

/-! ## The report of a message -/

/-- What a message reports of its AVPs. -/
structure Message.Reports (m : Message) (s : Snapshot) : Prop where
  leaves : membersLeaves (m.unknownMandatoryAVPs.map some) =
    offenders s m.header.applicationID (membersLeaves m.avps)
  roots : List.Forall₂ (Retains s m.header.applicationID)
    ((m.avps.filterMap id).filter (AVP.leads s m.header.applicationID)) m.unknownMandatoryAVPs

theorem Message.Reports.of_eq {m : Message} {s : Snapshot} (h : m.unknownMandatoryAVPs =
    unknownMandatoryMembers s m.header.applicationID m.avps) : m.Reports s := by
  refine ⟨?_, ?_⟩
  · rw [membersLeaves_map_some, h, (leaves_hierarchy s _).2]
  · rw [h]
    exact (retains_hierarchy s _).2 m.avps

theorem decodeAVPs_reports (h : Header) (b : Bytes) (s : Snapshot) :
    (Message.decodeAVPs { header := h } b s).1.Reports s := by
  refine .of_eq ?_
  rw [unknownMandatoryMembers_eq]
  unfold Message.decodeAVPs Message.avps
  dsimp only
  split <;> simp [List.filterMap_map]

theorem readBody_reports (h : Header) (rest : Bytes) (s : Snapshot) :
    (Message.readBody { header := h } rest s).1.Reports s := by
  have hempty : Message.Reports { header := h } s := .of_eq (by simp [Message.avps,
    unknownMandatoryMembers])
  unfold Message.readBody
  dsimp only
  split
  · exact hempty
  split
  · split
    · exact hempty
    · exact decodeAVPs_reports h _ s
  · exact decodeAVPs_reports h _ s

/-- The unknown mandatory AVPs of a message that was read: the ends of their paths are the offending
AVPs of the message, in the order of the wire and below the same ancestors, and there is one tree for
each top-level AVP with an offender in it, with nothing in it that leads to none. -/
theorem readMessage_unknownMandatoryAVPs {stream : Bytes} {s : Snapshot} {m : Message}
    {err : Option ReadError} (h : readMessage stream s = (some m, err)) :
    membersLeaves (m.unknownMandatoryAVPs.map some) =
      offenders s m.header.applicationID (membersLeaves m.avps) ∧
    List.Forall₂ (Retains s m.header.applicationID)
      ((m.avps.filterMap id).filter (AVP.leads s m.header.applicationID))
      m.unknownMandatoryAVPs := by
  have hreports : m.Reports s := by
    unfold readMessage at h
    dsimp only at h
    split at h
    · cases h
    split at h
    · cases h
      exact .of_eq (by simp [Message.avps, unknownMandatoryMembers])
    have hbody := readBody_reports (headerFields (stream.take headerLength))
      (stream.drop headerLength) s
    split at h
    next hread =>
      cases h
      rwa [hread] at hbody
    next hread =>
      cases h
      rwa [hread] at hbody
  exact ⟨hreports.leaves, hreports.roots⟩

/-- The mandatory AVP 3000 is unknown, and so is 2000, which need not be understood. -/
def unknownGroup : Bytes :=
  [1, 0, 0, 52, 0x80, 0, 1, 0x10, 0, 0, 0, 0, 0, 0, 0, 1, 0, 0, 0, 2,
    0, 0, 0x03, 0xe8, 0x40, 0, 0, 32, 0, 0, 0x07, 0xd0, 0, 0, 0, 9, 0x61, 0, 0, 0,
    0, 0, 0x0b, 0xb8, 0x40, 0, 0, 9, 0x62, 0, 0, 0]

theorem readMessage_unknownMandatoryAVPs_group : ∃ m err a,
    readMessage unknownGroup groupSnapshot = (some m, err) ∧
    membersLeaves (m.unknownMandatoryAVPs.map some) = [([⟨1000, 0x40, 0⟩], a)] ∧
    a.tag = ⟨3000, 0x40, 0⟩ ∧ m.unknownMandatoryAVPs.length = 1 := by
  have hread : readMessage unknownGroup groupSnapshot = (some _, _) := rfl
  have h := readMessage_unknownMandatoryAVPs hread
  exact ⟨_, _, _, hread, h.1.trans rfl, rfl, h.2.length_eq.symm.trans rfl⟩

end Diameter
