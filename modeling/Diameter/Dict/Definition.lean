import Diameter.Dict.Snapshot
import Diameter.Lib.Text

/-!
# Dict.Definition

What a dictionary definition says: the flags its rules name, and when two definitions say the
same. `sameAVP` compares flag rules and bounds by meaning; `sameAVP_iff` makes it the equality of
what the definitions mean, so that it can be used as an equivalence.
-/

namespace Diameter.Dict

open Lib Datatype

/-! ## Flag rules -/

/-- A set of AVP flags. -/
structure Flags where
  m : Bool := false
  p : Bool := false
  v : Bool := false
deriving DecidableEq, Repr

def Flags.union (a b : Flags) : Flags := ⟨a.m || b.m, a.p || b.p, a.v || b.v⟩
def Flags.inter (a b : Flags) : Flags := ⟨a.m && b.m, a.p && b.p, a.v && b.v⟩

def Flags.none : Flags := {}

def addFlag (rule : String) (flags : Flags) (c : Char) : Except String Flags :=
  match c with
  | 'M' => .ok { flags with m := true }
  | 'P' => .ok { flags with p := true }
  | 'V' => .ok { flags with v := true }
  | c => .error s!"unknown flag '{c}' in \"{rule}\""

def addFlagItem (rule : String) (flags : Flags) (item : List Char) : Except String Flags :=
  if item = [] ∨ item = ['-'] then .ok flags else item.foldlM (addFlag rule) flags

/-- A flag rule such as `M,V`, the compact `MV` or `-` for none. -/
def parseFlags (rule : String) : Except String Flags :=
  (commaItems rule).foldlM (addFlagItem rule) .none

/-- A member rule may prohibit `M` and `P` only. -/
def parseMemberProhibitions (rule : String) : Except String Flags :=
  match parseFlags rule with
  | .error e => .error e
  | .ok flags =>
    if flags.v then
      .error "member prohibitions allow only M and P; V describes the Vendor-Id field"
    else .ok flags

/-! ## Names -/

def isAlpha (c : Char) : Bool :=
  (decide ('A' ≤ c) && decide (c ≤ 'Z')) || (decide ('a' ≤ c) && decide (c ≤ 'z'))

/-- ALPHA *(ALPHA / DIGIT / "-"). -/
def isDiameterName (name : String) : Bool :=
  match name.toList with
  | [] => false
  | c :: cs =>
    isAlpha c && cs.all fun c => isAlpha c || (decide ('0' ≤ c) && decide (c ≤ '9')) || c == '-'

/-! ## Sameness -/

/-- Flag rules agree on the flags they name; rules that do not parse agree as text. -/
def sameFlags (a b : String) : Bool :=
  match parseFlags a, parseFlags b with
  | .ok fa, .ok fb => fa == fb
  | _, _ => a == b

def Rule.bounded (r : Rule) : Bool := r.maxSet || decide (r.max > 0)

def sameRule (a b : Rule) : Bool :=
  sameFlags a.mustNot b.mustNot && a.avp == b.avp && a.required == b.required && a.min == b.min &&
    a.fixed == b.fixed && a.bounded == b.bounded && (!a.bounded || a.max == b.max)

def sameAVP (a b : AVP) : Bool :=
  a.name == b.name && a.code == b.code && a.vendorID == b.vendorID &&
    sameFlags a.must b.must && sameFlags a.may b.may && sameFlags a.mustNot b.mustNot &&
    a.mayEncrypt == b.mayEncrypt &&
    a.data.type == b.data.type && a.data.typeName == b.data.typeName &&
    a.data.enum == b.data.enum && a.data.rule.isEqv b.data.rule sameRule

def conflictError (app : UInt32) (want : AVP) : Option AVP → Error
  | none => ⟨errAVPConflict.wraps, errAVPConflict.text ++
      s!": application {app}: {want.name} (code {want.code}, vendor {want.vendorID})" ++
      " is no longer resolved"⟩
  | some old => ⟨errAVPConflict.wraps, errAVPConflict.text ++
      s!": application {app}: {want.name} (code {want.code}, vendor {want.vendorID}) differs from " ++
      s!"{old.name} (code {old.code}, vendor {old.vendorID})"⟩

/-! ## Meaning -/

def flagMeaning (rule : String) : Except String Flags :=
  match parseFlags rule with
  | .ok flags => .ok flags
  | .error _ => .error rule

structure RuleMeaning where
  mustNot : Except String Flags
  avp : String
  required : Bool
  min : Int
  fixed : Bool
  max : Option Int

def Rule.meaning (r : Rule) : RuleMeaning where
  mustNot := flagMeaning r.mustNot
  avp := r.avp
  required := r.required
  min := r.min
  fixed := r.fixed
  max := if r.bounded then some r.max else none

structure Meaning where
  name : String
  code : UInt32
  vendorID : UInt32
  must : Except String Flags
  may : Except String Flags
  mustNot : Except String Flags
  mayEncrypt : String
  type : TypeID
  typeName : String
  enum : List Enum
  rule : List RuleMeaning

def AVP.meaning (a : AVP) : Meaning where
  name := a.name
  code := a.code
  vendorID := a.vendorID
  must := flagMeaning a.must
  may := flagMeaning a.may
  mustNot := flagMeaning a.mustNot
  mayEncrypt := a.mayEncrypt
  type := a.data.type
  typeName := a.data.typeName
  enum := a.data.enum
  rule := a.data.rule.map Rule.meaning

theorem sameFlags_iff {a b : String} : sameFlags a b = true ↔ flagMeaning a = flagMeaning b := by
  unfold sameFlags flagMeaning
  cases ha : parseFlags a with
  | ok fa =>
    cases hb : parseFlags b with
    | ok fb => simp
    | error e =>
      have hne : a ≠ b := by
        rintro rfl
        rw [ha] at hb
        cases hb
      simp [hne]
  | error e =>
    cases hb : parseFlags b with
    | ok fb =>
      have hne : a ≠ b := by
        rintro rfl
        rw [ha] at hb
        cases hb
      simp [hne]
    | error e => simp

example : sameFlags "M,V" "VM" = true := by decide

theorem sameRule_iff {a b : Rule} : sameRule a b = true ↔ a.meaning = b.meaning := by
  simp only [sameRule, Rule.meaning, Bool.and_eq_true, beq_iff_eq, sameFlags_iff,
    RuleMeaning.mk.injEq]
  cases ha : a.bounded <;> cases hb : b.bounded <;> simp <;> tauto

theorem isEqv_sameRule {as bs : List Rule} :
    as.isEqv bs sameRule = true ↔ as.map Rule.meaning = bs.map Rule.meaning := by
  induction as generalizing bs with
  | nil => cases bs <;> simp [List.isEqv]
  | cons a as ih =>
    cases bs with
    | nil => simp [List.isEqv]
    | cons b bs =>
      simp only [List.isEqv, Bool.and_eq_true, List.map_cons, List.cons.injEq, sameRule_iff, ih]

theorem sameAVP_iff {a b : AVP} : sameAVP a b = true ↔ a.meaning = b.meaning := by
  simp only [sameAVP, AVP.meaning, Bool.and_eq_true, beq_iff_eq, sameFlags_iff, isEqv_sameRule,
    Meaning.mk.injEq]
  tauto

theorem key_of_sameAVP {a b : AVP} (h : sameAVP a b = true) :
    a.name = b.name ∧ a.code = b.code ∧ a.vendorID = b.vendorID := by
  have hm := sameAVP_iff.1 h
  exact ⟨congrArg Meaning.name hm, congrArg Meaning.code hm, congrArg Meaning.vendorID hm⟩

theorem sameAVP_trans {a b c : AVP} (h1 : sameAVP a b = true) (h2 : sameAVP b c = true) :
    sameAVP a c = true :=
  sameAVP_iff.2 ((sameAVP_iff.1 h1).trans (sameAVP_iff.1 h2))

end Diameter.Dict
