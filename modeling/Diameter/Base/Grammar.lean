import Diameter.Base.Dictionary
import Diameter.Dict.Commands
import Diameter.Dict.Lookup
import Diameter.Validation.Grammar

/-!
# Base.Grammar

The dictionary the base commands are validated with, and what its lookups answer.

The dictionary is built from one file whose definitions have different codes. What its indexes
answer is read off the file (`avp_iff`, `findAVPByName_iff`), so that the grammar of a command is
computed from the file as well (`grammarOf_eq`) and never from the indexes.
-/

namespace Diameter.Base

open Lib Datatype Dict Dict.Snapshot

variable {d : Dict.AVP}
variable {s : Snapshot} {code vendorID : UInt32}

/-- A definition with its type name resolved. -/
def typed (a : Dict.AVP) : Dict.AVP :=
  { a with data := { a.data with type := (available a.data.typeName).getD .unknown } }

def baseAVPs : List Dict.AVP := definitions.map typed

/-- The base application as a dictionary holds it. -/
def baseApp : App := { id := 0, command := commands, avp := baseAVPs }

/-- `grammarDictionary`. -/
def grammarDictionary : Snapshot :=
  (emptySnapshot.load .insertionOrder [baseFile]).toOption.getD emptySnapshot

/-- The file with its type names resolved. -/
def parsedFile : File := { app := [baseApp, { id := 3, type := "acct" }] }

theorem load_baseFile : (emptySnapshot.load .insertionOrder [baseFile]).isOk = true := by
  decide +kernel

theorem parseFile_baseFile : parseFile baseFile = .ok parsedFile := by
  rfl

theorem eq_ok_of_isOk {ε α : Type} {x : Except ε α} (h : x.isOk = true) (a : α) :
    x = .ok (x.toOption.getD a) := by
  cases x with
  | ok b => rfl
  | error e => cases h

theorem load_of_parseFile {ord : RangeOrder} {f f' : File}
    (h : parseFile f = .ok f') : s.load ord [f] = s.with ord [f'] [] := by
  unfold Snapshot.load
  rw [List.mapM_cons, List.mapM_nil, h]
  rfl

theorem with_parsedFile : emptySnapshot.with .insertionOrder [parsedFile] [] =
    .ok grammarDictionary :=
  (load_of_parseFile parseFile_baseFile).symm.trans (eq_ok_of_isOk load_baseFile emptySnapshot)

theorem grammarDictionary_indexed : Indexed grammarDictionary := (with_indexed with_parsedFile).1

theorem grammarDictionary_files : grammarDictionary.files = [parsedFile] :=
  (with_indexed with_parsedFile).2.1

theorem grammarDictionary_regs : grammarDictionary.regs = [] := (with_indexed with_parsedFile).2.2

/-! ## Lookups -/

theorem baseAVPs_nodup : (baseAVPs.map fun d => (d.code, d.vendorID)).Nodup := by
  decide +kernel

/-- Where identities differ, every definition is the last of its own. -/
theorem lastDef_eq_some {defs : List Registration} (hnodup : (defs.map Registration.idx).Nodup)
    {r : Registration} (hr : r ∈ defs) : lastDef defs r.idx = some r.avp := by
  have hmem : r ∈ defs.filter fun q => q.idx = r.idx :=
    List.mem_filter.2 ⟨hr, decide_eq_true rfl⟩
  obtain ⟨q, hq⟩ := List.getLast?_isSome.2 (List.ne_nil_of_mem hmem) |> Option.isSome_iff_exists.1
  have hqmem := List.mem_filter.1 (List.mem_of_getLast? hq)
  have hqr : q = r := List.inj_on_of_nodup_map hnodup hqmem.1 hr (of_decide_eq_true hqmem.2)
  rw [lastDef, hq, hqr]
  rfl

theorem ownAVP_of_file {app app' : App} (hfiles : s.files = [⟨[app, app']⟩])
    (hregs : s.regs = []) (havp : app'.avp = []) (code vendorID : UInt32) :
    s.ownAVP app.id code vendorID =
      lastDef (app.avp.map (Registration.mk app.id)) ⟨app.id, code, vendorID⟩ := by
  simp [Snapshot.ownAVP, sources, Sources.ownAVP, Sources.registeredAVP, Sources.loadedAVP,
    Sources.apps, loadedDefs, lastDef, hfiles, hregs, havp]

theorem ownAVP_iff :
    grammarDictionary.ownAVP 0 code vendorID = some d ↔
      d ∈ baseAVPs ∧ d.code = code ∧ d.vendorID = vendorID := by
  have hown : grammarDictionary.ownAVP 0 code vendorID =
      lastDef (baseAVPs.map (Registration.mk 0)) ⟨0, code, vendorID⟩ :=
    @ownAVP_of_file _ baseApp _ grammarDictionary_files grammarDictionary_regs rfl code vendorID
  rw [hown]
  constructor
  · intro h
    obtain ⟨hmem, hkey⟩ := lastDef_key h
    rw [List.map_map] at hmem
    obtain ⟨d', hd', rfl⟩ := List.mem_map.1 hmem
    exact ⟨hd', hkey⟩
  · rintro ⟨hd, rfl, rfl⟩
    refine @lastDef_eq_some _ ?_ ⟨0, d⟩ (List.mem_map_of_mem hd)
    have hmap : (baseAVPs.map (Registration.mk 0)).map Registration.idx =
        (baseAVPs.map fun d => (d.code, d.vendorID)).map fun k => ⟨0, k.1, k.2⟩ := by
      rw [List.map_map, List.map_map]
      rfl
    rw [hmap]
    exact baseAVPs_nodup.map fun a b hab =>
      Prod.ext (congrArg CodeIdx.code hab) (congrArg CodeIdx.vendorID hab)

theorem avp_iff :
    grammarDictionary.avp 0 code vendorID = some d ↔
      d ∈ baseAVPs ∧ d.code = code ∧ d.vendorID = vendorID := by
  rw [grammarDictionary_indexed.avp_eq, nearestAVP_zero, ownAVP_iff]

theorem findAVPByName_iff {name : String} :
    grammarDictionary.findAVPByName 0 name = .ok d ↔ d ∈ baseAVPs ∧ d.name = name := by
  have htoOption : grammarDictionary.findAVPByName 0 name = .ok d ↔
      (grammarDictionary.findAVPByName 0 name).toOption = some d := by
    cases grammarDictionary.findAVPByName 0 name <;> simp [Except.toOption]
  rw [htoOption, grammarDictionary_indexed.findAVPByName_eq,
    nearestByName_zero grammarDictionary_indexed.toMerged, grammarDictionary_indexed.byName, ownAVP_iff]
  exact ⟨fun h => ⟨h.1.1, h.2⟩, fun h => ⟨⟨h.1, rfl, rfl⟩, h.2⟩⟩

/-! ## Grammars -/

/-- A rule with the definition the file has for its name. -/
def resolve (rule : Rule) : Option ValidationRule :=
  if rule.avp = "AVP" then none
  else (baseAVPs.find? fun d => d.name = rule.avp).map (ValidationRule.mk rule)

theorem validationRule_eq (rule : Rule) :
    validationRule grammarDictionary 0 rule = resolve rule := by
  unfold validationRule resolve
  split
  · rfl
  cases hfind : baseAVPs.find? fun d => d.name = rule.avp with
  | some d =>
    have hd := List.mem_of_find?_eq_some hfind
    have hname : d.name = rule.avp := by simpa using List.find?_some hfind
    rw [findAVPByName_iff.2 ⟨hd, hname⟩]
    rfl
  | none =>
    cases hname : grammarDictionary.findAVPByName 0 rule.avp with
    | error e => rfl
    | ok d =>
      obtain ⟨hd, hdn⟩ := findAVPByName_iff.1 hname
      have := List.find?_eq_none.1 hfind d hd
      simp [hdn] at this

theorem grammarOf_eq (rules : List Rule) : grammarOf grammarDictionary 0 rules =
    ⟨rules.filterMap resolve, (rules.filter fun rule => rule.avp = "AVP").getLast?⟩ := by
  unfold grammarOf
  rw [show validationRule grammarDictionary 0 = resolve from funext validationRule_eq]

/-- `Unambiguous` for the rules of the file. -/
def distinctRules (rules : List Rule) : Bool :=
  decide ((rules.filterMap resolve).map ValidationRule.key).Nodup &&
    decide ((rules.filter fun rule => rule.avp = "AVP").length ≤ 1)

theorem unambiguous_of_distinctRules {rules : List Rule} (h : distinctRules rules = true) :
    Unambiguous grammarDictionary 0 rules := by
  unfold distinctRules at h
  simp only [Bool.and_eq_true, decide_eq_true_eq] at h
  refine ⟨?_, h.2⟩
  unfold Grammar.Distinct
  rw [grammarOf_eq]
  exact h.1

theorem baseAVPs_distinctRules : baseAVPs.all (fun d => distinctRules d.data.rule) = true := by
  decide +kernel

theorem unambiguous_members
    (h : grammarDictionary.avp 0 code vendorID = some d) :
    Unambiguous grammarDictionary 0 d.data.rule :=
  unambiguous_of_distinctRules (List.all_eq_true.1 baseAVPs_distinctRules d (avp_iff.1 h).1)

theorem findCommand_eq (hs : Published s) (hbase : baseApp ∈ s.apps) {cmd : Command}
    (hcmd : cmd ∈ commands) : s.findCommand 0 cmd.code = .ok cmd :=
  hs.commanded.findCommand_eq hbase hcmd

theorem grammarDictionary_published : Published grammarDictionary := by
  refine ⟨[(.insertionOrder, .load [baseFile])], ?_⟩
  unfold run
  rw [List.foldlM_cons, Op.apply, load_of_parseFile parseFile_baseFile, with_parsedFile]
  rfl

end Diameter.Base
