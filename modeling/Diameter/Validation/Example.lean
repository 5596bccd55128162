import Diameter.Dict.Closure
import Diameter.Validation.Scan

/-!
# Validation.Example

The example that an error carries for an AVP that is missing. A Grouped example holds examples of
its required members, whose grammars may lead back to it; the source stops at an identity it is
already inside of.

* `ExampleOf`: what an example has to look like, as a derivation without any bound.
* `missingAVPExample_complete`: there is a derivation for every definition a published dictionary
  hands out, so the recursion ends, and its bound is never met.
-/

namespace Diameter

open Lib Datatype Dict

/-- The AVP has the header its definition asks for; the V flag goes with the vendor. -/
structure DefinedHeader (d : Dict.AVP) (a : AVP) : Prop where
  code : a.code = d.code
  vendorID : a.vendorID = d.vendorID
  flags : a.flags = (if flagListed d.must 'M' then mbit else 0) |||
    (if flagListed d.must 'P' then pbit else 0) ||| (if d.vendorID ≠ 0 then vbit else 0)

def definitionKey (d : Dict.AVP) : ValidationKey := ⟨d.code, d.vendorID⟩

/-- An example of the definition `d`, inside of the identities of `path`. -/
inductive ExampleOf (s : Snapshot) (app : UInt32) : List ValidationKey → Dict.AVP → AVP → Prop where
  | leaf {path : List ValidationKey} {d : Dict.AVP} {a : AVP} : DefinedHeader d a →
      d.data.type ≠ .grouped →
      a.data = .value (.unknown (List.replicate (minimumAVPPayloadLength d.data.type) 0)) →
      ExampleOf s app path d a
  | again {path : List ValidationKey} {d : Dict.AVP} {a : AVP} : DefinedHeader d a →
      d.data.type = .grouped → definitionKey d ∈ path → a.data = .group [] →
      ExampleOf s app path d a
  | group {path : List ValidationKey} {d : Dict.AVP} {a : AVP} (member : Rule → Dict.AVP)
      (sample : Rule → AVP) : DefinedHeader d a → d.data.type = .grouped → definitionKey d ∉ path →
      (∀ rule ∈ d.data.rule, rule.avp ≠ "AVP" →
        s.findAVPByName app rule.avp = .ok (member rule)) →
      (∀ rule ∈ d.data.rule, rule.avp ≠ "AVP" →
        ExampleOf s app (definitionKey d :: path) (member rule) (sample rule)) →
      a.data = .group (d.data.rule.flatMap fun rule =>
        if rule.avp = "AVP" then [] else List.replicate (minimumCount rule) (some (sample rule))) →
      ExampleOf s app path d a

variable {s : Snapshot} {app : UInt32} {d : Dict.AVP} {seen : List ValidationKey}

theorem definedHeader_newAVP (data : Data AVP) :
    DefinedHeader d (newAVP d.code (requiredFlags d) d.vendorID data) where
  code := rfl
  vendorID := rfl
  flags := by
    unfold newAVP newAVPWithFlags requiredFlags
    dsimp only
    by_cases hv : d.vendorID = 0
    · simp only [hv, ne_eq, not_true_eq_false, false_or, if_false]
      generalize flagListed d.must 'M' = m, flagListed d.must 'P' = p, flagListed d.must 'V' = v
      revert m p v
      decide
    · simp only [hv, ne_eq, not_false_eq_true, true_or, if_true]
      generalize flagListed d.must 'M' = m, flagListed d.must 'P' = p
      revert m p
      decide

theorem findAVP_of_name {name : String} (h : s.findAVPByName app name = .ok d) :
    ∃ code vendorID, s.findAVP app code vendorID = .ok d := by
  have hname : ∀ id, s.nameIn app name id = some d →
      ∃ code vendorID, s.findAVP app code vendorID = .ok d := by
    intro id h
    unfold Snapshot.nameIn at h
    split at h
    · cases h
    rename_i a _
    split at h
    next resolved hresolved =>
      split at h
      · cases h
        exact ⟨_, _, Snapshot.findAVP_ok.2 hresolved⟩
      · cases h
    · cases h
  unfold Snapshot.findAVPByName at h
  split at h
  next a ha =>
    cases h
    exact hname _ ha
  split at h
  next a ha =>
    cases h
    exact hname _ ha
  · cases h

/-- The identities a dictionary defines. -/
def definedKeys (s : Snapshot) : Finset ValidationKey :=
  (s.avpcode.entries.map fun e => definitionKey e.2).toFinset

theorem mem_definedKeys {code vendorID : UInt32} (h : s.findAVP app code vendorID = .ok d) :
    definitionKey d ∈ definedKeys s := by
  rw [Snapshot.findAVP_ok, Snapshot.avp_eq] at h
  have hentry : ∃ idx, s.avpcode.lookup idx = some d := by
    rcases Option.or_eq_some_iff.1 h with h | ⟨-, h⟩
    · exact ⟨_, h⟩
    · exact ⟨_, h⟩
  obtain ⟨idx, hidx⟩ := hentry
  exact List.mem_toFinset.2 (List.mem_map.2 ⟨_, GoMap.mem_entries hidx, rfl⟩)

theorem example_leaf (fuel : Nat) (h : d.data.type ≠ .grouped) :
    ExampleOf s app seen d (missingAVPExampleAt s app fuel seen d) := by
  unfold missingAVPExampleAt
  refine .leaf (definedHeader_newAVP _) h ?_
  cases htype : d.data.type <;> simp_all [newAVP, newAVPWithFlags, ownedData]

theorem example_members (fuel : Nat) (h : d.data.type = .grouped) (hkey : definitionKey d ∉ seen)
    {member : Rule → Dict.AVP} (hmember : ∀ rule ∈ d.data.rule, rule.avp ≠ "AVP" →
      s.findAVPByName app rule.avp = .ok (member rule)) :
    (missingAVPExampleAt s app (fuel + 1) seen d).data = .group (d.data.rule.flatMap fun rule =>
      if rule.avp = "AVP" then [] else List.replicate (minimumCount rule)
        (some (missingAVPExampleAt s app fuel (definitionKey d :: seen) (member rule)))) := by
  rw [missingAVPExampleAt]
  have hkey : (⟨d.code, d.vendorID⟩ : ValidationKey) ∉ seen := hkey
  simp only [h, newAVP, newAVPWithFlags, ownedData]
  rw [if_neg hkey]
  refine congrArg Data.group (List.flatMap_congr fun rule hrule => ?_)
  unfold validationRule
  by_cases havp : rule.avp = "AVP"
  · rw [if_pos havp, if_pos havp]
  · rw [if_neg havp, if_neg havp, hmember rule hrule havp]
    rfl

/-- The identities on a path are distinct and defined, besides the first, so a path that has used
up its bound has met all of them. -/
theorem missingAVPExampleAt_complete (hs : Snapshot.Indexed s) {U : Finset ValidationKey}
    (hU : definedKeys s ⊆ U) (fuel : Nat) : ∀ {seen : List ValidationKey} {d : Dict.AVP},
    (∃ code vendorID, s.findAVP app code vendorID = .ok d) → definitionKey d ∈ U →
    (∀ k ∈ seen, k ∈ U) → seen.Nodup → U.card ≤ fuel + seen.length →
    ExampleOf s app seen d (missingAVPExampleAt s app fuel seen d) := by
  induction fuel with
  | zero =>
    intro seen d _ hd hseen hnodup hcard
    by_cases hg : d.data.type = .grouped
    · have hfull : seen.toFinset = U := by
        refine Finset.eq_of_subset_of_card_le (fun k hk => hseen k (List.mem_toFinset.1 hk)) ?_
        rw [List.toFinset_card_of_nodup hnodup]
        omega
      unfold missingAVPExampleAt
      refine .again (definedHeader_newAVP _) hg (List.mem_toFinset.1 (hfull ▸ hd)) ?_
      simp only [hg, newAVP, newAVPWithFlags, ownedData]
    · exact example_leaf 0 hg
  | succ fuel ih =>
    intro seen d hvisible hd hseen hnodup hcard
    by_cases hg : d.data.type = .grouped
    · by_cases hmem : definitionKey d ∈ seen
      · unfold missingAVPExampleAt
        refine .again (definedHeader_newAVP _) hg hmem ?_
        have hmem : (⟨d.code, d.vendorID⟩ : ValidationKey) ∈ seen := hmem
        simp only [hg, newAVP, newAVPWithFlags, ownedData]
        rw [if_pos hmem]
      obtain ⟨code, vendorID, hfind⟩ := hvisible
      have husable := (hs.closed app).2 code vendorID d hfind
      have : Nonempty Dict.AVP := ⟨d⟩
      choose! member hmember using fun rule hrule havp =>
        (husable rule hrule havp).imp fun _ => And.left
      refine .group member _ ?_ hg hmem hmember (fun rule hrule havp => ?_)
        (example_members fuel hg hmem hmember)
      · unfold missingAVPExampleAt
        exact definedHeader_newAVP _
      · have hvisible := findAVP_of_name (hmember rule hrule havp)
        obtain ⟨code', vendorID', hfind'⟩ := hvisible
        refine ih ⟨code', vendorID', hfind'⟩ (hU (mem_definedKeys hfind')) (fun k hk => ?_)
          (List.nodup_cons.2 ⟨hmem, hnodup⟩) ?_
        · rcases List.mem_cons.1 hk with rfl | hk
          · exact hd
          · exact hseen k hk
        · rw [List.length_cons]
          omega
    · exact example_leaf (fuel + 1) hg

theorem missingAVPExample_complete {s : Snapshot} (hs : Published s) {app code vendorID : UInt32}
    {d : Dict.AVP} (hd : s.findAVP app code vendorID = .ok d) :
    ExampleOf s app [] d (missingAVPExample s app d) := by
  refine missingAVPExampleAt_complete hs.indexed (Finset.Subset.refl _) _ ⟨code, vendorID, hd⟩
    (mem_definedKeys hd) nofun List.nodup_nil ?_
  refine (List.toFinset_card_le _).trans ?_
  rw [List.length_map, List.length_nil]
  omega

/-! Two groups that need each other, and a definition that asks for the V flag without a vendor. -/

def recursiveData (rules : List Rule) : Dict.Data := ⟨.unknown, "Grouped", [], rules⟩

def recursiveFile : File :=
  { app := [{ id := 0, avp := [
    { name := "Left", code := 7, data := recursiveData [{ avp := "Right", min := 2 }] },
    { name := "Right", code := 8, must := "M", data := recursiveData
        [{ avp := "AVP" }, { avp := "Left", required := true }, { avp := "Flag", min := 1 }] },
    { name := "Flag", code := 9, must := "V", data := ⟨.unknown, "Unsigned32", [], []⟩ }] }] }

theorem recursive_example : ∃ s d,
    Published s ∧ s.findAVP 0 7 0 = .ok d ∧ ExampleOf s 0 [] d (missingAVPExample s 0 d) := by
  have hok : ((run [(.insertionOrder, .load [recursiveFile])] emptySnapshot).toOption.bind
      fun s => (s.findAVP 0 7 0).toOption).isSome = true := by decide +kernel
  obtain ⟨d, hd⟩ := Option.isSome_iff_exists.1 hok
  obtain ⟨s, hs, hd⟩ := Option.bind_eq_some_iff.1 hd
  rw [toOption_eq_some] at hs hd
  exact ⟨s, d, ⟨_, hs⟩, hd, missingAVPExample_complete ⟨_, hs⟩ hd⟩

theorem flag_example : ∃ s d, Published s ∧ s.findAVP 0 9 0 = .ok d ∧
    (missingAVPExample s 0 d).flags ≠ requiredFlags d := by
  have hok : ((run [(.insertionOrder, .load [recursiveFile])] emptySnapshot).toOption.bind
      fun s => (s.findAVP 0 9 0).toOption.map fun d =>
        decide ((missingAVPExample s 0 d).flags = requiredFlags d)) = some false := by
    decide +kernel
  obtain ⟨s, hs, hd⟩ := Option.bind_eq_some_iff.1 hok
  obtain ⟨d, hd, hflags⟩ := Option.map_eq_some_iff.1 hd
  rw [toOption_eq_some] at hs hd
  exact ⟨s, d, ⟨_, hs⟩, hd, of_decide_eq_false hflags⟩

end Diameter
