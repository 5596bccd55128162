import Diameter.Base.Validation

/-!
# Base.Echo

Echoes of Proxy-Info AVPs pass the checks their originals pass.

The grammar looks at the identity, the V bit and the nesting of AVPs only, so it accepts whatever
keeps these (`Reshapes`, `Conforms.map`). The data checks look at the values as well, which an echo
keeps wherever they matter (`validateTypes_echo`).
-/

namespace Diameter

open Lib Datatype Dict

variable {a : AVP} {d : Dict.AVP} {ms : List (Option AVP)}
variable {rules : List Rule} {v : Value}

/-! ## The grammar -/

/-- A change of AVPs that leaves everything alone that the grammar looks at. -/
structure Reshapes (f : AVP → AVP) : Prop where
  code : ∀ a, (f a).code = a.code
  vendorID : ∀ a, (f a).vendorID = a.vendorID
  vbit : ∀ a, (f a).flags &&& vbit = a.flags &&& vbit
  isGroup : ∀ a, (f a).isGroup = a.isGroup
  members : ∀ a, (f a).members = a.members.map (Option.map f)
  group : ∀ a ms, a.data = .group ms → (f a).data = .group (ms.map (Option.map f))

namespace Reshapes

variable {f : AVP → AVP} (hf : Reshapes f) {s : Snapshot} {app : UInt32}

include hf

theorem key (a : AVP) : (f a).key = a.key := by
  rw [AVP.key, AVP.key, hf.code, hf.vendorID]

theorem isKnown (a : AVP) : (f a).isKnown s app = a.isKnown s app := by
  rw [AVP.isKnown, AVP.isKnown, hf.code, hf.vendorID]

theorem isListed (g : Grammar) (a : AVP) : (f a).isListed g = a.isListed g := by
  rw [AVP.isListed, AVP.isListed, hf.key]

theorem isCounted (g : Grammar) (a : AVP) : (f a).isCounted g s app = a.isCounted g s app := by
  rw [AVP.isCounted, AVP.isCounted, hf.isListed, hf.isKnown]

theorem isFailedAVP (a : AVP) : (f a).isFailedAVP = a.isFailedAVP := by
  rw [AVP.isFailedAVP, AVP.isFailedAVP, hf.code, hf.vendorID]

theorem groupRules (a : AVP) : groupRules s app (f a) = groupRules s app a := by
  rw [Diameter.groupRules, Diameter.groupRules, hf.code, hf.vendorID]

theorem isEvidence (h : a.IsEvidence) : (f a).IsEvidence := by
  obtain ⟨ms, hdata, hne, hnone⟩ := h
  refine ⟨_, hf.group a ms hdata, ?_, ?_⟩
  · rwa [Ne, List.map_eq_nil_iff]
  intro hmem
  obtain ⟨o, ho, hmap⟩ := List.mem_map.1 hmem
  cases o with
  | none => exact hnone ho
  | some a => cases hmap

theorem applicationChoices (ms : List (Option AVP)) :
    applicationChoices (ms.map (Option.map f)) = applicationChoices ms := by
  have hchoice : (fun a => (f a).isApplicationChoice) = AVP.isApplicationChoice := by
    funext a
    rw [AVP.isApplicationChoice, AVP.isApplicationChoice, hf.code, hf.vendorID]
  have hmembers : (ms.map (Option.map f)).filterMap id = (ms.filterMap id).map f := by
    rw [List.filterMap_map, List.map_filterMap]
    rfl
  unfold Diameter.applicationChoices
  rw [hmembers, List.filter_map, List.length_map]
  exact congrArg (fun p => ((ms.filterMap id).filter p).length) hchoice

theorem sequence {as : List AVP} (h : Sequence s app rules as) :
    Sequence s app rules (as.map f) := by
  have hoccurrences : ∀ k, occurrences (as.map f) k = occurrences as k := fun k => by
    simp only [occurrences, List.countP_map, Function.comp_def, hf.key]
  have hcounted : ∀ g, countedKeys g s app (as.map f) = countedKeys g s app as := fun g => by
    simp only [countedKeys, List.filter_map, List.map_map, Function.comp_def, hf.isCounted, hf.key]
  refine ⟨?_, ?_, ?_, ?_, ?_, ?_⟩
  · intro b hb hknown
    obtain ⟨a, ha, rfl⟩ := List.mem_map.1 hb
    rw [hf.isListed]
    rw [hf.isKnown] at hknown
    exact h.listed a ha hknown
  · intro e he
    rw [hoccurrences]
    exact h.minimum e he
  · intro e he n hn
    rw [hoccurrences]
    exact h.maximum e he n hn
  · rw [hcounted]
    exact h.fixedPrefix
  · intro w hw hname
    simp only [List.countP_map, Function.comp_def, hf.isListed]
    exact h.wildcardMinimum w hw hname
  · intro w hw hname hmax
    simp only [List.countP_map, Function.comp_def, AVP.isExtension, hf.isListed, hf.isKnown]
    exact h.wildcardMaximum w hw hname hmax

/-- One level: what the members of the AVPs are is left to the hypothesis. -/
theorem conforms_of_members
    (h : Conforms s app rules (ms.map Item.plain))
    (ih : ∀ a, some a ∈ ms → ∀ rules', Conforms s app rules' (a.members.map Item.plain) →
      Conforms s app rules' ((f a).members.map Item.plain)) :
    Conforms s app rules ((ms.map (Option.map f)).map Item.plain) := by
  obtain @⟨_, _, as, hnil, hsequence, hflags, hevidence, hmembers, hchoice⟩ := h
  have hms : ms = as.map some := by simpa [Function.comp_def, Item.plain] using hnil
  subst hms
  have hplain : ∀ a ∈ as, Item.plain (some a) ∈ (as.map some).map Item.plain := fun a ha =>
    List.mem_map_of_mem (List.mem_map_of_mem ha)
  have hitem : ∀ i ∈ ((as.map some).map (Option.map f)).map Item.plain, ∀ b, i.avp = some b →
      ∃ a ∈ as, f a = b := by
    intro i hi b hb
    simp only [List.map_map, List.mem_map, Function.comp_apply] at hi
    obtain ⟨a, ha, rfl⟩ := hi
    exact ⟨a, ha, Option.some.inj hb⟩
  refine @Conforms.mk _ _ _ _ (as.map f) ?_ (hf.sequence hsequence) ?_ ?_ ?_ ?_
  · simp [Item.plain]
  · intro i hi b d hb _ hd
    obtain ⟨a, ha, rfl⟩ := hitem i hi b hb
    rw [hf.vbit]
    rw [hf.code, hf.vendorID] at hd
    exact hflags _ (hplain a ha) a d rfl (plain_isEchoedProxy _) hd
  · intro i hi b hb _ hcounted hfailed
    obtain ⟨a, ha, rfl⟩ := hitem i hi b hb
    rw [hf.isCounted] at hcounted
    rw [hf.isFailedAVP] at hfailed
    exact hf.isEvidence (hevidence _ (hplain a ha) a rfl (plain_isEchoedProxy _) hcounted hfailed)
  · intro i hi b d hb _ hfailed hrules hgroup
    obtain ⟨a, ha, rfl⟩ := hitem i hi b hb
    rw [hf.isFailedAVP] at hfailed
    rw [hf.groupRules] at hrules
    rw [hf.isGroup] at hgroup
    exact ih a (List.mem_map_of_mem ha) _
      (hmembers _ (hplain a ha) a d rfl (plain_isEchoedProxy _) hfailed hrules hgroup)
  · intro i hi b d hb _ hfailed hrules hgroup hvendor
    obtain ⟨a, ha, rfl⟩ := hitem i hi b hb
    rw [hf.isFailedAVP] at hfailed
    rw [hf.groupRules] at hrules
    rw [hf.isGroup] at hgroup
    rw [hf.members, hf.applicationChoices]
    exact hchoice _ (hplain a ha) a d rfl (plain_isEchoedProxy _) hfailed hrules hgroup hvendor

/-- What conforms still does after the change, on every level. -/
theorem conforms_members (a : AVP)
    (h : Conforms s app rules (a.members.map Item.plain)) :
    Conforms s app rules ((f a).members.map Item.plain) := by
  induction a using AVP.members_induction generalizing rules with
  | level a ih =>
    rw [hf.members]
    exact hf.conforms_of_members h fun c hc rules' hc' => ih c hc hc'

end Reshapes

theorem echoMembers_eq (ms : List (Option AVP)) : echoMembers ms = ms.map (Option.map AVP.echo) := by
  induction ms with
  | nil => rfl
  | cons o ms ih => cases o <;> simp [echoMembers, ih]

theorem echoFlags_vbit : ∀ flags : UInt8, echoFlags flags &&& vbit = flags &&& vbit := by
  decide +kernel

theorem AVP.echo_flags (a : AVP) : a.echo.flags = echoFlags a.flags := by
  obtain ⟨_, _, _, _, data⟩ := a
  cases data <;> rfl

theorem reshapes_echo : Reshapes AVP.echo where
  code := by rintro ⟨_, _, _, _, _ | _ | _ | _ | _⟩ <;> rfl
  vendorID := by rintro ⟨_, _, _, _, _ | _ | _ | _ | _⟩ <;> rfl
  vbit := fun a => by rw [a.echo_flags, echoFlags_vbit]
  isGroup := by rintro ⟨_, _, _, _, _ | _ | _ | _ | _⟩ <;> rfl
  members := by
    rintro ⟨_, _, _, _, _ | _ | _ | _ | ms⟩
    case group => exact echoMembers_eq ms
    all_goals rfl
  group := by
    rintro ⟨_, _, _, _, _⟩ ms rfl
    exact congrArg Data.group (echoMembers_eq ms)

/-! ## The data -/

/-- A value that is not an address is copied through its octets, which never fails. -/
theorem Datatype.Value.clone_typeID (v : Value) : v.clone.typeID = v.typeID := by
  unfold Value.clone
  split
  · rfl
  rename_i hnot
  cases hdecode : decode v.typeID v.serialize with
  | ok copy => exact typeID_of_decode hdecode
  | error e =>
    cases v with
    | address a => exact absurd rfl (hnot a)
    | time unix =>
      have hlen : (Value.time unix).serialize.length = 4 := by simp [Value.serialize]
      simp only [Value.typeID, decode, hlen] at hdecode
      split at hdecode
      · omega
      · split at hdecode <;> cases hdecode
    | _ => cases hdecode

/-- Values with a shape of their own are copied as they are. -/
theorem Datatype.Value.clone_of_expressible (h : v.expressible = true) :
    v.clone = v := by
  unfold Value.clone
  split
  · rfl
  · rw [decode_serialize ⟨rfl, h⟩]

namespace Base

theorem grouped_of_group (hdata : a.data = .group ms) (h : mistyped d a = false) :
    d.data.type = .grouped := by
  unfold mistyped at h
  rw [hdata] at h
  cases ht : d.data.type with
  | grouped => rfl
  | _ => rw [ht] at h; simp [Data.typeID?] at h

theorem dataError_group (hdata : a.data = .group ms) (htype : d.data.type = .grouped) :
    dataError d a = none := by
  simp [dataError_eq_none, malformed, mistyped, invalidCause, zeroVendor, AVP.unsigned32?, hdata,
    htype]

theorem typeID_of_value (hdata : a.data = .value v) (h : mistyped d a = false) :
    v.typeID = d.data.type ∧ d.data.type ≠ .grouped := by
  unfold mistyped at h
  rw [hdata] at h
  cases ht : d.data.type with
  | grouped => rw [ht] at h; cases h
  | _ => rw [ht] at h; simpa [Data.typeID?] using h

theorem dataError_unread (hdata : a.data = .value v)
    (hunread : v.typeID = .ipv4 ∨ v.typeID = .ipv6 ∨ v.typeID = .time)
    (htype : v.typeID = d.data.type) : dataError d a = none := by
  cases v
  case ipv4 | ipv6 | time =>
    simp only [Value.typeID] at htype
    simp [dataError_eq_none, malformed, mistyped, invalidCause, zeroVendor, AVP.unsigned32?, hdata,
      ← htype, Data.typeID?, Value.typeID]
  all_goals simp [Value.typeID] at hunread

/-- Of data a definition accepts, an echo is either a copy or of a type that is not looked into. -/
theorem dataError_echo (h : dataError d a = none) : dataError d a.echo = none := by
  obtain ⟨code, flags, length, vendorID, data⟩ := a
  obtain ⟨-, htyped, -, -⟩ := dataError_eq_none.1 h
  cases data with
  | value v =>
    have htype := (typeID_of_value rfl htyped).1
    have hunread : v.typeID = .ipv4 ∨ v.typeID = .ipv6 ∨ v.typeID = .time →
        dataError d (AVP.echo ⟨code, flags, length, vendorID, .value v⟩) = none := fun hunread =>
      dataError_unread rfl (by rwa [v.clone_typeID]) (v.clone_typeID.trans htype)
    cases v with
    | address x => exact h
    | ipv4 ip => exact hunread (.inl rfl)
    | ipv6 ip => exact hunread (.inr (.inl rfl))
    | time unix => exact hunread (.inr (.inr rfl))
    | _ => rw [AVP.echo, Value.clone_of_expressible rfl]; exact h
  | group ms => exact dataError_group rfl (grouped_of_group rfl htyped)
  | nil => exact h
  | addressPtr p => exact h
  | nilGroup => exact h

theorem validateTypes_echo {s : Snapshot} (h : a.validateTypes s = none) :
    a.echo.validateTypes s = none := by
  induction a using AVP.members_induction with
  | level a ih =>
    rw [avpTypes_eq_none] at h ⊢
    rw [reshapes_echo.code, reshapes_echo.vendorID, reshapes_echo.isFailedAVP,
      reshapes_echo.members]
    intro d hd hfailed
    obtain ⟨hdata, hmembers⟩ := h d hd hfailed
    refine ⟨dataError_echo hdata, fun c hc => ?_⟩
    obtain ⟨o, ho, hmap⟩ := List.mem_map.1 hc
    obtain ⟨c', rfl, rfl⟩ := Option.map_eq_some_iff.1 hmap
    exact ih c' ho (hmembers c' ho)

end Base

end Diameter
