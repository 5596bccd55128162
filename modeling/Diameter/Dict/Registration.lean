import Diameter.Dict.Names

/-!
# Dict.Registration

What becomes of a registered AVP. A definition the application did not resolve before is recorded,
and from then on every published snapshot resolves its code and vendor to the same definition:
sources are never removed, a registration comes before the files, and a build fails where a file or
another registration contradicts it. A definition the application resolved already is ignored, and
is replaced when the definition it repeated is.
-/

namespace Diameter.Dict

open Lib

variable {regs : List Registration} {s : Snapshot} {app : UInt32}

namespace Snapshot

theorem addDefinition_app {regs regs' : List Registration} {d : AVP}
    (h : s.addDefinition app regs d = .ok regs') (hregs : ∀ r ∈ regs, r.app = app) :
    ∀ r ∈ regs', r.app = app := by
  unfold addDefinition at h
  split at h
  · split at h
    · cases h
      exact hregs
    · cases h
  · obtain ⟨_, h⟩ := andThen_eq_ok.1 h
    obtain ⟨_, h⟩ := andThen_eq_ok.1 h
    cases h
    split
    · exact hregs
    intro r hr
    rcases List.mem_append.1 hr with hr | hr
    · exact hregs r hr
    · rw [List.mem_singleton.1 hr]

theorem addDefinition_keeps {regs regs' : List Registration} {d : AVP}
    (h : s.addDefinition app regs d = .ok regs') : regs ⊆ regs' := by
  unfold addDefinition at h
  split at h
  · split at h
    · cases h
      exact fun _ hr => hr
    · cases h
  · obtain ⟨_, h⟩ := andThen_eq_ok.1 h
    obtain ⟨_, h⟩ := andThen_eq_ok.1 h
    cases h
    split
    · exact fun _ hr => hr
    · exact fun _ hr => List.mem_append_left _ hr

/-- A definition the application does not resolve is in the registrations of the call, itself or
as one that means the same. -/
theorem addDefinition_records {regs regs' : List Registration} {d : AVP}
    (h : s.addDefinition app regs d = .ok regs') (hnew : s.avp app d.code d.vendorID = none) :
    ∃ r ∈ regs', sameAVP r.avp d = true := by
  unfold addDefinition at h
  split at h
  next r hr =>
    split at h
    next hsame =>
      cases h
      exact ⟨r, List.mem_of_find?_eq_some hr, hsame⟩
    · cases h
  · obtain ⟨_, h⟩ := andThen_eq_ok.1 h
    obtain ⟨_, h⟩ := andThen_eq_ok.1 h
    rw [hnew] at h
    cases h
    exact ⟨⟨app, d⟩, by simp, sameAVP_iff.2 rfl⟩

theorem foldlM_addDefinition_records {defs : List AVP} {d : AVP}
    (h : defs.foldlM (s.addDefinition app) [] = .ok regs) (hd : d ∈ defs)
    (hnew : s.avp app d.code d.vendorID = none) :
    ∃ r ∈ regs, r.app = app ∧ sameAVP r.avp d = true := by
  have happ : ∀ r ∈ regs, r.app = app := by
    refine foldlM_invariant (P := fun regs => ∀ r ∈ regs, r.app = app) ?_ h ?_
    · intro regs d regs' _ hregs hstep
      exact addDefinition_app hstep hregs
    · intro r hr
      cases hr
  have hsame : ∃ r ∈ regs, sameAVP r.avp d = true := by
    refine foldlM_establishes (P := fun regs : List Registration => ∃ r ∈ regs,
      sameAVP r.avp d = true) hd ?_ ?_ h
    · intro regs regs' hstep
      exact addDefinition_records hstep hnew
    · rintro regs d' regs' _ ⟨r, hr, hsame⟩ hstep
      exact ⟨r, addDefinition_keeps hstep hr, hsame⟩
  obtain ⟨r, hr, hsame⟩ := hsame
  exact ⟨r, hr, happ r hr, hsame⟩

theorem newRegisteredAVP_key {d : Definition} {a : AVP} (h : newRegisteredAVP app (some d) = .ok a)
    : a.code = d.code ∧ a.vendorID = d.vendorID := by
  obtain ⟨_, h⟩ := andThen_eq_ok.1 h
  obtain ⟨_, _, h⟩ := bind_eq_ok.1 h
  obtain ⟨_, h⟩ := andThen_eq_ok.1 h
  obtain ⟨_, _, h⟩ := bind_eq_ok.1 h
  obtain ⟨_, _, h⟩ := bind_eq_ok.1 h
  cases h
  exact ⟨rfl, rfl⟩

theorem registerAVP_records {ord : RangeOrder} {s s' : Snapshot} {avps : List (Option Definition)}
    {d : Definition} (h : s.registerAVP ord app avps = .ok s') (hd : some d ∈ avps)
    (hnew : s.avp app d.code d.vendorID = none) :
    ∃ copy, newRegisteredAVP app (some d) = .ok copy ∧
      ∃ r ∈ s'.regs, r.app = app ∧ sameAVP r.avp copy = true := by
  obtain ⟨defs, hdefs, h⟩ := bind_eq_ok.1 h
  obtain ⟨regs, hregs, h⟩ := bind_eq_ok.1 h
  obtain ⟨copy, hcopy, hnewcopy⟩ := mem_of_mem_mapM hdefs hd
  obtain ⟨hcode, hvendor⟩ := newRegisteredAVP_key hnewcopy
  obtain ⟨r, hr, happ, hsame⟩ :=
    foldlM_addDefinition_records hregs hcopy (by rw [hcode, hvendor, hnew])
  refine ⟨copy, hnewcopy, r, ?_, happ, hsame⟩
  rw [if_neg (List.ne_nil_of_mem hr)] at h
  obtain ⟨_, _, hall⟩ := with_indexed h
  rw [hall]
  exact List.mem_append_right _ hr

theorem Indexed.findAVP_registered (h : Indexed s) {r : Registration} (hr : r ∈ s.regs) :
    ∃ a, s.findAVP r.app r.avp.code r.avp.vendorID = .ok a ∧ sameAVP r.avp a = true := by
  obtain ⟨a, ha, hsame⟩ := h.registered r hr
  refine ⟨a, ?_, hsame⟩
  rw [findAVP_ok, h.avp_eq, nearestAVP_eq, ha, Option.some_or]

end Snapshot

open Snapshot in
/-- A definition that an application did not resolve before it was registered stays in force
through every later history. -/
theorem registration_permanent {calls later : List (RangeOrder × Op)} {s s₁ s₂ : Snapshot}
    (h : run calls emptySnapshot = .ok s) {ord : RangeOrder} {app : UInt32}
    {avps : List (Option Definition)} (hreg : s.registerAVP ord app avps = .ok s₁) {d : Definition}
    (hd : some d ∈ avps) (hnew : (s.findAVP app d.code d.vendorID).toOption = none)
    (hlater : run later s₁ = .ok s₂) :
    ∃ copy a, newRegisteredAVP app (some d) = .ok copy ∧
      s₂.findAVP app d.code d.vendorID = .ok a ∧ sameAVP a copy = true := by
  rw [findAVP_toOption] at hnew
  have hs : Indexed s := run_indexed emptySnapshot_indexed h
  have hs1 : Indexed s₁ := ((Op.registerAVP app avps).apply_indexed hs hreg).1
  obtain ⟨copy, hcopy, r, hr, rfl, hsame⟩ := registerAVP_records hreg hd hnew
  obtain ⟨a, ha, hsame'⟩ := (run_indexed hs1 hlater).findAVP_registered (run_regs hs1 hlater hr)
  obtain ⟨_, hcode, hvendor⟩ := key_of_sameAVP hsame
  obtain ⟨hdcode, hdvendor⟩ := newRegisteredAVP_key hcopy
  refine ⟨copy, a, hcopy, ?_, sameAVP_iff.2 ?_⟩
  · rw [← ha, hcode, hvendor, hdcode, hdvendor]
  · rw [← sameAVP_iff.1 hsame', sameAVP_iff.1 hsame]

def extraDefinition : Definition := { name := "Extra", code := 9, typeName := "Time" }

theorem registration_permanent_load :
    ∃ s₁ s₂ copy a, emptySnapshot.registerAVP .insertionOrder 5 [some extraDefinition] = .ok s₁ ∧
      run [(.insertionOrder, .load [diamondFile])] s₁ = .ok s₂ ∧
      newRegisteredAVP 5 (some extraDefinition) = .ok copy ∧
      s₂.findAVP 5 9 0 = .ok a ∧ sameAVP a copy = true := by
  have hok : (emptySnapshot.registerAVP .insertionOrder 5 [some extraDefinition]).toOption.bind
      (fun s₁ => (run [(.insertionOrder, .load [diamondFile])] s₁).toOption.map fun _ => ()) =
        some () := by decide +kernel
  obtain ⟨s₁, hs1, hok⟩ := Option.bind_eq_some_iff.1 hok
  obtain ⟨s₂, hs2, _⟩ := Option.map_eq_some_iff.1 hok
  rw [toOption_eq_some] at hs1 hs2
  have hstart : run [] emptySnapshot = .ok emptySnapshot := rfl
  obtain ⟨copy, a, hcopy, ha, hsame⟩ := registration_permanent hstart hs1 List.mem_cons_self rfl hs2
  exact ⟨s₁, s₂, copy, a, hs1, hs2, hcopy, ha, hsame⟩

/-! Registering what base already defines leaves nothing behind, and loading base again changes
what the application resolves. -/

def baseFile (typeName : String) : File :=
  { app := [{ id := 0, avp := [{ name := "Extra", code := 9,
                                 data := { type := .unknown, typeName := typeName } }] }] }

theorem not_registration_permanent :
    ∃ s s₁ s₂ copy a, run [(.insertionOrder, .load [baseFile "Time"])] emptySnapshot = .ok s ∧
      s.registerAVP .insertionOrder 5 [some extraDefinition] = .ok s₁ ∧
      run [(.insertionOrder, .load [baseFile "Unsigned32"])] s₁ = .ok s₂ ∧
      newRegisteredAVP 5 (some extraDefinition) = .ok copy ∧
      s₂.findAVP 5 9 0 = .ok a ∧ sameAVP a copy = false := by
  have hok : (run [(.insertionOrder, .load [baseFile "Time"])] emptySnapshot).toOption.bind
      (fun s => (s.registerAVP .insertionOrder 5 [some extraDefinition]).toOption.bind fun s₁ =>
        (run [(.insertionOrder, .load [baseFile "Unsigned32"])] s₁).toOption.bind fun s₂ =>
          (newRegisteredAVP 5 (some extraDefinition)).toOption.bind fun copy =>
            (s₂.findAVP 5 9 0).toOption.map fun a => sameAVP a copy) = some false := by
    decide +kernel
  obtain ⟨s, hs, hok⟩ := Option.bind_eq_some_iff.1 hok
  obtain ⟨s₁, hs1, hok⟩ := Option.bind_eq_some_iff.1 hok
  obtain ⟨s₂, hs2, hok⟩ := Option.bind_eq_some_iff.1 hok
  obtain ⟨copy, hcopy, hok⟩ := Option.bind_eq_some_iff.1 hok
  obtain ⟨a, ha, hsame⟩ := Option.map_eq_some_iff.1 hok
  rw [toOption_eq_some] at hs hs1 hs2 hcopy ha
  exact ⟨s, s₁, s₂, copy, a, hs, hs1, hs2, hcopy, ha, hsame⟩

end Diameter.Dict
