import Diameter.Wire.ReadWrite

/-!
# Wire.Precedence

Which error `ReadMessage` reports. The decoder goes over the octets once and meets three kinds of
errors in any order; this module compares it with a reference that goes over them twice.

* `firstFault`: the first pass walks the wire depth first, into the AVPs the dictionary types as
  Grouped and down to the nesting limit, and stops at the first AVP that does not fit its frame.
* `payloadFailures`: the second pass collects the payloads that cannot be decoded, in the same
  order. Inside a Failed-AVP only nesting beyond the limit counts.
* `readMessage_verdict`: a framing error wins over every payload error; without one, the first
  payload error decides what a strict dictionary returns.
-/

namespace Diameter

open Lib Datatype Dict

variable {failed : Bool} {b : Bytes} {err : Option AVPError} {s : Snapshot} {app : UInt32}
variable {n : Nat} {f : Frame}

/-! ## The reference -/

/-- Whether the dictionary types the AVP of this frame as Grouped. -/
def Frame.isGrouped (f : Frame) (s : Snapshot) (app : UInt32) : Bool :=
  match s.avp app f.code f.vendorID with
  | some d => d.data.type == .grouped
  | none => false

/-- The AVP of a frame that is not entered: its value, or its payload as it is. -/
def Frame.leafAVP (f : Frame) (s : Snapshot) (app : UInt32) : AVP :=
  let data : Data AVP :=
    match s.avp app f.code f.vendorID with
    | none => .value (.unknown f.body)
    | some d =>
      if d.data.type = .grouped then .value (.unknown f.body)
      else
        match decodeLeaf d f.body with
        | .error _ => .value (.unknown f.body)
        | .ok v => .value v
  ⟨f.code, f.flags, f.length, f.vendorID, data⟩

/-- One level of the first pass. `inner` looks into a frame before its own padding is checked. -/
def walkFaults (s : Snapshot) (app : UInt32) (what : String)
    (inner : Frame → Option LengthError) : Nat → Bytes → Nat → Option LengthError
  | 0, _, _ => none
  | fuel + 1, b, n =>
    if b.isEmpty then none
    else
      match readFrame b with
      | .error (_, text) => some ⟨failedAVPFromWire b app s, text⟩
      | .ok f =>
        match inner f with
        | some e => some e
        | none =>
          if b.length < paddedAVPLength f.length then
            some (advanceError what (f.leafAVP s app) n b.length)
          else walkFaults s app what inner fuel (b.drop (paddedAVPLength f.length))
            (n + paddedAVPLength f.length)

/-- The first framing error inside the members of a frame. -/
def innerFault (s : Snapshot) (app : UInt32) : Nat → Frame → Option LengthError
  | 0, _ => none
  | levels + 1, f =>
    if f.isGrouped s app then
      (walkFaults s app "grouped AVP" (innerFault s app levels) f.body.length f.body 0).map
        fun e => ⟨groupedParent f.code f.flags f.vendorID e.failedAVP, e.text⟩
    else none

/-- The first pass over a message body. -/
def firstFault (s : Snapshot) (app : UInt32) (b : Bytes) : Option LengthError :=
  walkFaults s app "AVP" (innerFault s app s.groupedDepthLimit) b.length b 0

/-- A payload error as it is reported: its code and the AVP at fault, under its ancestors. -/
structure Failure where
  resultCode : UInt32
  failedAVP : AVP

def PayloadError.failure (e : PayloadError) : Failure := ⟨e.resultCode, e.failedAVP⟩

/-- One level of the second pass: the failures of each frame, in order. -/
def walkFailures (failuresOf : Frame → List Failure) : Nat → Bytes → List Failure
  | 0, _ => []
  | fuel + 1, b =>
    if b.isEmpty then []
    else
      match readFrame b with
      | .error _ => []
      | .ok f => failuresOf f ++ walkFailures failuresOf fuel (b.drop (paddedAVPLength f.length))

/-- The failure of a frame that is not entered. -/
def leafFailures (s : Snapshot) (app : UInt32) (failed : Bool) (f : Frame) : List Failure :=
  match s.avp app f.code f.vendorID with
  | none => []
  | some d =>
    if d.data.type = .grouped then
      [(newAVPDecodeError f .grouped true "").failure]
    else
      match decodeLeaf d f.body with
      | .ok _ => []
      | .error _ => if failed then [] else [(newAVPDecodeError f d.data.type false "").failure]

/-- The failures of a frame and of its members. -/
def frameFailures (s : Snapshot) (app : UInt32) : Nat → Bool → Frame → List Failure
  | 0, failed, f => leafFailures s app failed f
  | levels + 1, failed, f =>
    if f.isGrouped s app then
      (walkFailures (frameFailures s app levels (failed || f.isFailedAVP)) f.body.length f.body).map
        fun e => ⟨e.resultCode, groupedParent f.code f.flags f.vendorID e.failedAVP⟩
    else leafFailures s app failed f

/-- The second pass over a message body. -/
def payloadFailures (s : Snapshot) (app : UInt32) (b : Bytes) : List Failure :=
  walkFailures (frameFailures s app s.groupedDepthLimit false) b.length b

/-- What a caller of `ReadMessage` learns about a body. -/
inductive Verdict where
  | framing (e : LengthError)
  | clean
  /-- A strict request: an error with the first failure. -/
  | rejected (f : Failure)
  /-- A strict answer: `DecodeErr` is the error. -/
  | decodeErr
  /-- Without strictness: no error, only `DecodeErr`. -/
  | kept

/-- The verdict of the two passes. -/
def verdict (s : Snapshot) (h : Header) (b : Bytes) : Verdict :=
  match firstFault s h.applicationID b with
  | some e => .framing e
  | none =>
    match payloadFailures s h.applicationID b with
    | [] => .clean
    | f :: _ => if s.strict then (if h.isRequest then .rejected f else .decodeErr) else .kept

/-- The result of `ReadMessage` that a verdict stands for. -/
def Verdict.Describes : Verdict → Option Message × Option ReadError → Prop
  | .framing e, r =>
    ∃ m, r = (some m, some (.message ⟨invalidAVPLength, some e.failedAVP, false, e.text⟩))
  | .clean, r => ∃ m, r = (some m, none) ∧ m.decodeErr = none
  | .rejected f, r => ∃ m e, m.decodeErr = some e ∧
      r = (some m, some (.message ⟨f.resultCode, some f.failedAVP, false, e.text⟩))
  | .decodeErr, r => ∃ m e, m.decodeErr = some e ∧ r = (some m, some (.decode e))
  | .kept, r => ∃ m e, m.decodeErr = some e ∧ r = (some m, none)

/-! ## One frame -/

theorem paddedAVPLength_eq {hl : Nat} (h : hl % 4 = 0) :
    paddedAVPLength (hl + n) = hl + n + pad n := by
  unfold paddedAVPLength pad; omega

theorem paddedAVPLength_of_aligned (h : n % 4 = 0) : paddedAVPLength n = n := by
  unfold paddedAVPLength; omega

theorem RunsLoop.tooDeep {what : String} {tolerant : Bool} {dec : Bytes → AVP × Option AVPError}
    {r : Loop} (h : RunsLoop what tolerant dec b n r) (ht : tolerant = true) :
    ∀ e ∈ r.errs, e.tooDeep = true := by
  have hcounted : ∀ err, ∀ e ∈ countedErrs tolerant err, e.tooDeep = true := by
    intro err e he
    match err with
    | none | some (.length _) => cases he
    | some (.payload p) =>
      simp only [countedErrs] at he
      split at he
      next hc =>
        rw [List.mem_singleton] at he
        subst he
        simpa [PayloadError.counts, ht] using hc
      · cases he
  induction h with
  | nil | length _ _ => intro e he; cases he
  | @broken _ _ _ p _ _ _ => intro e he; exact hcounted (some (.payload p)) e he
  | overrun _ _ _ _ _ => intro e he; exact hcounted _ e he
  | next _ _ _ _ _ _ _ ih =>
    intro e he
    rcases List.mem_append.1 he with he | he
    · exact hcounted _ e he
    · exact ih e he

/-- The two passes agree with a run of the loop: the first pass finds the error it ends with, or
it goes to the end and the second pass starts with its first payload error. -/
def LoopAgrees (fault : Option LengthError) (failures : List Failure) (r : Loop) : Prop :=
  match fault with
  | some e => r.stop = .length e
  | none => r.stop = .done ∧ r.errs.head?.map PayloadError.failure = failures.head?

/-- The two passes agree with the decoding of one frame at the front of `b`. -/
structure FrameAgrees (s : Snapshot) (app : UInt32) (failed : Bool) (b : Bytes) (f : Frame)
    (failures : List Failure) (a : AVP) (err : Option AVPError) : Prop where
  noLength : ∀ e, err ≠ some (.length e)
  head : (countedErrs failed err).head?.map PayloadError.failure = failures.head?
  len : a.len = paddedAVPLength f.length
  overrun : b.length < paddedAVPLength f.length → a = f.leafAVP s app

theorem len_leaf (hf : f.Reads b) {v : Value} (hlen : v.len = f.body.length)
    (hpad : v.padding = pad v.len) :
    AVP.len ⟨f.code, f.flags, f.length, f.vendorID, .value v⟩ = paddedAVPLength f.length := by
  simp only [AVP.len]
  rw [hf.length_eq, paddedAVPLength_eq (headerLen_mod f.flags), hpad, hlen]

theorem leaf_agrees (hf : f.Reads b) {group : Option (Bool → Bytes → Loop)}
    {d : Data AVP} (h : DecodesPayload group s app failed f d err)
    (hleaf : group = none ∨ f.isGrouped s app = false) :
    FrameAgrees s app failed b f (leafFailures s app failed f)
      ⟨f.code, f.flags, f.length, f.vendorID, d⟩ err := by
  have hentered : ∀ {d' : Dict.AVP} {g : Bool → Bytes → Loop},
      s.avp app f.code f.vendorID = some d' → d'.data.type = .grouped → group = some g → False := by
    intro d' g hd hg hgroup
    rcases hleaf with hl | hl
    · rw [hl] at hgroup; cases hgroup
    · simp [Frame.isGrouped, hd, hg] at hl
  cases h with
  | unknown hd =>
    refine ⟨by simp, ?_, len_leaf hf rfl rfl, ?_⟩
    · simp [countedErrs, leafFailures, hd]
    · intro _; simp [Frame.leafAVP, hd]
  | tooDeep hd hg _ =>
    refine ⟨by simp, ?_, len_leaf hf rfl rfl, ?_⟩
    · simp [countedErrs, leafFailures, hd, hg, PayloadError.counts, newAVPDecodeError,
        PayloadError.failure]
    · intro _; simp [Frame.leafAVP, hd, hg]
  | groupLength hd hg hgroup _ | groupErrors hd hg hgroup _ _ | groupOk hd hg hgroup _ _ =>
    exact (hentered hd hg hgroup).elim
  | leafError hd hg hl =>
    refine ⟨by simp, ?_, len_leaf hf rfl rfl, ?_⟩
    · cases failed <;>
        simp [countedErrs, leafFailures, hd, hg, hl, PayloadError.counts, newAVPDecodeError,
          PayloadError.failure]
    · intro _; simp [Frame.leafAVP, hd, hg, hl]
  | leaf hd hg hl =>
    obtain ⟨hdec, hlen⟩ := decodeLeaf_ok hl
    have hpad := Value.padding_eq (by rw [typeID_of_decode hdec]; exact hg)
    refine ⟨by simp, ?_, len_leaf hf hlen hpad, ?_⟩
    · simp [countedErrs, leafFailures, hd, hg, hl]
    · intro _; simp [Frame.leafAVP, hd, hg, hl]

theorem group_agrees (hf : f.Reads b) {r : Loop} {failures : List Failure}
    (hall : ReadAll r.avps f.body) (htol : failed = true → ∀ e ∈ r.errs, e.tooDeep = true)
    (hhead : r.errs.head?.map PayloadError.failure = failures.head?) :
    (r.errs = [] → FrameAgrees s app failed b f
      (failures.map fun e => ⟨e.resultCode, groupedParent f.code f.flags f.vendorID e.failedAVP⟩)
      ⟨f.code, f.flags, f.length, f.vendorID, .group (r.avps.map some)⟩ none) ∧
    (∀ d e es, r.errs = e :: es → FrameAgrees s app failed b f
      (failures.map fun e => ⟨e.resultCode, groupedParent f.code f.flags f.vendorID e.failedAVP⟩)
      ⟨f.code, f.flags, f.length, f.vendorID, .value (.unknown f.body)⟩
      (some (.payload ⟨e.resultCode, groupedParent f.code f.flags f.vendorID e.failedAVP,
        e.tooDeep, groupedText d (e :: es)⟩))) := by
  have hmod : f.length % 4 = 0 := by
    have h1 := headerLen_mod f.flags
    have h2 := hall.aligned
    rw [hf.length_eq]
    omega
  have hpadded := paddedAVPLength_of_aligned hmod
  -- The padded length of an entered frame is its length, so it cannot overrun.
  have hfits : ∀ a : AVP, b.length < paddedAVPLength f.length → a = f.leafAVP s app := by
    intro a hlt
    rw [hpadded] at hlt
    exact absurd hf.length_le (by omega)
  constructor
  · intro hnil
    refine ⟨by simp, ?_, ?_, hfits _⟩
    · rw [hnil] at hhead
      cases failures with
      | nil => rfl
      | cons x xs => simp at hhead
    · simp only [AVP.len]
      rw [hall.len, ← hf.length_eq, hpadded]
  · intro d e es herrs
    refine ⟨by simp, ?_, len_leaf hf rfl rfl, hfits _⟩
    rw [herrs] at hhead htol
    have hcounts : PayloadError.counts failed ⟨e.resultCode,
        groupedParent f.code f.flags f.vendorID e.failedAVP, e.tooDeep,
        groupedText d (e :: es)⟩ = true := by
      cases hfl : failed with
      | false => rfl
      | true => simpa [PayloadError.counts] using htol hfl e List.mem_cons_self
    cases failures with
    | nil => simp at hhead
    | cons x xs =>
      have hx : PayloadError.failure e = x := by simpa using hhead
      subst hx
      simp [countedErrs, hcounts, PayloadError.failure]

/-! ## The loop -/

theorem head?_append_congr {l l' : List PayloadError} {k k' : List Failure}
    (h : l.head?.map PayloadError.failure = k.head?)
    (h' : l'.head?.map PayloadError.failure = k'.head?) :
    (l ++ l').head?.map PayloadError.failure = (k ++ k').head? := by
  cases l with
  | nil =>
    cases k with
    | nil => simpa using h'
    | cons x xs => simp at h
  | cons e es =>
    cases k with
    | nil => simp at h
    | cons x xs => simpa using h

/-- What the passes have to know about the frames of one level. -/
def FramesAgree (s : Snapshot) (app : UInt32) (failed : Bool)
    (dec : Bytes → AVP × Option AVPError) (inner : Frame → Option LengthError)
    (failuresOf : Frame → List Failure) : Prop :=
  ∀ b, match readFrame b with
    | .error (_, text) => ∃ a, dec b = (a, some (.length ⟨failedAVPFromWire b app s, text⟩))
    | .ok f =>
      match inner f with
      | some e => ∃ a, dec b = (a, some (.length e))
      | none => FrameAgrees s app failed b f (failuresOf f) (dec b).1 (dec b).2

section FramesAgree

variable {dec : Bytes → AVP × Option AVPError} {inner : Frame → Option LengthError}
  {failuresOf : Frame → List Failure}

theorem FramesAgree.frame (hframes : FramesAgree s app failed dec inner failuresOf) {a : AVP}
    (hdec : dec b = (a, err)) (hlen : ∀ e, err ≠ some (.length e)) :
    ∃ f, readFrame b = .ok f ∧ inner f = none ∧
      FrameAgrees s app failed b f (failuresOf f) a err := by
  have hb := hframes b
  cases hrf : readFrame b with
  | error p =>
    rw [hrf] at hb
    obtain ⟨a', ha'⟩ := hb
    rw [hdec] at ha'
    cases ha'
    exact absurd rfl (hlen _)
  | ok f =>
    rw [hrf] at hb
    cases hin : inner f with
    | some e =>
      simp only [hin] at hb
      obtain ⟨a', ha'⟩ := hb
      rw [hdec] at ha'
      cases ha'
      exact absurd rfl (hlen _)
    | none =>
      simp only [hin, hdec] at hb
      exact ⟨f, rfl, hin, hb⟩

theorem FramesAgree.fault (hframes : FramesAgree s app failed dec inner failuresOf) (hne : b ≠ [])
    {a : AVP} {e : LengthError} (hdec : dec b = (a, some (.length e))) (what : String)
    (fuel n : Nat) : walkFaults s app what inner (fuel + 1) b n = some e := by
  have hb := hframes b
  rw [walkFaults, if_neg (by simpa using hne)]
  cases hrf : readFrame b with
  | error p =>
    rw [hrf] at hb
    obtain ⟨a', ha'⟩ := hb
    rw [hdec] at ha'
    cases ha'
    rfl
  | ok f =>
    rw [hrf] at hb
    cases hin : inner f with
    | some e' =>
      simp only [hin] at hb ⊢
      obtain ⟨a', ha'⟩ := hb
      rw [hdec] at ha'
      cases ha'
      rfl
    | none =>
      simp only [hin, hdec] at hb
      exact absurd rfl (hb.noLength e)

theorem RunsLoop.agrees (hframes : FramesAgree s app failed dec inner failuresOf)
    (hdata : ∀ b a e, dec b = (a, some (.payload e)) → a.data ≠ .nil) {what : String}
    {r : Loop} (h : RunsLoop what failed dec b n r) :
    ∀ fuel, b.length ≤ fuel → LoopAgrees (walkFaults s app what inner fuel b n)
      (walkFailures failuresOf fuel b) r := by
  induction h with
  | nil =>
    intro fuel _
    cases fuel <;> exact ⟨rfl, rfl⟩
  | length hne hdec =>
    intro fuel hfuel
    obtain ⟨fuel, rfl⟩ : ∃ k, fuel = k + 1 :=
      Nat.exists_eq_succ_of_ne_zero (by have := List.length_pos_iff.2 hne; omega)
    rw [hframes.fault hne hdec]
    rfl
  | broken _ hdec hnil => exact absurd hnil (hdata _ _ _ hdec)
  | @overrun b n a err hne hdec hlen _ hover =>
    intro fuel hfuel
    obtain ⟨fuel, rfl⟩ : ∃ k, fuel = k + 1 :=
      Nat.exists_eq_succ_of_ne_zero (by have := List.length_pos_iff.2 hne; omega)
    obtain ⟨f, hrf, hin, hb⟩ := hframes.frame hdec hlen
    have hpos : 0 < f.length := by
      have h1 := (readFrame_sound hrf).length_eq
      have h2 := headerLen_ge f.flags
      omega
    have hlt : b.length < paddedAVPLength f.length := by
      rcases hover with h0 | hlt
      · rw [hb.len, paddedAVPLength] at h0; omega
      · rw [← hb.len]; exact hlt
    rw [walkFaults, if_neg (by simpa using hne), hrf]
    simp only [hin]
    rw [if_pos hlt, ← hb.overrun hlt]
    rfl
  | @next b n a err r hne hdec hlen _ hpos hle _ ih =>
    intro fuel hfuel
    obtain ⟨fuel, rfl⟩ : ∃ k, fuel = k + 1 :=
      Nat.exists_eq_succ_of_ne_zero (by have := List.length_pos_iff.2 hne; omega)
    obtain ⟨f, hrf, hin, hb⟩ := hframes.frame hdec hlen
    have hrest := ih fuel (by rw [List.length_drop]; omega)
    rw [walkFaults, walkFailures, if_neg (by simpa using hne), if_neg (by simpa using hne), hrf]
    simp only [hin]
    rw [if_neg (by rw [← hb.len]; omega), ← hb.len]
    unfold LoopAgrees at hrest ⊢
    split at hrest
    · exact hrest
    · exact ⟨hrest.1, head?_append_congr hb.head hrest.2⟩

end FramesAgree

/-! ## All levels -/

theorem decodeAVPAt_hasData {levels : Nat} {a : AVP} {e : PayloadError}
    (h : decodeAVPAt s app levels failed b = (a, some (.payload e))) : a.data ≠ .nil :=
  (decodeAVPAt_readFrom s app levels failed b a _ h (by simp)).hasData

/-- A frame that is entered: its members, decoded one level down, agree with the passes over
them. -/
theorem entered_agrees {levels : Nat}
    (ih : ∀ failed, FramesAgree s app failed (decodeAVPAt s app levels failed)
      (innerFault s app levels) (frameFailures s app levels failed))
    (hf : f.Reads b) (hgrp : f.isGrouped s app = true)
    {d : Data AVP}
    (hp : DecodesPayload (groupDecoder s app (levels + 1)) s app failed f d err) :
    match innerFault s app (levels + 1) f with
    | some e => err = some (.length e)
    | none => FrameAgrees s app failed b f (frameFailures s app (levels + 1) failed f)
        ⟨f.code, f.flags, f.length, f.vendorID, d⟩ err := by
  have hrun := decodeLoop_spec "grouped AVP" (failed || f.isFailedAVP)
    (decodeAVPAt s app levels (failed || f.isFailedAVP)) f.body.length f.body 0 (Nat.le_refl _)
  have hagrees := hrun.agrees (ih (failed || f.isFailedAVP))
    (fun _ _ _ h => decodeAVPAt_hasData h) f.body.length (Nat.le_refl _)
  have hread := hrun.readAll (decodeAVPAt_readFrom s app levels _)
  have htol := fun hfl : failed = true => hrun.tooDeep (by rw [hfl]; rfl)
  simp only [innerFault, frameFailures, hgrp, if_true]
  cases hfault : walkFaults s app "grouped AVP" (innerFault s app levels) f.body.length f.body 0 with
  | some e =>
    rw [hfault] at hagrees
    cases hp with
    | groupLength _ _ hg hstop =>
      cases hg
      have heq : LoopEnd.length _ = LoopEnd.length e := hstop.symm.trans hagrees
      cases heq
      rfl
    | groupErrors _ _ hg hstop _ | groupOk _ _ hg hstop _ => cases hg; exact absurd hagrees (hstop e)
    | unknown hd => simp [Frame.isGrouped, hd] at hgrp
    | tooDeep _ _ hg => cases hg
    | leafError hd hg _ | leaf hd hg _ => simp [Frame.isGrouped, hd, hg] at hgrp
  | none =>
    rw [hfault] at hagrees
    obtain ⟨hdone, hhead⟩ := hagrees
    obtain ⟨-, hall⟩ := hread (by rw [hdone]; simp)
    cases hp with
    | groupLength _ _ hg hstop =>
      cases hg
      exact absurd (hdone.symm.trans hstop) (by simp)
    | groupErrors _ _ hg _ herrs =>
      cases hg
      exact (group_agrees hf hall htol hhead).2 _ _ _ herrs
    | groupOk _ _ hg _ herrs =>
      cases hg
      exact (group_agrees hf hall htol hhead).1 herrs
    | unknown hd => simp [Frame.isGrouped, hd] at hgrp
    | tooDeep _ _ hg => cases hg
    | leafError hd hg _ | leaf hd hg _ => simp [Frame.isGrouped, hd, hg] at hgrp

theorem framesAgree (s : Snapshot) (app : UInt32) :
    ∀ (levels : Nat) (failed : Bool), FramesAgree s app failed (decodeAVPAt s app levels failed)
      (innerFault s app levels) (frameFailures s app levels failed) := by
  intro levels
  induction levels with
  | zero =>
    intro failed b
    obtain ⟨a, text, hrf, hdec⟩ | ⟨f, d, err, hrf, hp, hdec⟩ := decodeAVPAt_cases s app 0 failed b
    · rw [hrf]
      exact ⟨a, hdec⟩
    · rw [hrf, hdec]
      exact leaf_agrees (readFrame_sound hrf) hp (.inl rfl)
  | succ levels ih =>
    intro failed b
    obtain ⟨a, text, hrf, hdec⟩ | ⟨f, d, err, hrf, hp, hdec⟩ :=
      decodeAVPAt_cases s app (levels + 1) failed b
    · rw [hrf]
      exact ⟨a, hdec⟩
    rw [hrf, hdec]
    have hf := readFrame_sound hrf
    cases hgrp : f.isGrouped s app with
    | false =>
      have hinner : innerFault s app (levels + 1) f = none := by simp [innerFault, hgrp]
      have hfail : frameFailures s app (levels + 1) failed f = leafFailures s app failed f := by
        simp [frameFailures, hgrp]
      simp only [hinner, hfail]
      exact leaf_agrees hf hp (.inr hgrp)
    | true =>
      have hin := entered_agrees ih hf hgrp hp
      split at hin
      next e he =>
        simp only [he]
        exact ⟨_, by rw [hin]⟩
      next he =>
        simp only [he]
        exact hin

/-! ## The message -/

theorem decodeAVPs_agrees (s : Snapshot) (h : Header) (b : Bytes) :
    LoopAgrees (firstFault s h.applicationID b) (payloadFailures s h.applicationID b)
      (decodeLoop "AVP" false (fun data => decodeAVP data h.applicationID s 0 false)
        b.length b 0) :=
  (decodeLoop_spec "AVP" false _ b.length b 0 (Nat.le_refl _)).agrees
    (framesAgree s h.applicationID s.groupedDepthLimit false)
    (fun _ _ _ h => decodeAVPAt_hasData h) b.length (Nat.le_refl _)

/-- The error `ReadMessage` reports is the one of the two passes, for every message whose command
is unknown to the dictionary or has rules in its direction. -/
theorem readMessage_verdict {hdr body : Bytes} {s : Snapshot} (hhdr : hdr.length = headerLength)
    (hcheck : (headerFields hdr).check = .ok ())
    (hlen : (headerFields hdr).messageLength.toNat = headerLength + body.length)
    (hrules : (headerFields hdr).HasRules s) :
    (verdict s (headerFields hdr) body).Describes (readMessage (hdr ++ body) s) := by
  rw [readMessage_eq hhdr hcheck hlen hrules]
  generalize headerFields hdr = h
  have hagrees := decodeAVPs_agrees s h body
  unfold Message.decodeAVPs verdict
  simp only
  generalize decodeLoop "AVP" false (fun data => decodeAVP data h.applicationID s 0 false)
    body.length body 0 = r at *
  cases hfault : firstFault s h.applicationID body with
  | some e =>
    rw [hfault] at hagrees
    have hstop : r.stop = .length e := hagrees
    simp only [hstop]
    exact ⟨_, rfl⟩
  | none =>
    rw [hfault] at hagrees
    obtain ⟨hdone, hhead⟩ := hagrees
    cases herrs : r.errs with
    | nil =>
      rw [herrs] at hhead
      cases hfs : payloadFailures s h.applicationID body with
      | cons f fs => rw [hfs] at hhead; simp at hhead
      | nil =>
        simp only [hdone]
        refine ⟨_, congrArg (Prod.mk _) ?_, rfl⟩
        simp [Message.strictResult]
    | cons e es =>
      rw [herrs] at hhead
      cases hfs : payloadFailures s h.applicationID body with
      | nil => rw [hfs] at hhead; simp at hhead
      | cons f fs =>
        rw [hfs] at hhead
        obtain rfl : e.failure = f := by simpa using hhead
        simp only [hdone]
        -- The three ways out of `ReadMessage` with payload errors.
        cases hstrict : s.strict with
        | false =>
          refine ⟨_, ⟨e :: es⟩, ?_, congrArg (Prod.mk _) ?_⟩
          · rfl
          · simp [Message.strictResult, hstrict]
        | true =>
          cases hreq : h.isRequest with
          | false =>
            refine ⟨_, ⟨e :: es⟩, ?_, congrArg (Prod.mk _) ?_⟩
            · rfl
            · simp [Message.strictResult, hstrict, hreq]
          | true =>
            refine ⟨_, ⟨e :: es⟩, ?_, congrArg (Prod.mk _) ?_⟩
            · rfl
            · simp [Message.strictResult, hstrict, hreq, PayloadError.failure]

/-- A strict dictionary with one Unsigned32 AVP. -/
def counterSnapshot : Snapshot where
  avpcode := AList.insert ⟨0, 1000, 0⟩
    { name := "Counter", code := 1000, data := { type := .unsigned32, typeName := "Unsigned32" } } ∅

def requestHeader : Bytes :=
  [1, 0, 0, 40, 0x80, 0, 1, 0x10, 0, 0, 0, 0, 0, 0, 0, 1, 0, 0, 0, 2]

/-- A counter of one octet, which cannot be decoded, and then an AVP longer than the message. -/
def brokenBody : Bytes :=
  [0, 0, 0x03, 0xe8, 0, 0, 0, 9, 7, 0, 0, 0, 0, 0, 0x07, 0xd0, 0, 0, 0, 60]

/-- The framing error wins although the payload error comes first. -/
theorem readMessage_verdict_brokenBody :
    (payloadFailures counterSnapshot 0 brokenBody).length = 1 ∧
    ∃ e, verdict counterSnapshot (headerFields requestHeader) brokenBody = .framing e ∧
      (Verdict.framing e).Describes (readMessage (requestHeader ++ brokenBody) counterSnapshot) := by
  obtain ⟨e, he⟩ : ∃ e, firstFault counterSnapshot 0 brokenBody = some e :=
    Option.isSome_iff_exists.1 (by decide)
  have hv : verdict counterSnapshot (headerFields requestHeader) brokenBody = .framing e := by
    rw [verdict, show (headerFields requestHeader).applicationID = 0 from rfl, he]
  refine ⟨by decide, e, hv, ?_⟩
  rw [← hv]
  exact readMessage_verdict (by decide) rfl (by decide) (fun _ h => by cases h)

/-- A dictionary in which a command is declared without rules. -/
def noRulesSnapshot : Snapshot where
  command := AList.insert ⟨0, 272⟩ { code := 272, name := "Credit-Control" } ∅

/-- `readBody` rejects a message whose command has no rules before it looks at the AVPs, here at
none, so both passes find nothing wrong. -/
theorem not_readMessage_verdict :
    ¬ ∀ (hdr body : Bytes) (s : Snapshot), hdr.length = headerLength →
      (headerFields hdr).check = .ok () →
      (headerFields hdr).messageLength.toNat = headerLength + body.length →
      (verdict s (headerFields hdr) body).Describes (readMessage (hdr ++ body) s) := by
  intro h
  obtain ⟨m, hm, -⟩ := h [1, 0, 0, 20, 0x80, 0, 1, 0x10, 0, 0, 0, 0, 0, 0, 0, 1, 0, 0, 0, 2] []
    noRulesSnapshot rfl rfl rfl
  cases hm

end Diameter
