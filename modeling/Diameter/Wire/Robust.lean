import Diameter.Wire.Precedence

/-!
# Wire.Robust

The AVP decoder cannot break down on any input.

The functions here are those of `Wire.Decode` once more, this time with everything written out that
could go wrong in the source: every slice expression and index is checked, offsets are signed, a
loop gets one iteration for each eight octets and has to advance by eight, `decodeAVP` counts its
nesting upwards and has a stack of one frame for each level the dictionary allows, and the branches
for an AVP without data are traps. `decodeAVPs_robust` says that none of the traps is ever sprung,
and that the result is that of `Wire.Decode`.
-/

namespace Diameter

open Lib Datatype Dict

/-- How a run of the decoder could break down. -/
inductive Trap where
  /-- A slice expression or an index is out of range. -/
  | index
  /-- A loop advances by less than an AVP header, or goes round too often. -/
  | stalled
  /-- A payload error left an AVP without data. -/
  | nilData
  /-- `decodeAVP` is called below the nesting limit. -/
  | depth
  /-- The call stack is used up. -/
  | stack
deriving DecidableEq, Repr

/-! ## Slices -/

/-- `b[lo:hi]`. -/
def slice (b : Bytes) (lo hi : Int) : Except Trap Bytes :=
  if 0 ≤ lo ∧ lo ≤ hi ∧ hi ≤ b.length then .ok ((b.take hi.toNat).drop lo.toNat)
  else .error .index

/-- `b[i]`. -/
def octet (b : Bytes) (i : Nat) : Except Trap UInt8 :=
  match b[i]? with
  | some x => .ok x
  | none => .error .index

theorem slice_eq {b : Bytes} {lo hi : Nat} (h : lo ≤ hi) (h' : hi ≤ b.length) :
    slice b lo hi = .ok ((b.take hi).drop lo) := by
  unfold slice
  rw [if_pos (by omega), Int.toNat_natCast, Int.toNat_natCast]

theorem slice_to_end {b : Bytes} {lo : Nat} (h : lo ≤ b.length) :
    slice b lo b.length = .ok (b.drop lo) := by
  rw [slice_eq h (Nat.le_refl _), List.take_length]

theorem slice_from_start {b : Bytes} {hi : Nat} (h : hi ≤ b.length) :
    slice b 0 hi = .ok (b.take hi) := slice_eq (Nat.zero_le hi) h

theorem octet_eq {b : Bytes} {i : Nat} (h : i < b.length) :
    octet b i = .ok ((b.drop i).headD 0) := by
  unfold octet
  rw [List.getElem?_eq_getElem h, List.drop_eq_getElem_cons h]
  rfl

/-! ## One frame -/

/-- The payload that the AVP length delimits. -/
def checkedBody (code : UInt32) (flags : UInt8) (length : Nat) (vendorID : UInt32)
    (payload : Bytes) (hdrLength : Nat) : Except Trap (Except (AVP × String) Frame) :=
  let bodyLen : Int := length - hdrLength
  if (payload.length : Int) < bodyLen then
    .ok (.error (⟨code, flags, length, vendorID, .nil⟩,
      tooShort dataTooShort payload.length bodyLen.toNat))
  else do
    let body ← slice payload 0 bodyLen
    .ok (.ok ⟨code, flags, length, vendorID, body⟩)

/-- The framing part of `decodeFromBytes`. -/
def checkedFrame (data : Bytes) : Except Trap (Except (AVP × String) Frame) :=
  if data.length < 8 then
    .ok (.error (⟨0, 0, 0, 0, .nil⟩, tooShort headerTooShort data.length 8))
  else do
    let codeField ← slice data 0 4
    let flags ← octet data 4
    let lengthField ← slice data 5 8
    let code := UInt32.ofNat (ofBigEndian codeField)
    let length := ofBigEndian lengthField
    if data.length < length then
      .ok (.error (⟨code, flags, length, 0, .nil⟩, tooShort dataTooShort data.length length))
    else do
      let cut ← slice data 0 length
      if cut.length < 8 then
        .ok (.error (⟨code, flags, length, 0, .nil⟩, tooShort headerTooShort cut.length 8))
      else if hasVendor flags then
        if length < 12 then
          .ok (.error (⟨code, flags, length, 0, .nil⟩, tooShort vendorTooShort length 12))
        else do
          let vendorField ← slice cut 8 12
          let payload ← slice cut 12 cut.length
          checkedBody code flags length (UInt32.ofNat (ofBigEndian vendorField)) payload 12
      else do
        let payload ← slice cut 8 cut.length
        checkedBody code flags length 0 payload 8

theorem checkedBody_eq {code : UInt32} {flags : UInt8} {length : Nat} {vendorID : UInt32}
    {payload : Bytes} {hdrLength : Nat} (h : hdrLength ≤ length) :
    checkedBody code flags length vendorID payload hdrLength =
      .ok (if payload.length < length - hdrLength then
          .error (⟨code, flags, length, vendorID, .nil⟩,
            tooShort dataTooShort payload.length (length - hdrLength))
        else .ok ⟨code, flags, length, vendorID, payload.take (length - hdrLength)⟩) := by
  have hlen : (length : Int) - hdrLength = ((length - hdrLength : Nat) : Int) := by omega
  unfold checkedBody
  rw [hlen]
  dsimp only
  rw [Int.toNat_natCast]
  split
  next hlt => rw [if_pos (Int.ofNat_lt.1 hlt)]
  rename_i hlt
  have hle : length - hdrLength ≤ payload.length := by omega
  rw [if_neg (by omega), slice_from_start hle]
  rfl

theorem checkedFrame_eq (data : Bytes) : checkedFrame data = .ok (readFrame data) := by
  unfold checkedFrame readFrame
  split
  · rfl
  rename_i h8
  have hcode : slice data 0 4 = .ok (data.take 4) :=
    slice_from_start (by omega : 4 ≤ data.length)
  have hlengthField : slice data 5 8 = .ok ((data.drop 5).take 3) := by
    have h := slice_eq (b := data) (by omega : 5 ≤ 8) (by omega)
    rwa [List.drop_take] at h
  simp only [bind, Except.bind, hcode, octet_eq (b := data) (by omega : 4 < data.length),
    hlengthField]
  generalize (data.drop 4).headD 0 = flags
  generalize ofBigEndian ((data.drop 5).take 3) = length
  split
  · rfl
  rename_i hlength
  rw [slice_from_start (by omega)]
  dsimp only
  generalize hcut : data.take length = cut
  have hcutlen : cut.length = length := by
    rw [← hcut, List.length_take]
    omega
  split
  · rfl
  rename_i hcut8
  by_cases hv : hasVendor flags = true
  · rw [if_pos hv]
    by_cases h12 : length < 12
    · rw [if_pos h12, if_pos ⟨hv, h12⟩]
    have hvendor : slice cut 8 12 = .ok ((cut.drop 8).take 4) := by
      have h := slice_eq (b := cut) (by omega : 8 ≤ 12) (by omega)
      rwa [List.drop_take] at h
    have hpayload : slice cut 12 cut.length = .ok (cut.drop 12) :=
      slice_to_end (by omega : 12 ≤ cut.length)
    rw [if_neg h12, if_neg (fun h => h12 h.2), hvendor, hpayload]
    dsimp only
    rw [checkedBody_eq (by omega)]
    simp only [hv, headerLen, if_true]
  · have hpayload : slice cut 8 cut.length = .ok (cut.drop 8) :=
      slice_to_end (by omega : 8 ≤ cut.length)
    rw [if_neg hv, if_neg (fun h => hv h.1), hpayload]
    dsimp only
    rw [checkedBody_eq (by omega)]
    simp only [hv, headerLen, if_false, Bool.false_eq_true]

/-! ## Values -/

/-- `datatype.Decode`: a fixed-size format reads its last octet, if it reads any. -/
def checkedDecode (t : TypeID) (b : Bytes) : Except Trap (Except String Value) :=
  let word (w : Nat) : Except Trap (Except String Value) :=
    if b.length ≠ w then .ok (decode t b)
    else do
      let _ ← octet b (w - 1)
      .ok (decode t b)
  match t with
  | .address =>
    if b.length < 2 then .ok (decode t b)
    else do
      let _ ← slice b 0 2
      let _ ← slice b 2 b.length
      .ok (decode t b)
  | .time =>
    if b.length ≠ 4 then .ok (decode t b)
    else do
      let _ ← octet b 0
      let _ ← octet b 3
      .ok (decode t b)
  | .enumerated | .float32 | .integer32 | .unsigned32 => word 4
  | .float64 | .integer64 | .unsigned64 => word 8
  | _ => .ok (decode t b)

theorem checkedDecode_eq (t : TypeID) (b : Bytes) : checkedDecode t b = .ok (decode t b) := by
  have hword : ∀ w, 0 < w → (if b.length ≠ w then Except.ok (decode t b)
      else do
        let _ ← octet b (w - 1)
        Except.ok (decode t b)) = (.ok (decode t b) : Except Trap _) := by
    intro w hw
    split
    · rfl
    rename_i hlen
    rw [octet_eq (by omega)]
    rfl
  unfold checkedDecode
  dsimp only
  split
  · split
    · rfl
    · have hfamily : slice b 0 2 = .ok (b.take 2) := slice_from_start (by omega : 2 ≤ b.length)
      have hvalue : slice b 2 b.length = .ok (b.drop 2) := slice_to_end (by omega : 2 ≤ b.length)
      rw [hfamily, hvalue]
      rfl
  · split
    · rfl
    next hlen =>
      rw [octet_eq (by omega : 0 < b.length), octet_eq (by omega : 3 < b.length)]
      rfl
  all_goals first | exact hword 4 (by decide) | exact hword 8 (by decide) | rfl

def checkedLeaf (d : Dict.AVP) (body : Bytes) : Except Trap (Except String Value) := do
  match ← checkedDecode d.data.type body with
  | .error e => .ok (.error e)
  | .ok v =>
    if v.len ≠ body.length then
      .ok (.error ("size mismatch: " ++ d.data.typeName ++ " expects " ++ toString v.len ++
        " bytes, wire has " ++ toString body.length))
    else .ok (.ok v)

theorem checkedLeaf_eq (d : Dict.AVP) (body : Bytes) :
    checkedLeaf d body = .ok (decodeLeaf d body) := by
  unfold checkedLeaf decodeLeaf
  rw [checkedDecode_eq]
  simp only [bind, Except.bind]
  cases decode d.data.type body with
  | error e => rfl
  | ok v =>
    dsimp only
    split <;> rfl

/-! ## The loop -/

theorem AVP.len_ge (a : AVP) : 8 ≤ a.len := by
  obtain ⟨code, flags, length, vendorID, data⟩ := a
  have hge := headerLen_ge flags
  match data with
  | .nil =>
    simp only [AVP.len, paddedAVPLength]
    omega
  | .addressPtr none | .addressPtr (some _) | .nilGroup | .value _ | .group _ =>
    simp only [AVP.len]
    omega

/-- `errors.As` for an `avpLengthError`. -/
def lengthError? : Option AVPError → Option LengthError
  | some (.length e) => some e
  | _ => none

/-- An error, and no data. -/
def lacksData : Option AVPError → Data AVP → Bool
  | some _, .nil => true
  | _, _ => false

/-- The loop of `decodeGroupedFromBytes` and of `decodeAVPs` over `b`, from offset `n`. -/
def checkedLoop (what : String) (tolerant : Bool)
    (dec : Bytes → Except Trap (AVP × Option AVPError)) (b : Bytes) : Nat → Nat → Except Trap Loop
  | rounds, n =>
    if b.length ≤ n then .ok ⟨[], [], .done⟩
    else
      match rounds with
      | 0 => .error .stalled
      | rounds + 1 => do
        let data ← slice b n b.length
        let (a, err) ← dec data
        match lengthError? err with
        | some e => .ok ⟨[], [], .length e⟩
        | none =>
          if lacksData err a.data then .error .nilData
          else if (a.len : Int) ≤ 0 ∨ (a.len : Int) > b.length - n then
            .ok ⟨[], countedErrs tolerant err, .length (advanceError what a n (b.length - n))⟩
          else if a.len < 8 then .error .stalled
          else do
            let rest ← checkedLoop what tolerant dec b rounds (n + a.len)
            .ok ⟨a :: rest.avps, countedErrs tolerant err ++ rest.errs, rest.stop⟩

theorem RunsLoop.checked {what : String} {tolerant : Bool} {dec : Bytes → AVP × Option AVPError}
    {dec' : Bytes → Except Trap (AVP × Option AVPError)} (hdec' : ∀ b, dec' b = .ok (dec b))
    (hdata : ∀ b a e, dec b = (a, some (.payload e)) → a.data ≠ .nil) {data : Bytes} {n : Nat}
    {r : Loop} (h : RunsLoop what tolerant dec data n r) :
    ∀ (b : Bytes) (rounds : Nat), n ≤ b.length → b.drop n = data → data.length / 8 < rounds →
      checkedLoop what tolerant dec' b rounds n = .ok r := by
  -- One round, up to the result of the decoder.
  have round : ∀ {b data : Bytes} {n rounds : Nat}, n ≤ b.length → b.drop n = data → data ≠ [] →
      data.length / 8 < rounds → ∃ k, rounds = k + 1 ∧ data.length = b.length - n ∧
        ¬ b.length ≤ n ∧ slice b n b.length = .ok data := by
    intro b data n rounds hn hdrop hne hrounds
    have hlen : data.length = b.length - n := by rw [← hdrop, List.length_drop]
    have hpos := List.length_pos_iff.2 hne
    refine ⟨rounds - 1, by omega, hlen, by omega, ?_⟩
    rw [slice_to_end hn, hdrop]
  have hresult : ∀ {a : AVP} {err : Option AVPError}, (∀ e, err ≠ some (.length e)) →
      (∀ e, err = some (.payload e) → a.data ≠ .nil) →
      lengthError? err = none ∧ lacksData err a.data = false := by
    intro a err hnolen hhas
    cases err with
    | none => exact ⟨rfl, rfl⟩
    | some x =>
      cases x with
      | length e => exact absurd rfl (hnolen e)
      | payload e =>
        refine ⟨rfl, ?_⟩
        have hne := hhas e rfl
        cases hd : a.data with
        | nil => exact absurd hd hne
        | value | addressPtr | nilGroup | group => rfl
  induction h with
  | nil =>
    intro b rounds hn hdrop _
    have hle : b.length ≤ _ := List.drop_eq_nil_iff.1 hdrop
    unfold checkedLoop
    rw [if_pos hle]
  | length hne hdec =>
    intro b rounds hn hdrop hrounds
    obtain ⟨k, rfl, hlen, hgo, hslice⟩ := round hn hdrop hne hrounds
    rw [checkedLoop, if_neg hgo, hslice]
    simp only [bind, Except.bind, hdec', hdec, lengthError?]
  | broken _ hdec hnil => exact absurd hnil (hdata _ _ _ hdec)
  | @overrun data n a err hne hdec hnolen hhas hover =>
    intro b rounds hn hdrop hrounds
    obtain ⟨k, rfl, hlen, hgo, hslice⟩ := round hn hdrop hne hrounds
    have hstop : (a.len : Int) ≤ 0 ∨ (a.len : Int) > b.length - n := by omega
    rw [checkedLoop, if_neg hgo, hslice]
    simp only [bind, Except.bind, hdec', hdec, hresult hnolen hhas, Bool.false_eq_true, if_false]
    rw [if_pos hstop, hlen]
  | @next data n a err r hne hdec hnolen hhas hpos hle _ ih =>
    intro b rounds hn hdrop hrounds
    obtain ⟨k, rfl, hlen, hgo, hslice⟩ := round hn hdrop hne hrounds
    have h8 := a.len_ge
    have hon : ¬ ((a.len : Int) ≤ 0 ∨ (a.len : Int) > b.length - n) := by omega
    have hrest : checkedLoop what tolerant dec' b k (n + a.len) = .ok r := by
      refine ih b k (by omega) (by rw [← hdrop, List.drop_drop]) ?_
      rw [List.length_drop]
      omega
    rw [checkedLoop, if_neg hgo, hslice]
    simp only [bind, Except.bind, hdec', hdec, hresult hnolen hhas, Bool.false_eq_true, if_false]
    rw [if_neg hon, if_neg (by omega), hrest]

/-! ## One AVP -/

/-- The payload part of `decodeFromBytes` for an AVP enclosed by `depth` Grouped AVPs. -/
def checkedPayload (group : Bool → Bytes → Except Trap Loop) (s : Snapshot) (app : UInt32)
    (depth : Nat) (failed : Bool) (f : Frame) : Except Trap (Data AVP × Option AVPError) :=
  let fallback : Data AVP := .value (.unknown f.body)
  match s.avp app f.code f.vendorID with
  | none => .ok (.value (.unknown f.body), none)
  | some d =>
    if d.data.type = .grouped then
      if depth ≥ s.groupedDepthLimit then
        .ok (fallback, some (.payload (newAVPDecodeError f d.data.type true
          (definitionText d "grouped AVP nesting exceeds limit"))))
      else do
        let r ← group (failed || f.isFailedAVP) f.body
        match r.stop, r.errs with
        | .length e, _ =>
          .ok (fallback,
            some (.length ⟨groupedParent f.code f.flags f.vendorID e.failedAVP, e.text⟩))
        | _, e :: es => .ok (fallback, some (.payload ⟨e.resultCode,
            groupedParent f.code f.flags f.vendorID e.failedAVP, e.tooDeep,
            groupedText d (e :: es)⟩))
        | _, [] => .ok (.group (r.avps.map some), none)
    else do
      match ← checkedLeaf d f.body with
      | .error e =>
        .ok (fallback, some (.payload (newAVPDecodeError f d.data.type false (definitionText d e))))
      | .ok v => .ok (.value v, none)

/-- `decodeAVP` with this much of the call stack left. -/
def checkedAVP (s : Snapshot) (app : UInt32) : Nat → Nat → Bool → Bytes →
    Except Trap (AVP × Option AVPError)
  | 0, _, _, _ => .error .stack
  | stack + 1, depth, failed, data =>
    if s.groupedDepthLimit < depth then .error .depth
    else do
      match ← checkedFrame data with
      | .error (a, text) => .ok (a, some (.length ⟨failedAVPFromWire data app s, text⟩))
      | .ok f =>
        let r ← checkedPayload (fun failed b => checkedLoop "grouped AVP" failed
          (checkedAVP s app stack (depth + 1) failed) b (b.length / 8 + 1) 0) s app depth failed f
        .ok (⟨f.code, f.flags, f.length, f.vendorID, r.1⟩, r.2)

/-- `decodeAVPs`, up to the message it fills. -/
def checkedAVPs (b : Bytes) (app : UInt32) (s : Snapshot) : Except Trap Loop :=
  checkedLoop "AVP" false (checkedAVP s app (s.groupedDepthLimit + 1) 0 false) b
    (b.length / 8 + 1) 0

theorem checkedLoop_eq {what : String} {tolerant : Bool} {s : Snapshot} {app : UInt32}
    {levels : Nat} {failed : Bool} {dec' : Bytes → Except Trap (AVP × Option AVPError)}
    (hdec' : ∀ b, dec' b = .ok (decodeAVPAt s app levels failed b)) (b : Bytes) :
    checkedLoop what tolerant dec' b (b.length / 8 + 1) 0 =
      .ok (decodeLoop what tolerant (decodeAVPAt s app levels failed) b.length b 0) :=
  (decodeLoop_spec what tolerant _ b.length b 0 (Nat.le_refl _)).checked hdec'
    (fun _ _ _ h => decodeAVPAt_hasData h) b _ (Nat.zero_le _) rfl (Nat.lt_succ_self _)

theorem checkedPayload_eq {group : Bool → Bytes → Except Trap Loop} {s : Snapshot} {app : UInt32}
    {depth : Nat} {g : Option (Bool → Bytes → Loop)}
    (hlimit : s.groupedDepthLimit ≤ depth → g = none)
    (hgroup : ¬ s.groupedDepthLimit ≤ depth → ∃ g', g = some g' ∧
      ∀ failed b, group failed b = .ok (g' failed b)) (failed : Bool) (f : Frame) :
    checkedPayload group s app depth failed f = .ok (decodePayload g s app failed f) := by
  unfold checkedPayload decodePayload
  cases s.avp app f.code f.vendorID with
  | none => rfl
  | some d =>
    dsimp only
    split
    · by_cases hdepth : s.groupedDepthLimit ≤ depth
      · rw [if_pos hdepth, hlimit hdepth]
      · obtain ⟨g', rfl, hg'⟩ := hgroup hdepth
        rw [if_neg hdepth, hg']
        simp only [bind, Except.bind]
        generalize g' (failed || f.isFailedAVP) f.body = r
        obtain ⟨avps, errs, stop⟩ := r
        cases stop <;> cases errs <;> rfl
    · rw [checkedLeaf_eq]
      simp only [bind, Except.bind]
      cases decodeLeaf d f.body <;> rfl

theorem checkedAVP_eq (s : Snapshot) (app : UInt32) :
    ∀ (levels stack depth : Nat), depth + levels = s.groupedDepthLimit → levels < stack →
      ∀ (failed : Bool) (data : Bytes), checkedAVP s app stack depth failed data =
        .ok (decodeAVPAt s app levels failed data) := by
  intro levels
  induction levels with
  | zero =>
    intro stack depth hdepth hstack failed data
    obtain ⟨stack, rfl⟩ := Nat.exists_eq_succ_of_ne_zero (by omega : stack ≠ 0)
    rw [checkedAVP, if_neg (by omega), checkedFrame_eq, decodeAVPAt_eq]
    unfold decodeAVPWith
    simp only [bind, Except.bind]
    cases readFrame data with
    | error p => rfl
    | ok f =>
      dsimp only
      rw [checkedPayload_eq (g := groupDecoder s app 0) (fun _ => rfl) fun h => (h (by omega)).elim]
  | succ levels ih =>
    intro stack depth hdepth hstack failed data
    obtain ⟨stack, rfl⟩ := Nat.exists_eq_succ_of_ne_zero (by omega : stack ≠ 0)
    have hmembers : ∀ failed b, checkedLoop "grouped AVP" failed
        (checkedAVP s app stack (depth + 1) failed) b (b.length / 8 + 1) 0 =
        .ok (decodeLoop "grouped AVP" failed (decodeAVPAt s app levels failed) b.length b 0) :=
      fun failed b => checkedLoop_eq (ih stack (depth + 1) (by omega) (by omega) failed) b
    rw [checkedAVP, if_neg (by omega), checkedFrame_eq, decodeAVPAt_eq]
    unfold decodeAVPWith
    simp only [bind, Except.bind]
    cases readFrame data with
    | error p => rfl
    | ok f =>
      dsimp only
      rw [checkedPayload_eq (g := groupDecoder s app (levels + 1)) (fun h => by omega)
        fun _ => ⟨_, rfl, hmembers⟩]

/-- For every snapshot and every body: no index is out of range, every round of a loop advances by
an AVP header at least and stays in its slice, the nesting stays within the limit, no AVP is left
without data, and the result is that of `decodeAVPs`. -/
theorem decodeAVPs_robust (s : Snapshot) (app : UInt32) (b : Bytes) :
    checkedAVPs b app s = .ok (decodeLoop "AVP" false
      (fun data => decodeAVP data app s 0 false) b.length b 0) :=
  checkedLoop_eq (checkedAVP_eq s app s.groupedDepthLimit _ 0 (Nat.zero_add _)
    (Nat.lt_succ_self _) false) b

end Diameter
