import Diameter.Wire.Decode

/-!
# Wire.DecodeSpec

What the parts of the decoder do, one lemma each; later modules use these and do not unfold the
decoder.

* `readFrame_sound`, `readFrame_complete`: an accepted frame is the header's encoding followed by
  the body, and such octets are accepted.
* `DecodesPayload`, `decodePayload_spec`: everything that can happen to a payload.
* `RunsLoop`, `decodeLoop_spec`: what the loop does, iteration by iteration. A property of every
  run of the loop is proved by induction on `RunsLoop`; `RunsLoop.unique` computes a run.
-/

namespace Diameter

open Lib Datatype Dict

variable {data : Bytes}
variable {dec : Bytes → AVP × Option AVPError}

/-! ## Frames -/

theorem exists_eight (h : ¬ data.length < 8) :
    ∃ b0 b1 b2 b3 b4 b5 b6 b7 rest, data = b0 :: b1 :: b2 :: b3 :: b4 :: b5 :: b6 :: b7 :: rest := by
  match data, h with
  | b0 :: b1 :: b2 :: b3 :: b4 :: b5 :: b6 :: b7 :: rest, _ =>
    exact ⟨b0, b1, b2, b3, b4, b5, b6, b7, rest, rfl⟩
  | [], h | [_], h | [_, _], h | [_, _, _], h | [_, _, _, _], h | [_, _, _, _, _], h
  | [_, _, _, _, _, _], h | [_, _, _, _, _, _, _], h => simp at h

theorem exists_four (h : 4 ≤ data.length) :
    ∃ b0 b1 b2 b3 rest, data = b0 :: b1 :: b2 :: b3 :: rest := by
  match data, h with
  | b0 :: b1 :: b2 :: b3 :: rest, _ => exact ⟨b0, b1, b2, b3, rest, rfl⟩
  | [], h | [_], h | [_, _], h | [_, _, _], h => simp at h

/-- What an accepted frame says about the octets it was read from. -/
structure Frame.Reads (f : Frame) (data : Bytes) : Prop where
  length_eq : f.length = headerLen f.flags + f.body.length
  length_le : f.length ≤ data.length
  length_lt : f.length < 16777216
  vendor : hasVendor f.flags = false → f.vendorID = 0
  octets : data.take f.length = headerBytes f.code f.flags f.vendorID f.body.length ++ f.body

theorem readFrame_sound {f : Frame} (h : readFrame data = .ok f) : f.Reads data := by
  unfold readFrame at h
  split at h
  · cases h
  rename_i h8
  obtain ⟨b0, b1, b2, b3, b4, b5, b6, b7, rest, rfl⟩ := exists_eight h8
  have hl24 : ofBigEndian [b5, b6, b7] < 16777216 := by simpa using ofBigEndian_lt [b5, b6, b7]
  have hlen3 : bigEndian 3 (ofBigEndian [b5, b6, b7]) = [b5, b6, b7] :=
    bigEndian_of_length rfl
  have hcode := bigEndian_word32 (b := [b0, b1, b2, b3]) rfl
  simp only [List.drop_succ_cons, List.drop_zero, List.take_succ_cons, List.take_zero,
    List.headD_cons, List.length_take] at h
  generalize ofBigEndian [b5, b6, b7] = length at *
  split at h
  · cases h
  rename_i hle
  split at h
  · cases h
  rename_i hge
  split at h
  · cases h
  rename_i hv
  have hlenge : 8 ≤ length := by omega
  obtain ⟨k, rfl⟩ : ∃ k, length = k + 8 := ⟨length - 8, by omega⟩
  simp only [List.take_succ_cons, List.drop_succ_cons, List.drop_zero] at h
  split at h
  · cases h
  cases h
  cases hflag : hasVendor b4 with
  | false =>
    have hk : (rest.take k).length = k := by simp at hle ⊢; omega
    constructor
    · simp [headerLen, hflag]; simp at hle; omega
    · simpa using hle
    · exact hl24
    · intro _; simp
    simp [headerLen, hflag, headerBytes, hcode]
    simp at hle
    simp [show min k rest.length = k by omega, Nat.add_comm 8 k, hlen3, List.take_take]
  | true =>
    have h12 : 4 ≤ k := by simp [hflag] at hv; omega
    obtain ⟨j, rfl⟩ : ∃ j, k = j + 4 := ⟨k - 4, by omega⟩
    have hrest : 4 ≤ rest.length := by simp at hle; omega
    obtain ⟨c0, c1, c2, c3, rest, rfl⟩ := exists_four hrest
    have hvend := bigEndian_word32 (b := [c0, c1, c2, c3]) rfl
    constructor
    · simp [headerLen, hflag]; simp at hle; omega
    · simpa using hle
    · exact hl24
    · intro hf; simp [hflag] at hf
    simp [headerLen, hflag, headerBytes, hcode]
    simp at hle
    simp [show min j rest.length = j by omega, show 12 + j = j + 4 + 8 by omega, hlen3, hvend,
      List.take_take]

theorem header_fields (code : UInt32) (flags : UInt8) (n : Nat) (tail : Bytes)
    (hn : n < 16777216) :
    let data := bigEndian 4 code.toNat ++ flags :: (bigEndian 3 n ++ tail)
    UInt32.ofNat (ofBigEndian (data.take 4)) = code ∧ (data.drop 4).headD 0 = flags ∧
      ofBigEndian ((data.drop 5).take 3) = n ∧ data.drop 8 = tail := by
  have h4 := length_bigEndian 4 code.toNat
  have h3 := length_bigEndian 3 n
  have hd4 : (bigEndian 4 code.toNat ++ flags :: (bigEndian 3 n ++ tail)).drop 4
      = flags :: (bigEndian 3 n ++ tail) := drop_append_of_length h4
  have hd5 : (bigEndian 4 code.toNat ++ flags :: (bigEndian 3 n ++ tail)).drop 5
      = bigEndian 3 n ++ tail := by
    rw [show 5 = 4 + 1 by rfl, ← List.drop_drop, hd4]; rfl
  have hd8 : (bigEndian 4 code.toNat ++ flags :: (bigEndian 3 n ++ tail)).drop 8 = tail := by
    rw [show 8 = 5 + 3 by rfl, ← List.drop_drop, hd5, drop_append_of_length h3]
  refine ⟨?_, by rw [hd4]; rfl, ?_, hd8⟩
  · rw [take_append_of_length h4, uint32_ofBigEndian_bigEndian]
  · rw [hd5, take_append_of_length h3, ofBigEndian_bigEndian]
    exact Nat.mod_eq_of_lt hn

theorem readFrame_complete {code : UInt32} {flags : UInt8} {vendorID : UInt32} {body : Bytes}
    (hlt : headerLen flags + body.length < 16777216)
    (hv : hasVendor flags = false → vendorID = 0) (rest : Bytes) :
    readFrame (headerBytes code flags vendorID body.length ++ body ++ rest) =
      .ok ⟨code, flags, headerLen flags + body.length, vendorID, body⟩ := by
  have hge := headerLen_ge flags
  have hhl := length_headerBytes code flags vendorID body.length
  have hfront : (headerBytes code flags vendorID body.length ++ body).length
      = headerLen flags + body.length := by rw [List.length_append, hhl]
  have hlen : (headerBytes code flags vendorID body.length ++ body ++ rest).length
      = headerLen flags + body.length + rest.length := by rw [List.length_append, hfront]
  obtain ⟨hcode, hflags, hlength, -⟩ := header_fields code flags (headerLen flags + body.length)
    ((if hasVendor flags then bigEndian 4 vendorID.toNat else []) ++ body ++ rest) hlt
  have hdata : headerBytes code flags vendorID body.length ++ body ++ rest =
      bigEndian 4 code.toNat ++ flags :: (bigEndian 3 (headerLen flags + body.length) ++
        ((if hasVendor flags then bigEndian 4 vendorID.toNat else []) ++ body ++ rest)) := by
    simp [headerBytes]
  rw [← hdata] at hcode hflags hlength
  have hvendor : (if hasVendor flags = true then UInt32.ofNat (ofBigEndian
      (((headerBytes code flags vendorID body.length ++ body).drop 8).take 4)) else 0)
      = vendorID := by
    obtain ⟨-, -, -, htail⟩ := header_fields code flags (headerLen flags + body.length)
      ((if hasVendor flags then bigEndian 4 vendorID.toNat else []) ++ body) hlt
    have hfd : headerBytes code flags vendorID body.length ++ body =
        bigEndian 4 code.toNat ++ flags :: (bigEndian 3 (headerLen flags + body.length) ++
          ((if hasVendor flags then bigEndian 4 vendorID.toNat else []) ++ body)) := by
      simp [headerBytes]
    rw [hfd, htail]
    cases hf : hasVendor flags with
    | false => simpa using (hv hf).symm
    | true =>
      simp only [if_true]
      rw [take_append_of_length (length_bigEndian 4 _), uint32_ofBigEndian_bigEndian]
  have hv12 : ¬ (hasVendor flags = true ∧ headerLen flags + body.length < 12) := by
    rintro ⟨hf, h12⟩
    simp only [headerLen, hf, if_true] at h12
    omega
  unfold readFrame
  simp only [hcode, hflags, hlength, hlen]
  rw [if_neg (by omega), if_neg (by omega)]
  simp only [take_append_of_length hfront, hfront, hvendor, drop_append_of_length hhl]
  rw [if_neg (by omega), if_neg hv12, if_neg (by omega)]
  congr 2
  rw [Nat.add_sub_cancel_left, List.take_length]

/-! ## Payloads -/

/-- The outcomes of `decodePayload`, with what each of them presupposes. -/
inductive DecodesPayload (group : Option (Bool → Bytes → Loop)) (s : Snapshot) (app : UInt32)
    (failed : Bool) (f : Frame) : Data AVP → Option AVPError → Prop where
  | unknown : s.avp app f.code f.vendorID = none →
      DecodesPayload group s app failed f (.value (.unknown f.body)) none
  | tooDeep {d : Dict.AVP} : s.avp app f.code f.vendorID = some d → d.data.type = .grouped →
      group = none →
      DecodesPayload group s app failed f (.value (.unknown f.body))
        (some (.payload (newAVPDecodeError f d.data.type true
          (definitionText d "grouped AVP nesting exceeds limit"))))
  | groupLength {d : Dict.AVP} {g : Bool → Bytes → Loop} {e : LengthError} :
      s.avp app f.code f.vendorID = some d → d.data.type = .grouped → group = some g →
      (g (failed || f.isFailedAVP) f.body).stop = .length e →
      DecodesPayload group s app failed f (.value (.unknown f.body))
        (some (.length ⟨groupedParent f.code f.flags f.vendorID e.failedAVP, e.text⟩))
  | groupErrors {d : Dict.AVP} {g : Bool → Bytes → Loop} {e : PayloadError}
      {es : List PayloadError} :
      s.avp app f.code f.vendorID = some d → d.data.type = .grouped → group = some g →
      (∀ e', (g (failed || f.isFailedAVP) f.body).stop ≠ .length e') →
      (g (failed || f.isFailedAVP) f.body).errs = e :: es →
      DecodesPayload group s app failed f (.value (.unknown f.body))
        (some (.payload ⟨e.resultCode, groupedParent f.code f.flags f.vendorID e.failedAVP,
          e.tooDeep, groupedText d (e :: es)⟩))
  | groupOk {d : Dict.AVP} {g : Bool → Bytes → Loop} :
      s.avp app f.code f.vendorID = some d → d.data.type = .grouped → group = some g →
      (∀ e', (g (failed || f.isFailedAVP) f.body).stop ≠ .length e') →
      (g (failed || f.isFailedAVP) f.body).errs = [] →
      DecodesPayload group s app failed f
        (.group ((g (failed || f.isFailedAVP) f.body).avps.map some)) none
  | leafError {d : Dict.AVP} {text : String} :
      s.avp app f.code f.vendorID = some d → d.data.type ≠ .grouped →
      decodeLeaf d f.body = .error text →
      DecodesPayload group s app failed f (.value (.unknown f.body))
        (some (.payload (newAVPDecodeError f d.data.type false (definitionText d text))))
  | leaf {d : Dict.AVP} {v : Value} :
      s.avp app f.code f.vendorID = some d → d.data.type ≠ .grouped →
      decodeLeaf d f.body = .ok v →
      DecodesPayload group s app failed f (.value v) none

theorem decodePayload_spec (group : Option (Bool → Bytes → Loop)) (s : Snapshot) (app : UInt32)
    (failed : Bool) (f : Frame) :
    DecodesPayload group s app failed f (decodePayload group s app failed f).1
      (decodePayload group s app failed f).2 := by
  unfold decodePayload
  cases hd : s.avp app f.code f.vendorID with
  | none => exact .unknown hd
  | some d =>
    simp only
    by_cases hg : d.data.type = .grouped
    · rw [if_pos hg]
      cases group with
      | none => exact .tooDeep hd hg rfl
      | some g =>
        simp only
        split
        · rename_i e hstop; exact .groupLength hd hg rfl hstop
        · rename_i e es herrs hstop; exact .groupErrors hd hg rfl hstop herrs
        · rename_i herrs hstop; exact .groupOk hd hg rfl hstop herrs
    · rw [if_neg hg]
      cases hl : decodeLeaf d f.body with
      | error text => exact .leafError hd hg hl
      | ok v => exact .leaf hd hg hl

theorem decodeLeaf_ok {d : Dict.AVP} {body : Bytes} {v : Value} (h : decodeLeaf d body = .ok v) :
    decode d.data.type body = .ok v ∧ v.len = body.length := by
  unfold decodeLeaf at h
  split at h
  · cases h
  rename_i w hw
  split at h
  · cases h
  rename_i hlen
  cases h
  exact ⟨hw, not_not.1 hlen⟩

/-! ## The loop -/

/-- A run of the loop from offset `n` with `b` left, and its result. -/
inductive RunsLoop (what : String) (tolerant : Bool) (dec : Bytes → AVP × Option AVPError) :
    Bytes → Nat → Loop → Prop where
  | nil {n : Nat} : RunsLoop what tolerant dec [] n ⟨[], [], .done⟩
  | length {b : Bytes} {n : Nat} {a : AVP} {e : LengthError} : b ≠ [] →
      dec b = (a, some (.length e)) →
      RunsLoop what tolerant dec b n ⟨[], [], .length e⟩
  | broken {b : Bytes} {n : Nat} {a : AVP} {e : PayloadError} : b ≠ [] →
      dec b = (a, some (.payload e)) → a.data = .nil →
      RunsLoop what tolerant dec b n ⟨[], countedErrs tolerant (some (.payload e)), .broken e⟩
  | overrun {b : Bytes} {n : Nat} {a : AVP} {err : Option AVPError} : b ≠ [] →
      dec b = (a, err) → (∀ e, err ≠ some (.length e)) →
      (∀ e, err = some (.payload e) → a.data ≠ .nil) → a.len = 0 ∨ b.length < a.len →
      RunsLoop what tolerant dec b n
        ⟨[], countedErrs tolerant err, .length (advanceError what a n b.length)⟩
  | next {b : Bytes} {n : Nat} {a : AVP} {err : Option AVPError} {r : Loop} : b ≠ [] →
      dec b = (a, err) → (∀ e, err ≠ some (.length e)) →
      (∀ e, err = some (.payload e) → a.data ≠ .nil) → 0 < a.len → a.len ≤ b.length →
      RunsLoop what tolerant dec (b.drop a.len) (n + a.len) r →
      RunsLoop what tolerant dec b n ⟨a :: r.avps, countedErrs tolerant err ++ r.errs, r.stop⟩

/-- With at least as much fuel as there are octets the loop runs to its end. -/
theorem decodeLoop_spec (what : String) (tolerant : Bool) (dec : Bytes → AVP × Option AVPError) :
    ∀ (fuel : Nat) (b : Bytes) (n : Nat), b.length ≤ fuel →
      RunsLoop what tolerant dec b n (decodeLoop what tolerant dec fuel b n) := by
  intro fuel
  induction fuel with
  | zero =>
    intro b n hb
    obtain rfl : b = [] := List.length_eq_zero_iff.1 (Nat.le_zero.1 hb)
    exact .nil
  | succ fuel ih =>
    intro b n hb
    by_cases hnil : b = []
    · subst hnil; exact .nil
    have hemp : ¬ b.isEmpty = true := by simpa using hnil
    rw [decodeLoop, if_neg hemp]
    -- The rest of an iteration that is neither a length error nor without data.
    have tail : ∀ (a : AVP) (err : Option AVPError), dec b = (a, err) →
        (∀ e, err ≠ some (.length e)) → (∀ e, err = some (.payload e) → a.data ≠ .nil) →
        RunsLoop what tolerant dec b n
          (if a.len ≤ 0 ∨ a.len > b.length then
            ⟨[], countedErrs tolerant err, .length (advanceError what a n b.length)⟩
          else
            ⟨a :: (decodeLoop what tolerant dec fuel (b.drop a.len) (n + a.len)).avps,
              countedErrs tolerant err ++
                (decodeLoop what tolerant dec fuel (b.drop a.len) (n + a.len)).errs,
              (decodeLoop what tolerant dec fuel (b.drop a.len) (n + a.len)).stop⟩) := by
      intro a err hdec hlen hdata
      by_cases hover : a.len ≤ 0 ∨ a.len > b.length
      · rw [if_pos hover]
        exact .overrun hnil hdec hlen hdata (by omega)
      rw [if_neg hover]
      have hrest : (b.drop a.len).length ≤ fuel := by rw [List.length_drop]; omega
      exact .next hnil hdec hlen hdata (by omega) (by omega) (ih _ _ hrest)
    cases hdec : dec b with
    | mk a err =>
      match err, hdec with
      | some (.length e), hdec => exact .length hnil hdec
      | none, hdec =>
        simp only
        exact tail a none hdec (by simp) (by simp)
      | some (.payload e), hdec =>
        simp only
        split
        next e' he hdata =>
          cases he
          exact .broken hnil hdec hdata
        next hne => exact tail a _ hdec (by simp) (fun e' he hdata => hne e' he hdata)

theorem RunsLoop.unique {what : String} {tolerant : Bool}
    {b : Bytes} {n : Nat} {r r' : Loop} (h : RunsLoop what tolerant dec b n r)
    (h' : RunsLoop what tolerant dec b n r') : r = r' := by
  induction h generalizing r' with
  | nil =>
    cases h' with
    | nil => rfl
    | length hne | broken hne | overrun hne | next hne => exact absurd rfl hne
  | length hne hdec =>
    cases h' with
    | nil => exact absurd rfl hne
    | length _ hdec' => rw [hdec] at hdec'; cases hdec'; rfl
    | broken _ hdec' => rw [hdec] at hdec'; cases hdec'
    | overrun _ hdec' hlen | next _ hdec' hlen =>
      rw [hdec] at hdec'; cases hdec'; exact absurd rfl (hlen _)
  | broken hne hdec hdata =>
    cases h' with
    | nil => exact absurd rfl hne
    | length _ hdec' => rw [hdec] at hdec'; cases hdec'
    | broken _ hdec' => rw [hdec] at hdec'; cases hdec'; rfl
    | overrun _ hdec' _ hd | next _ hdec' _ hd =>
      rw [hdec] at hdec'; cases hdec'; exact absurd hdata (hd _ rfl)
  | overrun hne hdec hlen hd hover =>
    cases h' with
    | nil => exact absurd rfl hne
    | length _ hdec' => rw [hdec] at hdec'; cases hdec'; exact absurd rfl (hlen _)
    | broken _ hdec' hdata => rw [hdec] at hdec'; cases hdec'; exact absurd hdata (hd _ rfl)
    | overrun _ hdec' => rw [hdec] at hdec'; cases hdec'; rfl
    | next _ hdec' _ _ hpos hle => rw [hdec] at hdec'; cases hdec'; omega
  | next hne hdec hlen hd hpos hle _ ih =>
    cases h' with
    | nil => exact absurd rfl hne
    | length _ hdec' => rw [hdec] at hdec'; cases hdec'; exact absurd rfl (hlen _)
    | broken _ hdec' hdata => rw [hdec] at hdec'; cases hdec'; exact absurd hdata (hd _ rfl)
    | overrun _ hdec' _ _ hover => rw [hdec] at hdec'; cases hdec'; omega
    | next _ hdec' _ _ _ _ hr => rw [hdec] at hdec'; cases hdec'; rw [ih hr]

theorem decodeLoop_eq {what : String} {tolerant : Bool}
    {b : Bytes} {n : Nat} {r : Loop} (h : RunsLoop what tolerant dec b n r) :
    decodeLoop what tolerant dec b.length b n = r :=
  (decodeLoop_spec what tolerant dec b.length b n (Nat.le_refl _)).unique h

/-! ## One AVP -/

/-- The decoder of members one level down. -/
def groupDecoder (s : Snapshot) (app : UInt32) : Nat → Option (Bool → Bytes → Loop)
  | 0 => none
  | levels + 1 => some fun failed b =>
    decodeLoop "grouped AVP" failed (decodeAVPAt s app levels failed) b.length b 0

theorem decodeAVPAt_eq (s : Snapshot) (app : UInt32) (levels : Nat) (failed : Bool)
    (data : Bytes) :
    decodeAVPAt s app levels failed data =
      decodeAVPWith (groupDecoder s app levels) s app failed data := by
  cases levels <;> rfl

theorem decodeAVPAt_frame {s : Snapshot} {app : UInt32} {levels : Nat} {failed : Bool} {f : Frame}
    (hf : readFrame data = .ok f) :
    decodeAVPAt s app levels failed data =
      (⟨f.code, f.flags, f.length, f.vendorID,
        (decodePayload (groupDecoder s app levels) s app failed f).1⟩,
        (decodePayload (groupDecoder s app levels) s app failed f).2) := by
  rw [decodeAVPAt_eq, decodeAVPWith, hf]

theorem decodeAVPAt_cases (s : Snapshot) (app : UInt32) (levels : Nat) (failed : Bool)
    (data : Bytes) :
    (∃ a text, readFrame data = .error (a, text) ∧
      decodeAVPAt s app levels failed data =
        (a, some (.length ⟨failedAVPFromWire data app s, text⟩))) ∨
    (∃ f d err, readFrame data = .ok f ∧
      DecodesPayload (groupDecoder s app levels) s app failed f d err ∧
      decodeAVPAt s app levels failed data = (⟨f.code, f.flags, f.length, f.vendorID, d⟩, err)) := by
  rw [decodeAVPAt_eq]
  unfold decodeAVPWith
  cases hf : readFrame data with
  | error p => exact .inl ⟨p.1, p.2, rfl, rfl⟩
  | ok f => exact .inr ⟨f, _, _, rfl, decodePayload_spec _ _ _ _ _, rfl⟩

end Diameter
