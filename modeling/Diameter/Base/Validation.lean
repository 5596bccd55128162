import Diameter.Base.Grammar
import Diameter.Base.Messages
import Diameter.Lib.Utf8

/-!
# Base.Validation

The receive-side checks of the base messages: the grammar under the base dictionary, the E bit
against the result code, and the data of every AVP the base dictionary defines.

`validateMessage_iff` splits the verdict into these three parts; `validIdentity_iff` is the grammar
of the identities.
-/

namespace Diameter

open Lib Datatype Dict

namespace Base

/-! ## Identities -/

def dot : UInt8 := 0x2e
def hyphen : UInt8 := 0x2d

def isLetterOrDigit (c : UInt8) : Bool :=
  inRange 0x61 0x7a c || inRange 0x41 0x5a c || inRange 0x30 0x39 c

/-- The loop of `DiameterIdentity.Valid`: `label` octets of the current label have been read, the
last octet was `prev`. -/
def validLabels : Nat → UInt8 → Bytes → Bool
  | label, prev, [] => decide (0 < label) && prev != hyphen
  | label, prev, c :: rest =>
    if c = dot then
      if label = 0 ∨ prev = hyphen then false else validLabels 0 c rest
    else if !isLetterOrDigit c && (c != hyphen || label == 0) then false
    else if label + 1 > 63 then false
    else validLabels (label + 1) c rest

/-- `DiameterIdentity.Valid`. -/
def validIdentity (s : Bytes) : Bool :=
  let name := if s.getLast? = some dot then s.dropLast else s
  if name = [] ∨ name.length > 253 then false else validLabels 0 0 name

example : validIdentity [0x61, 0x2d, 0x31, 0x2e, 0x62, 0x2e] = true := by decide
example : validIdentity [0x61, 0x2d, 0x2e, 0x62] = false := by decide

/-! ### The grammar of an identity -/

/-- What the loop has seen to of the label it reads. -/
structure Started (l : Bytes) : Prop where
  short : l.length ≤ 63
  octets : ∀ c ∈ l, isLetterOrDigit c = true ∨ c = hyphen
  head : l.head? ≠ some hyphen

/-- A label: 1 to 63 letters, digits and hyphens, with no hyphen at either end. -/
structure IsLabel (l : Bytes) : Prop extends Started l where
  nonempty : l ≠ []
  last : l.getLast? ≠ some hyphen

theorem Started.push {l : Bytes} {c : UInt8} (h : Started l)
    (hc : isLetterOrDigit c = true ∨ c = hyphen ∧ l ≠ []) (hl : l.length + 1 ≤ 63) :
    Started (l ++ [c]) where
  short := by simpa using hl
  octets x hx := by
    rcases List.mem_append.1 hx with hx | hx
    · exact h.octets x hx
    · rw [List.mem_singleton.1 hx]
      exact hc.imp_right And.left
  head := by
    cases l with
    | nil =>
      rcases hc with hc | hc
      · rintro ⟨rfl⟩
        revert hc
        decide
      · exact absurd rfl hc.2
    | cons x l => exact h.head

/-- An octet the loop stops at is in no label that goes on from here. -/
theorem IsLabel.octet {l : Bytes} {c : UInt8} {rest : Bytes} (h : IsLabel (l ++ c :: rest)) :
    (isLetterOrDigit c = true ∨ c = hyphen ∧ l ≠ []) ∧ l.length + 1 ≤ 63 := by
  constructor
  · rcases h.octets c (by simp) with hc | hc
    · exact .inl hc
    · refine .inr ⟨hc, ?_⟩
      rintro rfl
      exact h.head (by rw [hc]; rfl)
  · have hshort := h.short
    simp only [List.length_append, List.length_cons] at hshort
    omega

theorem modifyHead_nil_append (xs : List Bytes) : xs.modifyHead ([] ++ ·) = xs := by
  cases xs <;> rfl

/-- The loop against the split at the dots; `l` has been read of the first label. -/
theorem validLabels_iff (rest : Bytes) : ∀ {l : Bytes} {prev : UInt8}, Started l →
    (l ≠ [] → l.getLast? = some prev) →
    (validLabels l.length prev rest = true ↔
      ∀ x ∈ (rest.splitOn dot).modifyHead (l ++ ·), IsLabel x) := by
  have hread : ∀ {l : Bytes} {prev : UInt8}, Started l → (l ≠ [] → l.getLast? = some prev) →
      (IsLabel l ↔ l ≠ [] ∧ prev ≠ hyphen) := fun hl hprev =>
    ⟨fun h => ⟨h.nonempty, fun heq => h.last (by rw [hprev h.nonempty, heq])⟩,
      fun h => ⟨hl, h.1, fun heq => h.2 (Option.some.inj ((hprev h.1).symm.trans heq))⟩⟩
  induction rest with
  | nil =>
    intro l prev hl hprev
    simp [validLabels, hread hl hprev, List.length_pos_iff]
  | cons c rest ih =>
    intro l prev hl hprev
    unfold validLabels
    by_cases hdot : c = dot
    · have hsplit : ((c :: rest).splitOn dot).modifyHead (l ++ ·) = l :: rest.splitOn dot := by
        simp [List.splitOn, List.splitOnP_cons_eq_if_modifyHead, hdot]
      have hnext := @ih [] c ⟨by simp, by simp, by simp⟩ (fun h => absurd rfl h)
      rw [modifyHead_nil_append] at hnext
      rw [if_pos hdot, hsplit, List.forall_mem_cons, hread hl hprev, ← hnext]
      simp only [List.length_eq_zero_iff, List.length_nil]
      split
      next h =>
        simp only [Bool.false_eq_true, false_iff, not_and]
        intro hne
        exact absurd h (by simp [hne.1, hne.2])
      next h =>
        simp [not_or.1 h]
    · obtain ⟨x, xs, hx⟩ := List.exists_cons_of_ne_nil (List.splitOnP_ne_nil (· == dot) rest)
      have hsplit : ((c :: rest).splitOn dot).modifyHead (l ++ ·) =
          (rest.splitOn dot).modifyHead ((l ++ [c]) ++ ·) := by
        simp [List.splitOn, List.splitOnP_cons_eq_if_modifyHead, hdot, hx]
      rw [if_neg hdot, hsplit]
      by_cases hgo : (isLetterOrDigit c = true ∨ c = hyphen ∧ l ≠ []) ∧ l.length + 1 ≤ 63
      · have hok : ¬ (!isLetterOrDigit c && (c != hyphen || l.length == 0)) = true := by
          rcases hgo.1 with h | h <;> simp [h]
        have hnext := @ih (l ++ [c]) c (hl.push hgo.1 hgo.2) (by simp)
        rw [List.length_append, List.length_singleton] at hnext
        rw [if_neg hok, if_neg (by omega), hnext]
      · have hstop : ¬ ∀ y ∈ (rest.splitOn dot).modifyHead ((l ++ [c]) ++ ·), IsLabel y := by
          intro h
          refine hgo (@IsLabel.octet _ _ x (h _ ?_))
          simp [List.splitOn, hx]
        rw [iff_false_right hstop]
        split
        · simp
        rename_i hok
        rw [if_pos]
        · simp
        by_contra hshort
        refine hgo ⟨?_, by omega⟩
        simpa [Decidable.or_iff_not_imp_left] using hok

/-- `Valid` accepts the dotted lists of labels of at most 253 octets, with or without the final
dot of the root. -/
theorem validIdentity_iff (s : Bytes) : validIdentity s = true ↔
    let name := if s.getLast? = some dot then s.dropLast else s
    1 ≤ name.length ∧ name.length ≤ 253 ∧ ∀ l ∈ name.splitOn dot, IsLabel l := by
  have hlabels := fun name => @validLabels_iff name [] 0 ⟨by simp, by simp, by simp⟩
    (fun h => absurd rfl h)
  simp only [modifyHead_nil_append, List.length_nil] at hlabels
  unfold validIdentity
  dsimp only
  generalize (if s.getLast? = some dot then s.dropLast else s) = name
  have hpos := @List.length_pos_iff _ name
  split
  next h =>
    simp only [Bool.false_eq_true, false_iff]
    rintro ⟨h1, h2, -⟩
    exact h.elim (hpos.1 h1) (by omega)
  next h =>
    rw [not_or] at h
    rw [hlabels]
    exact ⟨fun hl => ⟨hpos.2 h.1, by omega, hl⟩, fun hl => hl.2.2⟩

end Base

/-! ## Data -/

/-- `Type`, for the data whose type a dictionary can name. -/
def Data.typeID? : Data AVP → Option TypeID
  | .value v => some v.typeID
  | .addressPtr (some _) => some .address
  | _ => none

namespace Base

/-- Whether `DecodeAddress` refuses the octets. A group is refused by its type, and its octets only
matter where there are fewer than two. -/
def unreadableAddress : Data AVP → Bool
  | .value v => !(decode .address v.serialize).isOk
  | .addressPtr (some a) => !(decode .address a.serialize).isOk
  | data => decide (data.len < 2)

def invalidCause (a : AVP) : Bool :=
  a.code == disconnectCauseCode && a.vendorID == 0 &&
    match a.data with
    | .value (.enumerated n) => decide (n < 0) || decide (2 < n)
    | _ => false

/-- Supported-Vendor-Id must not be zero, though Vendor-Id may. -/
def zeroVendor (a : AVP) : Bool :=
  a.code == supportedVendorIDCode && a.vendorID == 0 && a.unsigned32? == some 0

/-- What is wrong with the octets of an AVP of this definition. -/
def malformed (d : Dict.AVP) (a : AVP) : Option UInt32 :=
  match a.data, d.data.type with
  | .nil, _ => none
  | data, .unsigned32 | data, .enumerated => if data.len ≠ 4 then some invalidAVPLength else none
  | data, .address =>
    if unreadableAddress data then
      some (if data.len < 2 then invalidAVPLength else invalidAVPValue)
    else none
  | .value (.diameterIdentity s), .diameterIdentity =>
    if validIdentity s then none else some invalidAVPValue
  | .value v, .utf8String => if utf8Valid v.serialize then none else some invalidAVPValue
  | _, _ => none

/-- Whether the data is of another type. The methods of a nil `*Address` panic; it is refused
here. -/
def mistyped (d : Dict.AVP) (a : AVP) : Bool :=
  match d.data.type, a.data with
  | .grouped, .group _ => false
  | .grouped, _ => true
  | t, data => data.typeID? != some t

/-- The result code for the data of an AVP, if it is invalid. -/
def dataError (d : Dict.AVP) (a : AVP) : Option UInt32 :=
  (malformed d a).or <|
    if mistyped d a || invalidCause a || zeroVendor a then some invalidAVPValue else none

/-- The check of one AVP, with what its members were found to be. -/
def checkTypes (s : Snapshot) (a : AVP) (inner : Option MessageError) : Option MessageError :=
  match s.avp 0 a.code a.vendorID with
  | none => none
  | some d =>
    if a.isFailedAVP then none
    else
      match dataError d a with
      | some code => some ⟨code, some a, false, "invalid base " ++ d.name ++ " data"⟩
      | none =>
        inner.map fun e => { e with failedAVP := some { a with data := .group [e.failedAVP] } }

end Base

mutual

/-- One round of the loop of `validateTypes`. -/
def AVP.validateTypes (s : Dict.Snapshot) : AVP → Option MessageError
  | ⟨code, flags, length, vendorID, .group ms⟩ =>
    Base.checkTypes s ⟨code, flags, length, vendorID, .group ms⟩ (validateTypes s ms)
  | a => Base.checkTypes s a none

/-- `validateTypes`. Go panics on a nil AVP, which the grammar has refused before. -/
def validateTypes (s : Dict.Snapshot) : List (Option AVP) → Option MessageError
  | [] => none
  | none :: ms => validateTypes s ms
  | some a :: ms => (a.validateTypes s).or (validateTypes s ms)

end

/-- `ValidationError.Error`. -/
def ValidationError.text (e : ValidationError) : String :=
  "Diameter validation failed (" ++ toString e.resultCode.toNat ++ "): " ++ e.reason

namespace Base

/-! ## Messages -/

/-- `ValidateMessage`. -/
def validateMessage (m : Message) : Option MessageError :=
  match validateHeader m.header with
  | some e => some e
  | none =>
    if !m.header.isCommand then none
    else
      match m.validate grammarDictionary with
      | .error e => some ⟨e.resultCode, e.failedAVP, false, e.text⟩
      | .ok () =>
        if !m.header.isRequest && !m.header.isError &&
            (firstResultCode m.avps).any protocolErrorCode then
          some ⟨invalidHDRBits, none, false, "3xxx result requires E bit (RFC 6733 §7.1.3)"⟩
        else validateTypes grammarDictionary m.avps

/-- `ValidateRequest`. -/
def validateRequest (p : Packet) (applications : List UInt32) (validate rejectUnknown : Bool)
    (decodeError : Option MessageError) : Option RequestError :=
  let m := p.message
  if !m.header.isRequest then none
  else if validate && !supportsApplication applications m.header.applicationID then
    some { kind := .unsupportedApplication, code := applicationUnsupported }
  else if rejectUnknown && !applications.contains relayApplication &&
      !m.unknownMandatoryAVPs.isEmpty then
    some { kind := .unsupportedAVP, code := avpUnsupported, failed := m.unknownMandatoryAVPs }
  else
    match decodeError with
    | some e =>
      some { kind := .malformedMessage, code := e.resultCode, failed := e.failedAVP.toList }
    | none =>
      if validate then
        match m.validate p.dictionary with
        | .error e =>
          some { kind := .invalidRequest, code := e.resultCode, failed := e.failedAVP.toList }
        | .ok () => none
      else none
where avpUnsupported : UInt32 := 5001

theorem validateRequest_answer {p : Packet} {applications : List UInt32}
    {validate rejectUnknown : Bool} {me : Option MessageError} (h : p.header.isRequest = false) :
    validateRequest p applications validate rejectUnknown me = none := by
  have hm : p.message.header.isRequest = false := h
  simp [validateRequest, hm]

/-! ## When a message passes -/

theorem dataError_eq_none {d : Dict.AVP} {a : AVP} : dataError d a = none ↔
    malformed d a = none ∧ mistyped d a = false ∧ invalidCause a = false ∧ zeroVendor a = false := by
  unfold dataError
  rw [Option.or_eq_none_iff]
  refine and_congr_right fun _ => ?_
  cases mistyped d a <;> cases invalidCause a <;> cases zeroVendor a <;> simp

theorem validateTypes_eq_none {s : Snapshot} {ms : List (Option AVP)} :
    Diameter.validateTypes s ms = none ↔ ∀ a, some a ∈ ms → a.validateTypes s = none := by
  induction ms with
  | nil => simp [Diameter.validateTypes]
  | cons o ms ih =>
    cases o with
    | none => simp [Diameter.validateTypes, ih]
    | some a => simp [Diameter.validateTypes, ih, Option.or_eq_none_iff]

theorem checkTypes_eq_none {s : Snapshot} {a : AVP} {inner : Option MessageError} :
    checkTypes s a inner = none ↔ ∀ d, s.avp 0 a.code a.vendorID = some d → a.isFailedAVP = false →
      dataError d a = none ∧ inner = none := by
  unfold checkTypes
  cases hd : s.avp 0 a.code a.vendorID with
  | none => simp
  | some d =>
    cases hf : a.isFailedAVP with
    | true => simp
    | false => cases he : dataError d a <;> simp [he]

theorem avpTypes_eq_none {s : Snapshot} {a : AVP} :
    a.validateTypes s = none ↔ ∀ d, s.avp 0 a.code a.vendorID = some d → a.isFailedAVP = false →
      dataError d a = none ∧ ∀ c, some c ∈ a.members → c.validateTypes s = none := by
  obtain ⟨code, flags, length, vendorID, data⟩ := a
  cases data with
  | group ms =>
    rw [AVP.validateTypes, checkTypes_eq_none]
    simp only [validateTypes_eq_none]
    rfl
  | nil => rw [AVP.validateTypes, checkTypes_eq_none]; simp [AVP.members]; simp
  | value v => rw [AVP.validateTypes, checkTypes_eq_none]; simp [AVP.members]; simp
  | addressPtr p => rw [AVP.validateTypes, checkTypes_eq_none]; simp [AVP.members]; simp
  | nilGroup => rw [AVP.validateTypes, checkTypes_eq_none]; simp [AVP.members]; simp

theorem validateMessage_iff {m : Message} (hcmd : m.header.isCommand = true) :
    validateMessage m = none ↔ validateHeader m.header = none ∧
      m.validate grammarDictionary = .ok () ∧
      (m.header.isRequest = false → m.header.isError = false →
        (firstResultCode m.avps).any protocolErrorCode = false) ∧
      Diameter.validateTypes grammarDictionary m.avps = none := by
  unfold validateMessage
  cases hh : validateHeader m.header with
  | some e => simp
  | none =>
    cases hv : m.validate grammarDictionary with
    | error e => simp [hcmd]
    | ok u =>
      cases hr : m.header.isRequest <;> cases he : m.header.isError <;>
        cases hf : (firstResultCode m.avps).any protocolErrorCode <;> simp [hcmd]

end Base
end Diameter
