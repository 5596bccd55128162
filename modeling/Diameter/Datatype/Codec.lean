import Diameter.Datatype.Value

/-!
# Datatype.Codec

`Serialize` and `Decode` are inverse to each other, in both directions.

* `serialize_of_decode`: what a decoder makes of a payload serializes to that payload, provided
  its `Len` is the payload's length. A fixed-size format given the wrong number of octets is
  exactly where the proviso fails.
* `decode_serialize`: a value that has the format's shape is read back unchanged.
* `time_window`: the words are the times of one window, across the rollover of 2036.
* `Value.padding_eq`: outside grouped data the padding depends on the length only.
-/

namespace Diameter.Datatype

open Lib

variable {b : Bytes} {v : Value}
variable {unix : Int} {t : TypeID}

/-! ## Words -/

theorem uint16_ofBigEndian_bigEndian (n : UInt16) :
    UInt16.ofNat (ofBigEndian (bigEndian 2 n.toNat)) = n := by
  have hlt := n.toNat_lt
  rw [ofBigEndian_bigEndian, Nat.mod_eq_of_lt (by omega), UInt16.ofNat_toNat]

theorem uint32_ofBigEndian_bigEndian (n : UInt32) :
    UInt32.ofNat (ofBigEndian (bigEndian 4 n.toNat)) = n := by
  have hlt := n.toNat_lt
  rw [ofBigEndian_bigEndian, Nat.mod_eq_of_lt (by omega), UInt32.ofNat_toNat]

theorem uint64_ofBigEndian_bigEndian (n : UInt64) :
    UInt64.ofNat (ofBigEndian (bigEndian 8 n.toNat)) = n := by
  have hlt := n.toNat_lt
  rw [ofBigEndian_bigEndian, Nat.mod_eq_of_lt (by omega), UInt64.ofNat_toNat]

theorem toNat_ofNat_ofBigEndian16 (h : b.length = 2) :
    (UInt16.ofNat (ofBigEndian b)).toNat = ofBigEndian b := by
  have hlt := ofBigEndian_lt b
  rw [h] at hlt
  exact UInt16.toNat_ofNat_of_lt' (by simpa [UInt16.size] using hlt)

theorem toNat_ofNat_ofBigEndian32 (h : b.length ≤ 4) :
    (UInt32.ofNat (ofBigEndian b)).toNat = ofBigEndian b := by
  have hlt := ofBigEndian_lt b
  have hpow : 256 ^ b.length ≤ 256 ^ 4 := Nat.pow_le_pow_right (by decide) h
  exact UInt32.toNat_ofNat_of_lt' (by simp only [UInt32.size]; omega)

theorem bigEndian_field32 {w : Nat} (h : b.length = w) (hw : w ≤ 4) :
    bigEndian w (UInt32.ofNat (ofBigEndian b)).toNat = b := by
  rw [toNat_ofNat_ofBigEndian32 (by omega), bigEndian_of_length h]

theorem bigEndian_word32 (h : b.length = 4) : bigEndian 4 (ofBigEndian b % 4294967296) = b := by
  have hlt := ofBigEndian_lt b
  rw [h] at hlt
  rw [Nat.mod_eq_of_lt (by omega), bigEndian_of_length h]

theorem bigEndian_word64 (h : b.length = 8) :
    bigEndian 8 (ofBigEndian b % 18446744073709551616) = b := by
  have hlt := ofBigEndian_lt b
  rw [h] at hlt
  rw [Nat.mod_eq_of_lt (by omega), bigEndian_of_length h]

/-! ## Padding -/

theorem add_pad_mod (n : Nat) : (n + pad n) % 4 = 0 := by unfold pad; omega

/-! ## Shape of a value -/

/-- The octet count, address family or time window that the wire format can express. -/
def Value.expressible : Value → Bool
  | .ipv4 ip => ip.length == 4
  | .ipv6 ip => ip.length == 16
  | .address a => a.valid.isOk
  | .time unix => decide (2147483648 - (rfc868offset : Int) ≤ unix ∧
      unix < 2147483648 + (postRolloverUnixOffset : Int))
  | _ => true

/-- The values `decode t` yields from payloads of the right length. -/
structure HasType (t : TypeID) (v : Value) : Prop where
  typeID : v.typeID = t
  expressible : v.expressible = true

theorem hasType_iff (t : TypeID) (v : Value) :
    HasType t v ↔ v.typeID = t ∧ v.expressible = true :=
  ⟨fun h => ⟨h.typeID, h.expressible⟩, fun h => ⟨h.1, h.2⟩⟩

instance (t : TypeID) (v : Value) : Decidable (HasType t v) :=
  decidable_of_iff _ (hasType_iff t v).symm

/-! ## Addresses and times -/

theorem Address.valid_of_isOk {a : Address} (h : a.valid.isOk = true) : a.valid = .ok () := by
  cases hv : a.valid with
  | error e => rw [hv] at h; cases h
  | ok u => rfl

theorem Address.length_serialize (a : Address) : a.serialize.length = a.len := by
  simp [Address.serialize, Address.len]

theorem Address.serialize_ofBytes (h : ¬ b.length < 2) :
    Address.serialize ⟨UInt16.ofNat (ofBigEndian (b.take 2)), b.drop 2⟩ = b := by
  have hlen : (b.take 2).length = 2 := by simp; omega
  simp only [Address.serialize]
  rw [toNat_ofNat_ofBigEndian16 hlen, bigEndian_of_length hlen, List.take_append_drop]

theorem Address.ofBytes_serialize (a : Address) :
    (⟨UInt16.ofNat (ofBigEndian (a.serialize.take 2)), a.serialize.drop 2⟩ : Address) = a := by
  have hlen : (bigEndian 2 a.family.toNat).length = 2 := length_bigEndian _ _
  simp only [Address.serialize]
  rw [take_append_of_length hlen, drop_append_of_length hlen, uint16_ofBigEndian_bigEndian]

theorem toNat_timeWord (unix : Int) :
    (UInt32.ofInt unix + UInt32.ofNat rfc868offset).toNat
      = ((unix + rfc868offset) % 4294967296).toNat := by
  have hoff : (UInt32.ofNat rfc868offset).toNat = rfc868offset := rfl
  have hint : ((UInt32.ofInt unix).toNat : Int) = unix % 4294967296 := by
    simp [UInt32.ofInt]
    omega
  rw [UInt32.toNat_add, hoff]
  unfold rfc868offset
  omega

/-- Bit 0 of the wire word tells the two time windows apart. -/
theorem headD_shiftRight_eq_zero (h : b.length = 4) :
    b.headD 0 >>> 7 = 0 ↔ ofBigEndian b < 2147483648 := by
  obtain ⟨x, bs, rfl⟩ := List.exists_cons_of_length_pos (by omega : 0 < b.length)
  have hbs : bs.length = 3 := by simpa using h
  have hlt := ofBigEndian_lt bs
  have hx : x >>> 7 = 0 ↔ x.toNat < 128 := by
    rw [← UInt8.toNat_inj, UInt8.toNat_shiftRight]
    simp [Nat.shiftRight_eq_div_pow]
  simp only [List.headD_cons, ofBigEndian, hbs] at hlt ⊢
  rw [hx]
  omega

theorem serialize_time_of_lt (h : b.length = 4)
    (hw : (unix + rfc868offset) % 4294967296 = ofBigEndian b) :
    (Value.time unix).serialize = b := by
  simp only [Value.serialize, toNat_timeWord, hw, Int.toNat_natCast]
  exact bigEndian_of_length h

/-! ## The two directions -/

/-- A decoded value whose `Len` is the payload's length serializes to the payload. -/
theorem serialize_of_decode (h : decode t b = .ok v) (hlen : v.len = b.length) :
    v.serialize = b := by
  cases t with
  | address =>
    simp only [decode] at h
    split at h
    · cases h
    rename_i hb
    split at h
    · cases h
    · cases h; exact Address.serialize_ofBytes hb
  | time =>
    simp only [decode] at h
    split at h
    · cases h
    rename_i hb
    have hb4 : b.length = 4 := by omega
    have hlt := ofBigEndian_lt b
    rw [hb4] at hlt
    split at h
    · cases h
      refine serialize_time_of_lt hb4 ?_
      unfold postRolloverUnixOffset rfc868offset
      omega
    · cases h
      refine serialize_time_of_lt hb4 ?_
      unfold rfc868offset
      omega
  | enumerated | integer32 | float32 | unsigned32 =>
    cases h
    have hb : b.length = 4 := hlen.symm
    simp [Value.serialize, hb, bigEndian_word32 hb]
  | float64 | unsigned64 | integer64 =>
    cases h
    have hb : b.length = 8 := hlen.symm
    simp [Value.serialize, hb, bigEndian_word64 hb]
  | ipv4 =>
    cases h
    have hb : b.length = 4 := hlen.symm
    simp [Value.serialize, to4, hb]
  | ipv6 =>
    cases h
    have hb : b.length = 16 := hlen.symm
    simp [Value.serialize, to16, hb]
  | _ => cases h; rfl

theorem typeID_of_decode (h : decode t b = .ok v) : v.typeID = t := by
  cases t with
  | address =>
    simp only [decode] at h
    split at h
    · cases h
    split at h
    · cases h
    · cases h; rfl
  | time =>
    simp only [decode] at h
    split at h
    · cases h
    · split at h <;> (cases h; rfl)
  | _ => cases h; rfl

theorem Value.padding_eq (h : v.typeID ≠ .grouped) : v.padding = pad v.len := by
  cases v with
  | grouped b => exact absurd rfl h
  | _ => simp [Value.padding, Value.len, pad]

theorem length_serialize (h : HasType t v) : v.serialize.length = v.len := by
  obtain ⟨-, hx⟩ := h
  cases v with
  | address a => exact a.length_serialize
  | ipv4 ip =>
    have hip : ip.length = 4 := by simpa [Value.expressible] using hx
    simp [Value.serialize, to4, Value.len, hip]
  | ipv6 ip =>
    have hip : ip.length = 16 := by simpa [Value.expressible] using hx
    simp [Value.serialize, to16, Value.len, hip]
  | _ => simp [Value.serialize, Value.len]

theorem decode_time_serialize (hx : (Value.time unix).expressible = true) :
    decode .time (Value.time unix).serialize = .ok (.time unix) := by
  have hwin : 2147483648 - (rfc868offset : Int) ≤ unix ∧
      unix < 2147483648 + (postRolloverUnixOffset : Int) := by
    simpa [Value.expressible] using hx
  have hlen : (Value.time unix).serialize.length = 4 := by simp [Value.serialize]
  have hword : ofBigEndian (Value.time unix).serialize
      = ((unix + rfc868offset) % 4294967296).toNat := by
    simp only [Value.serialize, ofBigEndian_bigEndian, toNat_timeWord]
    omega
  simp only [decode, hlen, headD_shiftRight_eq_zero hlen, hword]
  unfold rfc868offset postRolloverUnixOffset at *
  split
  · omega
  split
  · congr 2; omega
  · congr 2; omega

theorem decode_serialize (h : HasType t v) : decode t v.serialize = .ok v := by
  obtain ⟨rfl, hx⟩ := h
  cases v with
  | address a =>
    have hlen : ¬ a.serialize.length < 2 := by rw [a.length_serialize, Address.len]; omega
    simp only [Value.typeID, Value.serialize, decode, hlen, if_false, a.ofBytes_serialize,
      Address.valid_of_isOk hx]
  | time unix => exact decode_time_serialize hx
  | ipv4 ip =>
    have hip : ip.length = 4 := by simpa [Value.expressible] using hx
    simp [Value.typeID, Value.serialize, decode, to4, hip]
  | ipv6 ip =>
    have hip : ip.length = 16 := by simpa [Value.expressible] using hx
    simp [Value.typeID, Value.serialize, decode, to16, hip]
  | enumerated n | integer32 n | float32 n | unsigned32 n =>
    simp [Value.typeID, Value.serialize, decode, uint32_ofBigEndian_bigEndian]
  | float64 n | unsigned64 n | integer64 n =>
    simp [Value.typeID, Value.serialize, decode, uint64_ofBigEndian_bigEndian]
  | _ => rfl

/-! ## The time window -/

/-- The Unix seconds `DecodeTime` reads from a word. -/
def unixOfWord (w : UInt32) : Int :=
  if w < 0x80000000 then w.toNat + postRolloverUnixOffset else w.toNat - rfc868offset

/-- The order of the words that places the half with the high bit set first. -/
def Earlier (w w' : UInt32) : Prop :=
  0x80000000 ≤ w ∧ w' < 0x80000000 ∨ (0x80000000 ≤ w ↔ 0x80000000 ≤ w') ∧ w < w'

theorem decode_timeWord (w : UInt32) :
    decode .time (bigEndian 4 w.toNat) = .ok (.time (unixOfWord w)) := by
  have hlen : (bigEndian 4 w.toNat).length = 4 := length_bigEndian 4 _
  have hword : ofBigEndian (bigEndian 4 w.toNat) = w.toNat := by
    rw [ofBigEndian_bigEndian]
    exact Nat.mod_eq_of_lt w.toNat_lt
  simp only [decode, hlen, headD_shiftRight_eq_zero hlen, hword, unixOfWord, UInt32.lt_iff_toNat_lt]
  rw [if_neg (by omega)]
  exact (apply_ite (fun u => Except.ok (Value.time u)) _ _ _).symm

theorem unixOfWord_eq {w : UInt32}
    (h : -61505152 ≤ unix ∧ unix ≤ 4233462143) :
    unixOfWord w = unix ↔ (w.toNat : Int) = (unix + rfc868offset) % 4294967296 := by
  have hlt := w.toNat_lt
  unfold unixOfWord rfc868offset postRolloverUnixOffset
  simp only [UInt32.lt_iff_toNat_lt, UInt32.reduceToNat]
  split <;> omega

theorem unixOfWord_window (w : UInt32) : -61505152 ≤ unixOfWord w ∧ unixOfWord w ≤ 4233462143 := by
  have hlt := w.toNat_lt
  unfold unixOfWord rfc868offset postRolloverUnixOffset
  simp only [UInt32.lt_iff_toNat_lt, UInt32.reduceToNat]
  split <;> omega

theorem unixOfWord_lt {w w' : UInt32} : unixOfWord w < unixOfWord w' ↔ Earlier w w' := by
  have hlt := w.toNat_lt
  have hlt' := w'.toNat_lt
  unfold unixOfWord Earlier rfc868offset postRolloverUnixOffset
  simp only [UInt32.lt_iff_toNat_lt, UInt32.le_iff_toNat_le, UInt32.reduceToNat]
  split <;> split <;> omega

theorem time_window :
    (∀ unix ∈ Set.Icc (-61505152 : Int) 4233462143,
      decode .time (Value.time unix).serialize = .ok (.time unix)) ∧
    (∀ w : UInt32, decode .time (bigEndian 4 w.toNat) = .ok (.time (unixOfWord w)) ∧
      (Value.time (unixOfWord w)).serialize = bigEndian 4 w.toNat) ∧
    Set.BijOn unixOfWord Set.univ (Set.Icc (-61505152) 4233462143) ∧
    ∀ w w' : UInt32, unixOfWord w < unixOfWord w' ↔ Earlier w w' := by
  refine ⟨fun unix h => decode_time_serialize ?_, fun w => ⟨decode_timeWord w, ?_⟩,
    ⟨fun w _ => unixOfWord_window w, fun w _ w' _ h => ?_, fun unix h => ?_⟩,
    fun w w' => unixOfWord_lt⟩
  · have h : -61505152 ≤ unix ∧ unix ≤ 4233462143 := h
    refine decide_eq_true ?_
    unfold rfc868offset postRolloverUnixOffset
    omega
  · refine serialize_of_decode (decode_timeWord w) ?_
    rw [length_bigEndian]
    rfl
  · -- Equal times have equal words modulo 2 ^ 32.
    have hw := (unixOfWord_eq (unixOfWord_window w')).1 h
    have hw' := (unixOfWord_eq (unixOfWord_window w')).1 (rfl : unixOfWord w' = _)
    exact UInt32.toNat_inj.1 (by omega)
  · have hnat : 0 ≤ (unix + rfc868offset) % 4294967296 := by omega
    have hlt : (unix + rfc868offset) % 4294967296 < 4294967296 := by omega
    refine ⟨UInt32.ofNat ((unix + rfc868offset) % 4294967296).toNat, trivial,
      (unixOfWord_eq h).2 ?_⟩
    rw [UInt32.toNat_ofNat_of_lt' (by simp only [UInt32.size]; omega)]
    omega

end Diameter.Datatype
