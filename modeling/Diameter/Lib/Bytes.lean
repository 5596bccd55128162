import Mathlib.Tactic

/-!
# Lib.Bytes

Byte strings as lists of octets: big-endian numbers of a fixed width, and byte strings in which
some positions are blanked out.

* `bigEndian w n`: the low `w` octets of `n`, most significant first; `ofBigEndian` reads them
  back. The two are inverse on numbers below `256 ^ w` and on strings of length `w`.
* `blank mask b`: `b` with a zero at every position the mask marks. It distributes over
  concatenation, which is how a statement about a nested format is put together from statements
  about its parts.
-/

namespace Lib

abbrev Bytes := List UInt8

def bigEndian : Nat → Nat → Bytes
  | 0, _ => []
  | w + 1, n => UInt8.ofNat (n / 256 ^ w) :: bigEndian w n

def ofBigEndian : Bytes → Nat
  | [] => 0
  | b :: bs => b.toNat * 256 ^ bs.length + ofBigEndian bs

@[simp] theorem length_bigEndian (w n : Nat) : (bigEndian w n).length = w := by
  induction w with
  | zero => rfl
  | succ w ih => simp [bigEndian, ih]

theorem ofBigEndian_lt (bs : Bytes) : ofBigEndian bs < 256 ^ bs.length := by
  induction bs with
  | nil => simp [ofBigEndian]
  | cons b bs ih =>
    have hb : b.toNat ≤ 255 := by have := b.toNat_lt; omega
    have hm : b.toNat * 256 ^ bs.length ≤ 255 * 256 ^ bs.length := Nat.mul_le_mul_right _ hb
    simp only [ofBigEndian, List.length_cons, Nat.pow_succ]
    omega

theorem ofBigEndian_bigEndian (w n : Nat) : ofBigEndian (bigEndian w n) = n % 256 ^ w := by
  induction w with
  | zero => simp [bigEndian, ofBigEndian, Nat.mod_one]
  | succ w ih =>
    have hsplit : n % 256 ^ (w + 1) = n % 256 ^ w + 256 ^ w * (n / 256 ^ w % 256) := by
      rw [Nat.pow_succ, Nat.mod_mul]
    simp only [bigEndian, ofBigEndian, length_bigEndian, ih, UInt8.toNat_ofNat', hsplit]
    rw [Nat.mul_comm, Nat.add_comm]

/-- Only the low `w` octets of `n` are written. -/
theorem bigEndian_add_mul (w n k : Nat) : bigEndian w (n + 256 ^ w * k) = bigEndian w n := by
  induction w generalizing k with
  | zero => rfl
  | succ w ih =>
    have h1 : n + 256 ^ (w + 1) * k = n + 256 ^ w * (256 * k) := by rw [Nat.pow_succ]; ring
    simp only [bigEndian]
    rw [h1, ih (256 * k), Nat.add_mul_div_left _ _ (Nat.pow_pos (by decide))]
    congr 1
    apply UInt8.toNat_inj.mp
    simp only [UInt8.toNat_ofNat']
    omega

theorem bigEndian_ofBigEndian (bs : Bytes) : bigEndian bs.length (ofBigEndian bs) = bs := by
  induction bs with
  | nil => rfl
  | cons b bs ih =>
    have hlt := ofBigEndian_lt bs
    have hpos : 0 < 256 ^ bs.length := Nat.pow_pos (by decide)
    have hdiv : (b.toNat * 256 ^ bs.length + ofBigEndian bs) / 256 ^ bs.length = b.toNat := by
      rw [Nat.add_comm, Nat.add_mul_div_right _ _ hpos, Nat.div_eq_of_lt hlt, Nat.zero_add]
    have htail : bigEndian bs.length (b.toNat * 256 ^ bs.length + ofBigEndian bs) = bs := by
      rw [Nat.add_comm, Nat.mul_comm, bigEndian_add_mul, ih]
    simp only [List.length_cons, bigEndian, ofBigEndian]
    rw [hdiv, htail, UInt8.ofNat_toNat]

theorem bigEndian_of_length {bs : Bytes} {w : Nat} (h : bs.length = w) :
    bigEndian w (ofBigEndian bs) = bs := by
  subst h; exact bigEndian_ofBigEndian bs

/-! ## Blanking positions -/

/-- `b` with a zero wherever the mask says so. -/
def blank (mask : List Bool) (b : Bytes) : Bytes :=
  List.zipWith (fun m x => if m then 0 else x) mask b

theorem length_blank {mask : List Bool} {b : Bytes} (h : mask.length = b.length) :
    (blank mask b).length = b.length := by
  simp [blank, h]

theorem blank_append {m1 m2 : List Bool} {b1 b2 : Bytes} (h : m1.length = b1.length) :
    blank (m1 ++ m2) (b1 ++ b2) = blank m1 b1 ++ blank m2 b2 :=
  List.zipWith_append h

theorem blank_false {n : Nat} {b : Bytes} (h : b.length = n) :
    blank (List.replicate n false) b = b := by
  subst h
  induction b with
  | nil => rfl
  | cons x b ih => simpa [blank, List.replicate_succ] using ih

theorem blank_true {n : Nat} {b : Bytes} (h : b.length = n) :
    blank (List.replicate n true) b = List.replicate n 0 := by
  subst h
  induction b with
  | nil => rfl
  | cons x b ih => simpa [blank, List.replicate_succ] using ih

theorem getElem?_blank {mask : List Bool} {b : Bytes} (h : mask.length = b.length) (i : Nat) :
    (blank mask b)[i]? = if mask[i]? = some true then some 0 else b[i]? := by
  by_cases hi : i < b.length
  · have hm : i < mask.length := by omega
    simp only [blank, List.getElem?_zipWith, List.getElem?_eq_getElem hi,
      List.getElem?_eq_getElem hm, Option.some.injEq]
    split <;> rfl
  · have hm : mask[i]? = none := List.getElem?_eq_none (by omega)
    simp [blank, List.getElem?_zipWith, hm, List.getElem?_eq_none (Nat.le_of_not_lt hi)]

/-! ## Slices -/

/-- Go's `copy(b[off:], src)` where `src` fits: the octets from `off` on are overwritten. -/
def overwrite (b : Bytes) (off : Nat) (src : Bytes) : Bytes :=
  b.take off ++ src ++ b.drop (off + src.length)

theorem take_append_of_length {a r : Bytes} {n : Nat} (h : a.length = n) : (a ++ r).take n = a := by
  subst h; exact List.take_left

theorem drop_append_of_length {a r : Bytes} {n : Nat} (h : a.length = n) : (a ++ r).drop n = r := by
  subst h; exact List.drop_left

end Lib
