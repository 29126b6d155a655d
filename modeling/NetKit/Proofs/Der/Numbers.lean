import Mathlib.Data.Nat.Digits.Lemmas
import NetKit.Der

/-!
# Numbers and their octets

Octets are digits of base 256, the highest first. A number has the digits that it is written in, and
as an integer one more in front where the first would be taken for a sign.
-/

namespace NetKit.Der

/-! ## Digits -/

theorem ofBigEndian_singleton (b : UInt8) : ofBigEndian [b] = b.toNat := by
  simp [ofBigEndian]

theorem ofBigEndian_append_singleton (bs : Bytes) (b : UInt8) :
    ofBigEndian (bs ++ [b]) = ofBigEndian bs * 256 + b.toNat := by
  simp [ofBigEndian]

theorem ofBigEndian_append (as bs : Bytes) :
    ofBigEndian (as ++ bs) = ofBigEndian as * 256 ^ bs.length + ofBigEndian bs := by
  induction bs using List.reverseRecOn with
  | nil => simp [ofBigEndian]
  | append_singleton bs b ih =>
    rw [← List.append_assoc, ofBigEndian_append_singleton, ofBigEndian_append_singleton, ih,
      List.length_append, List.length_singleton, pow_succ]
    ring

theorem ofBigEndian_cons (b : UInt8) (bs : Bytes) :
    ofBigEndian (b :: bs) = b.toNat * 256 ^ bs.length + ofBigEndian bs := by
  rw [← ofBigEndian_singleton b, ← ofBigEndian_append, List.singleton_append]

theorem ofBigEndian_reverse (bs : Bytes) :
    ofBigEndian bs.reverse = Nat.ofDigits 256 (bs.map UInt8.toNat) := by
  induction bs with
  | nil => rfl
  | cons b bs ih =>
    rw [List.reverse_cons, ofBigEndian_append_singleton, ih, List.map_cons, Nat.ofDigits_cons]
    omega

theorem ofBigEndian_lt (bs : Bytes) : ofBigEndian bs < 256 ^ bs.length := by
  induction bs with
  | nil => exact Nat.one_pos
  | cons b bs ih =>
    rw [ofBigEndian_cons, List.length_cons, pow_succ]
    have hb : b.toNat + 1 ≤ 256 := b.toNat_lt
    have hmul := Nat.mul_le_mul_right (256 ^ bs.length) hb
    rw [Nat.add_mul, Nat.one_mul] at hmul
    omega

/-- The digits of a number, the highest first. Zero has none. -/
def bigEndian (n : Nat) : Bytes := ((Nat.digits 256 n).map UInt8.ofNat).reverse

theorem ofBigEndian_bigEndian (n : Nat) : ofBigEndian (bigEndian n) = n := by
  have hdigits : ((Nat.digits 256 n).map UInt8.ofNat).map UInt8.toNat = Nat.digits 256 n := by
    rw [List.map_map, List.map_congr_left (g := id), List.map_id]
    intro d hd
    exact UInt8.toNat_ofNat_of_lt' (Nat.digits_lt_base (by decide) hd)
  rw [bigEndian, ofBigEndian_reverse, hdigits, Nat.ofDigits_digits]

theorem length_bigEndian_le_iff {n k : Nat} : (bigEndian n).length ≤ k ↔ n < 256 ^ k := by
  rw [bigEndian, List.length_reverse, List.length_map, Nat.digits_length_le_iff (by decide)]

theorem bigEndian_eq_nil {n : Nat} (h : bigEndian n = []) : n = 0 := by
  rw [← ofBigEndian_bigEndian n, h]
  rfl

theorem head_bigEndian_ne_zero {n : Nat} {b : UInt8} {bs : Bytes} (h : bigEndian n = b :: bs) :
    b ≠ 0 := by
  rintro rfl
  -- Without the zero there are fewer digits, but not fewer than the number needs.
  have hvalue : ofBigEndian bs = n := by
    rw [← ofBigEndian_bigEndian n, h, ofBigEndian_cons, UInt8.toNat_zero, Nat.zero_mul, Nat.zero_add]
  have hshort : (bigEndian n).length ≤ bs.length :=
    length_bigEndian_le_iff.mpr (hvalue ▸ ofBigEndian_lt bs)
  rw [h, List.length_cons] at hshort
  omega

/-! ## Integers -/

/-- The content of an integer that is not negative: its digits, one at least, after a zero if the
first one has the bit of the sign. -/
def integerOctets (n : Nat) : Bytes :=
  match bigEndian n with
  | [] => [0]
  | b :: bs => if b < 0x80 then b :: bs else 0 :: b :: bs

theorem ofBigEndian_integerOctets (n : Nat) : ofBigEndian (integerOctets n) = n := by
  rw [integerOctets]
  split
  · rename_i h
    rw [bigEndian_eq_nil h]
    rfl
  · rename_i b bs h
    have hvalue : ofBigEndian (b :: bs) = n := by rw [← h, ofBigEndian_bigEndian]
    split
    · exact hvalue
    · rw [ofBigEndian_cons, hvalue, UInt8.toNat_zero, Nat.zero_mul, Nat.zero_add]

theorem isShortest_integerOctets (n : Nat) : isShortest (integerOctets n) = true := by
  rw [integerOctets]
  split
  · rfl
  · rename_i b bs h
    have hb := head_bigEndian_ne_zero h
    split
    · rename_i hsmall
      cases bs with
      | nil => rfl
      | cons c cs =>
        have hsign : b ≠ 0xFF := by
          rintro rfl
          exact absurd hsmall (by decide)
        simp [isShortest, hb, hsign]
    · rename_i hlarge
      simp [isShortest, hlarge]

end NetKit.Der
