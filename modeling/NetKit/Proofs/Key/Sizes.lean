import Mathlib.Data.Nat.Size
import NetKit.Key
import NetKit.Proofs.Der.Numbers

/-!
# Binary digits of octets

What `integerBits` counts is the binary digits of the number that the octets make up, so zeros in
front do not count. Words of 32 bits with a sign count the same as long as there are fewer than 2³¹.
-/

namespace NetKit.Key

open Der (ofBigEndian integerOctets)

theorem ofBigEndian_dropWhile (bs : Bytes) : ofBigEndian (bs.dropWhile (· == 0)) = ofBigEndian bs := by
  induction bs with
  | nil => rfl
  | cons b bs ih =>
    by_cases hb : b = 0
    · rw [List.dropWhile_cons_of_pos (by simpa using hb), ih, hb, Der.ofBigEndian_cons]
      simp
    · rw [List.dropWhile_cons_of_neg (by simpa using hb)]

/-- The binary digits of a number are those of its first octet, and eight for each of the others. -/
theorem size_ofBigEndian {b : UInt8} (hb : b ≠ 0) (bs : Bytes) :
    (ofBigEndian (b :: bs)).size = bs.length * 8 + (Nat.log2 b.toNat + 1) := by
  have hpos : b.toNat ≠ 0 := fun h => hb (UInt8.toNat_inj.mp h)
  have hpow : 256 ^ bs.length = 2 ^ (bs.length * 8) := by
    rw [Nat.mul_comm, pow_mul]
    norm_num
  have hrest := Der.ofBigEndian_lt bs
  rw [hpow] at hrest
  rw [Der.ofBigEndian_cons, hpow]
  apply Nat.le_antisymm
  · rw [Nat.size_le, pow_add]
    have hhigh : b.toNat + 1 ≤ 2 ^ (Nat.log2 b.toNat + 1) := Nat.lt_log2_self
    have hmul := Nat.mul_le_mul_left (2 ^ (bs.length * 8)) hhigh
    rw [Nat.mul_add, Nat.mul_one, Nat.mul_comm] at hmul
    omega
  · rw [← Nat.add_assoc, Nat.add_one_le_iff, Nat.lt_size, pow_add]
    have hmul := Nat.mul_le_mul_left (2 ^ (bs.length * 8)) (Nat.log2_self_le hpos)
    rw [Nat.mul_comm _ b.toNat] at hmul
    omega

theorem ne_zero_of_dropWhile {bs rest : Bytes} {b : UInt8}
    (h : bs.dropWhile (· == 0) = b :: rest) : b ≠ 0 := by
  rintro rfl
  have hfirst := List.head?_dropWhile_not (· == (0 : UInt8)) bs
  simp [h] at hfirst

theorem integerBits_eq_size (bs : Bytes) : integerBits bs = (ofBigEndian bs).size := by
  rw [← ofBigEndian_dropWhile, integerBits]
  cases h : bs.dropWhile (· == 0) with
  | nil => rfl
  | cons b rest => exact (size_ofBigEndian (ne_zero_of_dropWhile h) rest).symm

theorem integerBits_integerOctets (n : Nat) : integerBits (integerOctets n) = n.size := by
  rw [integerBits_eq_size, Der.ofBigEndian_integerOctets]

theorem integerBits_le (bs : Bytes) : integerBits bs ≤ 8 * bs.length := by
  rw [integerBits_eq_size, Nat.size_le, pow_mul]
  exact Der.ofBigEndian_lt bs

theorem size_le_integerOctets (n : Nat) : n.size ≤ 8 * (integerOctets n).length := by
  rw [← integerBits_integerOctets]
  exact integerBits_le _

theorem length_digits_two (n : Nat) : (Nat.digits 2 n).length = n.size := by
  rw [Nat.digits_two_eq_bits, List.length_map, Nat.size_eq_bits_len]

theorem integerBits_replicate_append (k : Nat) (bs : Bytes) :
    integerBits (List.replicate k 0 ++ bs) = integerBits bs := by
  have hfront : (List.replicate k 0 ++ bs).dropWhile (· == (0 : UInt8)) = bs.dropWhile (· == 0) :=
    List.dropWhile_append_of_pos fun b hb => by simpa using List.eq_of_mem_replicate hb
  rw [integerBits, hfront, integerBits]

theorem integerBits_mono {bs cs : Bytes} (h : ofBigEndian bs ≤ ofBigEndian cs) :
    integerBits bs ≤ integerBits cs := by
  rw [integerBits_eq_size, integerBits_eq_size]
  exact Nat.size_le_size h

/-! ## Words -/

/-- The count in words of 32 bits with a sign: eight for each octet behind the first that is not
zero, and the bits of that one without its leading zeros. What does not fit wraps around. -/
def integerBits32 (bs : Bytes) : Int32 :=
  match bs.dropWhile (· == 0) with
  | [] => 0
  | b :: rest => Int32.ofNat (rest.length * 8) + (8 - Int32.ofNat b.toBitVec.clz.toNat)

/-- Leading zeros and binary digits fill an octet. -/
theorem clz_add_digits {b : UInt8} (hb : b ≠ 0) :
    b.toBitVec.clz.toNat + (Nat.log2 b.toNat + 1) = 8 := by
  have hbits : b.toBitVec ≠ 0#8 := fun h => hb (UInt8.toBitVec_inj.mp h)
  have hpos : b.toNat ≠ 0 := fun h => hb (UInt8.toNat_inj.mp h)
  have hzeros : b.toBitVec.clz.toNat < 8 := BitVec.clz_lt_iff_ne_zero.mpr hbits
  have hlog : Nat.log2 b.toNat = 7 - b.toBitVec.clz.toNat := by
    rw [Nat.log2_eq_iff hpos]
    constructor
    · exact BitVec.two_pow_sub_clz_le_toNat_of_ne_zero (by decide) hbits
    · have hlt := BitVec.toNat_lt_two_pow_sub_clz (x := b.toBitVec)
      rwa [show 7 - b.toBitVec.clz.toNat + 1 = 8 - b.toBitVec.clz.toNat by omega]
  omega

theorem integerBits32_eq_ofNat (bs : Bytes) : integerBits32 bs = Int32.ofNat (integerBits bs) := by
  rw [integerBits32, integerBits]
  cases h : bs.dropWhile (· == 0) with
  | nil => rfl
  | cons b rest =>
    have hfirst : 8 - Int32.ofNat b.toBitVec.clz.toNat = Int32.ofNat (Nat.log2 b.toNat + 1) := by
      have hfill := congrArg Int32.ofNat (clz_add_digits (ne_zero_of_dropWhile h))
      rw [Int32.ofNat_add, Int32.add_comm] at hfill
      change Int32.ofNat 8 - _ = _
      rw [← hfill, Int32.add_sub_cancel]
    change Int32.ofNat (rest.length * 8) + (8 - Int32.ofNat b.toBitVec.clz.toNat) =
      Int32.ofNat (rest.length * 8 + (Nat.log2 b.toNat + 1))
    rw [hfirst, ← Int32.ofNat_add]

theorem toInt_integerBits32_iff {bs : Bytes} :
    (integerBits32 bs).toInt = integerBits bs ↔ integerBits bs < 2 ^ 31 := by
  rw [integerBits32_eq_ofNat]
  constructor
  · intro h
    have hlt := Int32.toInt_lt (Int32.ofNat (integerBits bs))
    omega
  · exact Int32.toInt_ofNat_of_lt

/-- The bits of octets are the binary digits of their number, none for zero. Zeros in front add none,
and a number that is not smaller has no fewer. Words of 32 bits with a sign count the bits of less
than 256 MiB exactly. -/
theorem integerBits_counts_binary_digits (bs : Bytes) :
    integerBits bs = (Nat.digits 2 (ofBigEndian bs)).length ∧
    (∀ k, integerBits (List.replicate k 0 ++ bs) = integerBits bs) ∧
    (∀ cs, ofBigEndian bs ≤ ofBigEndian cs → integerBits bs ≤ integerBits cs) ∧
    (bs.length < 2 ^ 28 → (integerBits32 bs).toInt = integerBits bs) := by
  refine ⟨?_, fun k => integerBits_replicate_append k bs, fun _ => integerBits_mono, ?_⟩
  · rw [length_digits_two]
    exact integerBits_eq_size bs
  · intro hshort
    have hbits := integerBits_le bs
    exact toInt_integerBits32_iff.mpr (by omega)

theorem integerBits_at_byte_boundary :
    ofBigEndian [0x00, 0xFF] ≤ ofBigEndian [0x01, 0x00] ∧
    integerBits [0x00, 0xFF] ≤ integerBits [0x01, 0x00] ∧
    integerBits [0x00, 0x00, 0x00, 0xFF] = integerBits [0x00, 0xFF] ∧
    integerBits [0x00, 0xFF] = 8 ∧ (integerBits32 [0x00, 0xFF]).toInt = 8 := by
  have hle : ofBigEndian [0x00, 0xFF] ≤ ofBigEndian [0x01, 0x00] := by decide
  have hlength : ([0x00, 0xFF] : Bytes).length < 2 ^ 28 := by decide
  obtain ⟨hdigits, hzeros, hmono, hword⟩ := integerBits_counts_binary_digits [0x00, 0xFF]
  have hbits : integerBits [0x00, 0xFF] = 8 := by simpa [ofBigEndian] using hdigits
  exact ⟨hle, hmono _ hle, hzeros 2, hbits, by rw [hword hlength, hbits]; rfl⟩

end NetKit.Key
