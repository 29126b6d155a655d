import Mathlib.Data.List.Induction
import Mathlib.Data.Nat.Bitwise
import Mathlib.Tactic.IntervalCases
import NetKit.Address.Subnet

/-!
# Leading bits

What octets share and what is cleared of them is told of their bits, the most significant first. The
bits of a word are those of its octets, and a word is a mask when ones stand before zeros in it.
-/

namespace NetKit

variable {w n : Nat} {x y : UInt8} {bs xs ys : List UInt8}

/-! ## One octet -/

theorem octet_eq_iff_testBit :
    x = y ↔ ∀ k < 8, x.toNat.testBit (7 - k) = y.toNat.testBit (7 - k) := by
  refine ⟨fun h k _ => by rw [h], fun h => UInt8.toNat_inj.mp (Nat.eq_of_testBit_eq fun i => ?_)⟩
  rcases Nat.lt_or_ge i 8 with hi | hi
  · simpa [show 7 - (7 - i) = i by omega] using h (7 - i) (by omega)
  · have hlt (z : UInt8) : z.toNat < 2 ^ i :=
      z.toNat_lt.trans_le (Nat.pow_le_pow_right (by decide) hi)
    rw [Nat.testBit_lt_two_pow (hlt x), Nat.testBit_lt_two_pow (hlt y)]

theorem testBit_leadingMask {k : Nat} (hn : 0 < n) (hlt : n < 8) (hk : k < 8) :
    (leadingMask n).toNat.testBit (7 - k) = decide (k < n) := by
  interval_cases n <;> interval_cases k <;> rfl

theorem testBit_and_leadingMask {k : Nat} (hn : 0 < n) (hlt : n < 8) (hk : k < 8) (x : UInt8) :
    (x &&& leadingMask n).toNat.testBit (7 - k) = (decide (k < n) && x.toNat.testBit (7 - k)) := by
  rw [UInt8.toNat_and, Nat.testBit_and, testBit_leadingMask hn hlt hk, Bool.and_comm]

theorem and_leadingMask_eq_iff (hn : 0 < n) (hlt : n < 8) :
    x &&& leadingMask n = y &&& leadingMask n ↔
      ∀ k < n, x.toNat.testBit (7 - k) = y.toNat.testBit (7 - k) := by
  rw [octet_eq_iff_testBit]
  constructor
  · intro h k hk
    have hbit := h k (hk.trans hlt)
    rw [testBit_and_leadingMask hn hlt (hk.trans hlt),
      testBit_and_leadingMask hn hlt (hk.trans hlt)] at hbit
    simpa [hk] using hbit
  · intro h k hk
    rw [testBit_and_leadingMask hn hlt hk, testBit_and_leadingMask hn hlt hk]
    by_cases hkn : k < n
    · rw [h k hkn]
    · simp [hkn]

/-! ## Rows of octets -/

/-- The `i`th bit of octets; there are zeros after the last. -/
def bitAt (bs : List UInt8) (i : Nat) : Bool := (bs[i / 8]?.getD 0).toNat.testBit (7 - i % 8)

theorem bitAt_of_le {i : Nat} (h : 8 * bs.length ≤ i) : bitAt bs i = false := by
  have hnone : bs[i / 8]? = none := List.getElem?_eq_none (by omega)
  rw [bitAt, hnone]
  exact Nat.zero_testBit _

theorem bitAt_mul_add {i k : Nat} (hk : k < 8) :
    bitAt bs (8 * i + k) = (bs[i]?.getD 0).toNat.testBit (7 - k) := by
  rw [bitAt, Nat.mul_add_mod, Nat.mod_eq_of_lt hk, Nat.mul_add_div (by decide),
    Nat.div_eq_of_lt hk, Nat.add_zero]

theorem getElem?_eq_iff_bitAt {i : Nat} (hx : i < xs.length) (hy : i < ys.length) :
    xs[i]? = ys[i]? ↔ ∀ k < 8, bitAt xs (8 * i + k) = bitAt ys (8 * i + k) := by
  rw [List.getElem?_eq_getElem hx, List.getElem?_eq_getElem hy, Option.some_inj,
    octet_eq_iff_testBit]
  refine forall₂_congr fun k hk => ?_
  rw [bitAt_mul_add hk, bitAt_mul_add hk, List.getElem?_eq_getElem hx, List.getElem?_eq_getElem hy]
  rfl

theorem take_eq_take_iff_bitAt (hx : n ≤ xs.length) (hy : n ≤ ys.length) :
    xs.take n = ys.take n ↔ ∀ i < 8 * n, bitAt xs i = bitAt ys i := by
  have hrow : xs.take n = ys.take n ↔ ∀ i < n, xs[i]? = ys[i]? := by
    rw [List.ext_getElem?_iff]
    simp only [List.getElem?_take]
    refine ⟨fun h i hi => by simpa [hi] using h i, fun h i => ?_⟩
    split
    · exact h i ‹_›
    · rfl
  rw [hrow]
  constructor
  · intro h i hi
    have hoctet := (getElem?_eq_iff_bitAt (by omega) (by omega)).mp (h (i / 8) (by omega))
    simpa [Nat.div_add_mod] using hoctet (i % 8) (Nat.mod_lt i (by decide))
  · intro h i hi
    exact (getElem?_eq_iff_bitAt (by omega) (by omega)).mpr fun k hk => h _ (by omega)

theorem eq_iff_bitAt (h : xs.length = ys.length) :
    xs = ys ↔ ∀ i < 8 * xs.length, bitAt xs i = bitAt ys i := by
  rw [← take_eq_take_iff_bitAt le_rfl h.le, List.take_length, h, List.take_length]

/-! ## Leading bits -/

theorem bitAt_clearBits (n : Nat) (bs : List UInt8) (i : Nat) :
    bitAt (clearBits n bs) i = (decide (i < n) && bitAt bs i) := by
  have hk : i % 8 < 8 := Nat.mod_lt i (by decide)
  rw [bitAt, bitAt, clearBits, List.getElem?_mapIdx]
  cases hb : bs[i / 8]? with
  | none => simp
  | some b =>
    simp only [Option.map_some, Option.getD_some]
    split
    · simp [show ¬ i < n by omega]
    · split
      · have hiff : i % 8 < n - 8 * (i / 8) ↔ i < n := by omega
        rw [testBit_and_leadingMask (by omega) ‹_› hk]
        simp only [hiff]
      · simp [show i < n by omega]

theorem length_clearBits (n : Nat) (bs : List UInt8) : (clearBits n bs).length = bs.length :=
  List.length_mapIdx

theorem and_leadingMask_eq_iff_bitAt {i : Nat} (hx : i < xs.length) (hy : i < ys.length)
    (hn : 0 < n) (hlt : n < 8) :
    xs[i] &&& leadingMask n = ys[i] &&& leadingMask n ↔
      ∀ k < n, bitAt xs (8 * i + k) = bitAt ys (8 * i + k) := by
  rw [and_leadingMask_eq_iff hn hlt]
  refine forall₂_congr fun k hk => ?_
  rw [bitAt_mul_add (hk.trans hlt), bitAt_mul_add (hk.trans hlt), List.getElem?_eq_getElem hx,
    List.getElem?_eq_getElem hy]
  rfl

/-- The first bits are those of whole octets and some of one more. -/
theorem forall_lt_iff_octets {p : Nat → Prop} :
    (∀ i < n, p i) ↔ (∀ i < 8 * (n / 8), p i) ∧ ∀ k < n % 8, p (8 * (n / 8) + k) := by
  refine ⟨fun h => ⟨fun i hi => h i (by omega), fun k hk => h _ (by omega)⟩, fun h i hi => ?_⟩
  rcases Nat.lt_or_ge i (8 * (n / 8)) with hlt | hge
  · exact h.1 i hlt
  · obtain ⟨k, rfl⟩ := Nat.exists_eq_add_of_le hge
    exact h.2 k (by omega)

/-- There is an answer as long as there are so many bits, and it is right. -/
theorem sharesBits?_eq_some (hx : n ≤ 8 * xs.length) (hy : n ≤ 8 * ys.length) :
    sharesBits? xs ys n = some (decide (∀ i < n, bitAt xs i = bitAt ys i)) := by
  have hwhole : xs.take (n / 8) = ys.take (n / 8) ↔ _ :=
    take_eq_take_iff_bitAt (by omega) (by omega)
  rw [sharesBits?, if_neg (by omega : ¬ (xs.length < n / 8 ∨ ys.length < n / 8))]
  simp only [forall_lt_iff_octets (n := n), ← hwhole]
  by_cases hfront : xs.take (n / 8) = ys.take (n / 8)
  · rw [if_neg (not_not.mpr hfront)]
    by_cases hrest : n % 8 = 0
    · simp [hrest, hfront]
    · have hi : n / 8 < xs.length := by omega
      have hi' : n / 8 < ys.length := by omega
      have hlast := and_leadingMask_eq_iff_bitAt hi hi' (Nat.pos_of_ne_zero hrest)
        (Nat.mod_lt n (by decide))
      rw [if_neg hrest, List.getElem?_eq_getElem hi, List.getElem?_eq_getElem hi']
      simp [← hlast, hfront, beq_eq_decide]
  · simp [hfront]

/-! ## Words -/

theorem length_octetsOf (x : BitVec w) : (octetsOf x).length = w / 8 := by
  rw [octetsOf, List.length_map, List.length_range]

theorem bitAt_octetsOf (hw : 8 ∣ w) (x : BitVec w) (i : Nat) :
    bitAt (octetsOf x) i = x.getMsbD i := by
  rcases Nat.lt_or_ge i w with hi | hi
  · have hoctet :
        (octetsOf x)[i / 8]? = some (UInt8.ofNat (x.toNat >>> (w - 8 * (i / 8 + 1)))) := by
      rw [octetsOf, List.getElem?_map, List.getElem?_range (by omega), Option.map_some]
    have hplace : w - 8 * (i / 8 + 1) + (7 - i % 8) = w - 1 - i := by omega
    rw [bitAt, hoctet, Option.getD_some, UInt8.toNat_ofNat', Nat.testBit_mod_two_pow,
      Nat.testBit_shiftRight, BitVec.testBit_toNat, hplace, BitVec.getMsbD_eq_getLsbD,
      decide_eq_true hi, decide_eq_true (by omega : 7 - i % 8 < 8)]
  · rw [BitVec.getMsbD_of_ge x i hi, bitAt_of_le (by rw [length_octetsOf]; omega)]

/-- The number that octets are the digits of has their bits. -/
theorem testBit_foldl_octets (bs : List UInt8) {i : Nat} (hi : i < 8 * bs.length) :
    (bs.foldl (fun n (b : UInt8) => n * 256 + b.toNat) 0).testBit (8 * bs.length - 1 - i) =
      bitAt bs i := by
  -- The last octet gives the lowest eight bits of the number.
  induction bs using List.reverseRecOn with
  | nil => cases hi
  | append_singleton bs b ih =>
    have hstep (n : Nat) : n * 256 + b.toNat = 2 ^ 8 * n + b.toNat := by omega
    rw [List.length_append, List.length_singleton] at hi ⊢
    rw [List.foldl_append, List.foldl_cons, List.foldl_nil, hstep,
      Nat.testBit_two_pow_mul_add _ b.toNat_lt]
    split
    · have hlast : i / 8 = bs.length := by omega
      rw [bitAt, hlast, List.getElem?_concat_length, Option.getD_some]
      congr 1
      omega
    · have hplace : 8 * (bs.length + 1) - 1 - i - 8 = 8 * bs.length - 1 - i := by omega
      rw [hplace, ih (by omega), bitAt, bitAt, List.getElem?_append_left (by omega)]

theorem getMsbD_wordOf (h : 8 * bs.length = w) (i : Nat) :
    (wordOf bs : BitVec w).getMsbD i = bitAt bs i := by
  rcases Nat.lt_or_ge i w with hi | hi
  · rw [BitVec.getMsbD_eq_getLsbD, wordOf, BitVec.getLsbD_ofNat,
      ← testBit_foldl_octets bs (by omega), h, decide_eq_true hi,
      decide_eq_true (by omega : w - 1 - i < w), Bool.true_and, Bool.true_and]
  · rw [BitVec.getMsbD_of_ge _ i hi, bitAt_of_le (by omega)]

theorem getMsbD_clearHostBits (hw : 8 ∣ w) (x : BitVec w) (n i : Nat) :
    (clearHostBits x n).getMsbD i = (decide (i < n) && x.getMsbD i) := by
  have hlength : 8 * (clearBits n (octetsOf x)).length = w := by
    rw [length_clearBits, length_octetsOf]
    omega
  rw [clearHostBits, getMsbD_wordOf hlength, bitAt_clearBits, bitAt_octetsOf hw]

/-! ## Masks -/

/-- The word is `n` ones with zeros after them. -/
def IsMask (x : BitVec w) (n : Nat) : Prop := n ≤ w ∧ ∀ i < w, x.getMsbD i = decide (i < n)

theorem IsMask.getMsbD {x : BitVec w} (h : IsMask x n) (i : Nat) :
    x.getMsbD i = decide (i < n) := by
  rcases Nat.lt_or_ge i w with hi | hi
  · exact h.2 i hi
  · rw [BitVec.getMsbD_of_ge x i hi, decide_eq_false (by have := h.1; omega)]

theorem leadingOnesCount_eq_findIdx (x : BitVec w) :
    leadingOnesCount x = (List.range w).findIdx fun i => !x.getMsbD i := by
  rw [leadingOnesCount, List.takeWhile_eq_take_findIdx_not, List.length_take,
    min_eq_left List.findIdx_le_length]

theorem leadingOnesCount_le (x : BitVec w) : leadingOnesCount x ≤ w := by
  rw [leadingOnesCount_eq_findIdx]
  exact List.findIdx_le_length.trans_eq List.length_range

theorem getMsbD_of_lt_leadingOnesCount {x : BitVec w} {i : Nat} (h : i < leadingOnesCount x) :
    x.getMsbD i = true := by
  rw [leadingOnesCount_eq_findIdx] at h
  simpa using List.not_of_lt_findIdx h

theorem getMsbD_leadingOnesCount (x : BitVec w) : x.getMsbD (leadingOnesCount x) = false := by
  rcases Nat.lt_or_ge (leadingOnesCount x) w with h | h
  · rw [leadingOnesCount_eq_findIdx] at h ⊢
    have hfind : (List.range w).findIdx (fun i => !x.getMsbD i) < (List.range w).length := by
      rwa [List.length_range]
    simpa using List.findIdx_getElem (w := hfind)
  · exact BitVec.getMsbD_of_ge x _ h

theorem leadingOnesCount_eq {x : BitVec w} (h : IsMask x n) : leadingOnesCount x = n := by
  rcases Nat.lt_trichotomy (leadingOnesCount x) n with hlt | heq | hgt
  · have hone := h.getMsbD (leadingOnesCount x)
    rw [getMsbD_leadingOnesCount, decide_eq_true hlt] at hone
    cases hone
  · exact heq
  · have hzero := h.getMsbD n
    rw [getMsbD_of_lt_leadingOnesCount hgt, decide_eq_false (lt_irrefl n)] at hzero
    cases hzero

theorem shiftLeft_eq_zero_iff {x : BitVec w} : x <<< n = 0 ↔ ∀ i, n ≤ i → x.getMsbD i = false := by
  constructor
  · intro h i hi
    have hbit := congrArg (BitVec.getMsbD · (i - n)) h
    simpa [Nat.sub_add_cancel hi] using hbit
  · intro h
    refine BitVec.eq_of_getMsbD_eq fun i _ => ?_
    rw [BitVec.getMsbD_shiftLeft, h _ (Nat.le_add_left n i)]
    simp

theorem contiguous?_eq_some_iff {x : BitVec w} : contiguous? x = some n ↔ IsMask x n := by
  simp only [contiguous?, Option.ite_none_right_eq_some, shiftLeft_eq_zero_iff, Option.some.injEq]
  constructor
  · rintro ⟨hzeros, rfl⟩
    refine ⟨leadingOnesCount_le x, fun i _ => ?_⟩
    by_cases hi : i < leadingOnesCount x
    · rw [getMsbD_of_lt_leadingOnesCount hi, decide_eq_true hi]
    · rw [hzeros i (Nat.le_of_not_lt hi), decide_eq_false hi]
  · intro h
    rw [leadingOnesCount_eq h]
    exact ⟨fun i hi => by rw [h.getMsbD, decide_eq_false (Nat.not_lt.mpr hi)], rfl⟩

end NetKit
