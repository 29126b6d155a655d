import Mathlib.Data.Nat.Bitwise
import NetKit.Address.Class
import NetKit.Proofs.Address.Ip
import NetKit.Proofs.Subnet.Membership

/-!
# Classes of addresses as networks

Which class an address is of is told by the networks that contain it, in whatever order they are
looked at; an IPv4-mapped address is of the classes of its IPv4 address.
-/

namespace NetKit

open Subnet (contains)

/-! ## Leading bits as numbers -/

theorem shares_bits_iff_div {w n : Nat} (hn : n ≤ w) (x y : BitVec w) :
    (∀ i < n, x.getMsbD i = y.getMsbD i) ↔ x.toNat / 2 ^ (w - n) = y.toNat / 2 ^ (w - n) := by
  have hbit (z : BitVec w) {i : Nat} (hi : i < n) :
      (z.toNat / 2 ^ (w - n)).testBit (n - 1 - i) = z.getMsbD i := by
    have hplace : n - 1 - i + (w - n) = w - 1 - i := by omega
    rw [Nat.testBit_div_two_pow, hplace, BitVec.testBit_toNat, BitVec.getMsbD_eq_getLsbD,
      decide_eq_true (hi.trans_le hn), Bool.true_and]
  have hhigh (z : BitVec w) {j : Nat} (hj : n ≤ j) : (z.toNat / 2 ^ (w - n)).testBit j = false := by
    rw [Nat.testBit_div_two_pow, BitVec.testBit_toNat, BitVec.getLsbD_of_ge z _ (by omega)]
  constructor
  · intro h
    refine Nat.eq_of_testBit_eq fun j => ?_
    rcases Nat.lt_or_ge j n with hj | hj
    · have hplace : n - 1 - (n - 1 - j) = j := by omega
      rw [← hplace, hbit x (by omega), hbit y (by omega), h _ (by omega)]
    · rw [hhigh x hj, hhigh y hj]
  · intro h i hi
    rw [← hbit x hi, ← hbit y hi, h]

/-- A number of sixteen bits without its last `k`. -/
theorem and_leadingBits {s k : Nat} (hs : s < 2 ^ 16) (hk : k ≤ 16) :
    s &&& ((2 ^ (16 - k) - 1) <<< k) = s / 2 ^ k * 2 ^ k := by
  rw [← Nat.shiftRight_eq_div_pow, ← Nat.shiftLeft_eq]
  refine Nat.eq_of_testBit_eq fun i => ?_
  rw [Nat.testBit_and, Nat.testBit_shiftLeft, Nat.testBit_shiftLeft, Nat.testBit_shiftRight,
    Nat.testBit_two_pow_sub_one]
  by_cases hi : k ≤ i
  · have hhigh : 16 ≤ i → s.testBit i = false := fun h =>
      Nat.testBit_lt_two_pow (hs.trans_le (Nat.pow_le_pow_right (by decide) h))
    rw [decide_eq_true hi, Nat.add_sub_cancel' hi, Bool.true_and, Bool.true_and]
    by_cases hlt : i < 16
    · rw [decide_eq_true (by omega), Bool.and_true]
    · rw [hhigh (Nat.le_of_not_lt hlt), Bool.false_and]
  · rw [decide_eq_false hi, Bool.false_and, Bool.false_and, Bool.and_false]

theorem and_leadingBits_eq_iff {s k c : Nat} (hs : s < 2 ^ 16) (hk : k ≤ 16) :
    s &&& ((2 ^ (16 - k) - 1) <<< k) = c * 2 ^ k ↔ s / 2 ^ k = c := by
  rw [and_leadingBits hs hk, Nat.mul_left_inj (Nat.two_pow_pos k).ne']

/-! ## Networks -/

def Subnet.v4 (a b c d n : Nat) : Subnet := ⟨.ofIpv4 (.ofOctets a b c d), n⟩

/-- The base is zero after its first group. -/
def Subnet.v6 (s n : Nat) : Subnet := ⟨.ofIpv6 (.ofSegments [s, 0, 0, 0, 0, 0, 0, 0]), n⟩

theorem toNat_firstSegment {s : Nat} (hs : s < 2 ^ 16) :
    (Ipv6.ofSegments [s, 0, 0, 0, 0, 0, 0, 0]).toNat = s * 2 ^ 112 := by
  have hlt : s * 2 ^ 112 < 2 ^ 128 := by omega
  simp only [Ipv6.ofSegments, List.foldl_cons, List.foldl_nil, BitVec.toNat_ofNat, Nat.zero_mul,
    Nat.zero_add, Nat.add_zero, Nat.mul_assoc, Nat.reduceMul, Nat.reducePow] at hlt ⊢
  exact Nat.mod_eq_of_lt hlt

namespace Address

/-- Whether one of the networks contains the address. -/
def isIn (a : Address) (networks : List Subnet) : Bool :=
  networks.any fun s => contains s.base s.length a

variable {a : Address} {scope : String} {n : Nat} {networks : List Subnet}

theorem contains_v4_iff {ip base : Ipv4} (hn : n ≤ 32) :
    contains (.ofIpv4 base) n ⟨.v4 ip, scope⟩ = true ↔
      ip.toNat / 2 ^ (32 - n) = base.toNat / 2 ^ (32 - n) := by
  rw [Subnet.contains_iff, ← shares_bits_iff_div hn]
  constructor
  · rintro ⟨w, _, _, _, _, h⟩
    exact h
  · exact fun h => ⟨32, rfl, rfl, Int.natCast_nonneg n, Int.ofNat_le.mpr hn, h⟩

theorem contains_v6_iff {ip base : Ipv6} (hn : n ≤ 128) :
    contains (.ofIpv6 base) n ⟨.v6 ip, scope⟩ = true ↔
      ip.toNat / 2 ^ (128 - n) = base.toNat / 2 ^ (128 - n) := by
  rw [Subnet.contains_iff, ← shares_bits_iff_div hn]
  constructor
  · rintro ⟨w, _, _, _, _, h⟩
    exact h
  · exact fun h => ⟨128, rfl, rfl, Int.natCast_nonneg n, Int.ofNat_le.mpr hn, h⟩

theorem isIn_nil : a.isIn [] = true ↔ False := by
  simp [isIn]

theorem isIn_cons {s : Subnet} :
    a.isIn (s :: networks) = true ↔ contains s.base s.length a = true ∨ a.isIn networks = true := by
  rw [isIn, List.any_cons, Bool.or_eq_true]
  rfl

theorem isIn_v4 {ip : Ipv4} {b c d e : Nat} (hn : n ≤ 32) :
    (Address.mk (.v4 ip) scope).isIn (.v4 b c d e n :: networks) = true ↔
      ip.toNat / 2 ^ (32 - n) = (((b * 256 + c) * 256 + d) * 256 + e) % 2 ^ 32 / 2 ^ (32 - n) ∨
        (Address.mk (.v4 ip) scope).isIn networks = true := by
  rw [isIn_cons, Subnet.v4, contains_v4_iff hn, Ipv4.ofOctets, BitVec.toNat_ofNat]

theorem isIn_v6 {ip : Ipv6} {s : Nat} (hn : n ≤ 128) (hs : s < 2 ^ 16) :
    (Address.mk (.v6 ip) scope).isIn (.v6 s n :: networks) = true ↔
      ip.toNat / 2 ^ (128 - n) = s * 2 ^ 112 / 2 ^ (128 - n) ∨
        (Address.mk (.v6 ip) scope).isIn networks = true := by
  rw [isIn_cons, Subnet.v6, contains_v6_iff hn, toNat_firstSegment hs]

/-! ## Predicates and classes -/

theorem class?_v4 (ip : Ipv4) (scope : String) :
    class? ⟨.v4 ip, scope⟩ = some ip.addressClass := rfl

theorem class?_v6 (ip : Ipv6) (scope : String) :
    class? ⟨.v6 ip, scope⟩ = some ip.addressClass := rfl

theorem isMulticast_iff :
    a.isMulticast = true ↔ ∃ isGlobal, a.class? = some (.multicast isGlobal) := by
  rw [isMulticast]
  split <;> simp_all

theorem isPrivateUse_iff :
    a.isPrivateUse = true ↔ a.class? = some .uniqueLocal ∨ a.class? = some .privateUse := by
  rw [isPrivateUse]
  split <;> simp_all

theorem isGlobal_iff :
    a.isGlobal = true ↔ a.class? = some .global ∨ a.class? = some .siteLocal ∨
      a.class? = some .uniqueLocal ∨ a.class? = some .privateUse ∨
      a.class? = some (.multicast true) := by
  rw [isGlobal]
  split <;> simp_all

end Address

/-! ## IPv4 -/

section Ipv4

variable (ip : Ipv4) (scope : String)

theorem Ipv4.addressClass_eq :
    ip.addressClass =
      if ip.toNat = 0 then .unspecified
      else if ip.toNat = 2 ^ 32 - 1 then .broadcast
      else if ip.toNat / 2 ^ 24 = 127 then .loopback
      else if ip.toNat / 2 ^ 16 = 169 * 256 + 254 then .linkLocal
      else if ip.toNat / 2 ^ 28 = 14 then .multicast (!decide (ip.toNat / 2 ^ 8 = 224 * 2 ^ 16))
      else if 15 ≤ ip.toNat / 2 ^ 28 then .reserved
      else if ip.toNat / 2 ^ 24 = 10 ∨ ip.toNat / 2 ^ 20 = 172 * 16 + 1 ∨
        ip.toNat / 2 ^ 16 = 192 * 256 + 168 then .privateUse
      else .global := by
  have hlt := ip.isLt
  have h0 : ip.octet 0 = ip.toNat / 2 ^ 24 := by
    simp only [octet, Nat.shiftRight_eq_div_pow]
    omega
  have h1 : ip.octet 1 = ip.toNat / 2 ^ 16 % 256 := Nat.shiftRight_eq_div_pow .. ▸ rfl
  have h2 : ip.octet 2 = ip.toNat / 2 ^ 8 % 256 := Nat.shiftRight_eq_div_pow .. ▸ rfl
  have hzero : ip = 0 ↔ ip.toNat = 0 := BitVec.toNat_inj.symm
  have hones : ip = broadcast ↔ ip.toNat = 2 ^ 32 - 1 := BitVec.toNat_inj.symm
  have hloopback : ip.octet 0 = 127 ↔ ip.toNat / 2 ^ 24 = 127 := by omega
  have hlink : ip.octet 0 = 169 ∧ ip.octet 1 = 254 ↔ ip.toNat / 2 ^ 16 = 169 * 256 + 254 := by omega
  have hmulticast : 224 ≤ ip.octet 0 ∧ ip.octet 0 < 240 ↔ ip.toNat / 2 ^ 28 = 14 := by omega
  have hlocal : (ip.octet 0 == 224 && ip.octet 1 == 0 && ip.octet 2 == 0) =
      decide (ip.toNat / 2 ^ 8 = 224 * 2 ^ 16) := by
    rw [Bool.eq_iff_iff]
    simp only [Bool.and_eq_true, beq_iff_eq, decide_eq_true_eq]
    omega
  have hreserved : 240 ≤ ip.octet 0 ↔ 15 ≤ ip.toNat / 2 ^ 28 := by omega
  have hprivate : ip.isPrivate = true ↔ ip.toNat / 2 ^ 24 = 10 ∨
      ip.toNat / 2 ^ 20 = 172 * 16 + 1 ∨ ip.toNat / 2 ^ 16 = 192 * 256 + 168 := by
    simp only [isPrivate, Bool.or_eq_true, Bool.and_eq_true, beq_iff_eq]
    omega
  simp only [addressClass, hzero, hones, hloopback, hlink, hmulticast, hlocal, hreserved, hprivate]

namespace Address

theorem isLoopback_v4 :
    isLoopback ⟨.v4 ip, scope⟩ ↔ isIn ⟨.v4 ip, scope⟩ [.v4 127 0 0 0 8] := by
  -- No network has addresses for which a test ahead of its own holds, so the order does not matter.
  simp only [isLoopback, class?_v4, Ipv4.addressClass_eq, isIn_v4, isIn_nil, Nat.reduceLeDiff]
  split_ifs <;> simp <;> omega

theorem isLinkLocal_v4 :
    isLinkLocal ⟨.v4 ip, scope⟩ ↔ isIn ⟨.v4 ip, scope⟩ [.v4 169 254 0 0 16] := by
  simp only [isLinkLocal, class?_v4, Ipv4.addressClass_eq, isIn_v4, isIn_nil, Nat.reduceLeDiff]
  split_ifs <;> simp <;> omega

theorem isMulticast_v4 :
    isMulticast ⟨.v4 ip, scope⟩ ↔ isIn ⟨.v4 ip, scope⟩ [.v4 224 0 0 0 4] := by
  simp only [isMulticast_iff, class?_v4, Ipv4.addressClass_eq, isIn_v4, isIn_nil, Nat.reduceLeDiff]
  split_ifs <;> simp <;> omega

theorem isBroadcast_v4 :
    isBroadcast ⟨.v4 ip, scope⟩ ↔ ip = .ofOctets 255 255 255 255 := by
  rw [← BitVec.toNat_inj]
  simp only [isBroadcast, class?_v4, Ipv4.addressClass_eq, Ipv4.ofOctets, BitVec.toNat_ofNat]
  split_ifs <;> simp <;> omega

theorem isPrivateUse_v4 :
    isPrivateUse ⟨.v4 ip, scope⟩ ↔
      isIn ⟨.v4 ip, scope⟩ [.v4 10 0 0 0 8, .v4 172 16 0 0 12, .v4 192 168 0 0 16] := by
  simp only [isPrivateUse_iff, class?_v4, Ipv4.addressClass_eq, isIn_v4, isIn_nil, Nat.reduceLeDiff]
  split_ifs <;> simp <;> omega

theorem isGlobal_v4 :
    isGlobal ⟨.v4 ip, scope⟩ ↔
      ¬ isIn ⟨.v4 ip, scope⟩ [.v4 0 0 0 0 32, .v4 127 0 0 0 8, .v4 169 254 0 0 16,
        .v4 224 0 0 0 24, .v4 240 0 0 0 4] := by
  simp only [isGlobal_iff, class?_v4, Ipv4.addressClass_eq, isIn_v4, isIn_nil, Nat.reduceLeDiff]
  split_ifs <;> simp <;> omega

end Address
end Ipv4

/-! ## IPv6 -/

theorem Ipv6.segment_zero (ip : Ipv6) : ip.segment 0 = ip.toNat / 2 ^ 112 := by
  have hlt := ip.isLt
  simp only [segment, Nat.shiftRight_eq_div_pow]
  omega

theorem Ipv6.segment_and_eq_iff (ip : Ipv6) {k c : Nat} (hk : k ≤ 16) :
    ip.segment 0 &&& ((2 ^ (16 - k) - 1) <<< k) = c * 2 ^ k ↔ ip.toNat / 2 ^ (112 + k) = c := by
  rw [and_leadingBits_eq_iff (ip.segment_lt 0) hk, segment_zero, Nat.div_div_eq_div_mul,
    ← Nat.pow_add]

section Ipv6

variable {ip : Ipv6} (h : ∀ v4, ip ≠ Ipv6.ofIpv4 v4) (scope : String)

include h

theorem Ipv6.addressClass_eq :
    ip.addressClass =
      if ip.toNat = 0 then .unspecified
      else if ip.toNat = 1 then .loopback
      else if ip.toNat / 2 ^ 120 = 0xFF then .multicast (decide (ip.toNat / 2 ^ 112 % 16 = 0xE))
      else if ip.toNat / 2 ^ 118 = 0xFE80 / 64 then .linkLocal
      else if ip.toNat / 2 ^ 118 = 0xFEC0 / 64 then .siteLocal
      else if ip.toNat / 2 ^ 121 = 0xFC00 / 512 then .uniqueLocal
      else .global := by
  have hmapped : ip.toIpv4? = none := Option.eq_none_iff_forall_ne_some.mpr fun v4 hv4 =>
    h v4 (toIpv4?_eq_some_iff.mp hv4)
  have hzero : ip = 0 ↔ ip.toNat = 0 := BitVec.toNat_inj.symm
  have hone : ip = localhost ↔ ip.toNat = 1 := BitVec.toNat_inj.symm
  have hscope : (ip.segment 0 &&& 0x000F == 0x000E) = decide (ip.toNat / 2 ^ 112 % 16 = 0xE) := by
    rw [segment_zero, Nat.and_two_pow_sub_one_eq_mod _ 4]
    rfl
  have hmulticast : ip.segment 0 &&& 0xFF00 = 0xFF00 ↔ ip.toNat / 2 ^ 120 = 0xFF :=
    segment_and_eq_iff ip (k := 8) (c := 0xFF) (by decide)
  have hlink : ip.segment 0 &&& 0xFFC0 = 0xFE80 ↔ ip.toNat / 2 ^ 118 = 0xFE80 / 64 :=
    segment_and_eq_iff ip (k := 6) (c := 0xFE80 / 64) (by decide)
  have hsite : ip.segment 0 &&& 0xFFC0 = 0xFEC0 ↔ ip.toNat / 2 ^ 118 = 0xFEC0 / 64 :=
    segment_and_eq_iff ip (k := 6) (c := 0xFEC0 / 64) (by decide)
  have hunique : ip.segment 0 &&& 0xFE00 = 0xFC00 ↔ ip.toNat / 2 ^ 121 = 0xFC00 / 512 :=
    segment_and_eq_iff ip (k := 9) (c := 0xFC00 / 512) (by decide)
  simp only [addressClass, hmapped, hzero, hone, hmulticast, hscope, hlink, hsite, hunique]

namespace Address

theorem isLoopback_v6 : isLoopback ⟨.v6 ip, scope⟩ ↔ ip = 1 := by
  have hone : ip = 1 ↔ ip.toNat = 1 := BitVec.toNat_inj.symm
  simp only [isLoopback, class?_v6, Ipv6.addressClass_eq h, hone]
  split_ifs <;> simp <;> omega

theorem isMulticast_v6 : isMulticast ⟨.v6 ip, scope⟩ ↔ isIn ⟨.v6 ip, scope⟩ [.v6 0xFF00 8] := by
  simp only [isMulticast_iff, class?_v6, Ipv6.addressClass_eq h, isIn_v6, isIn_nil,
    Nat.reduceLeDiff, Nat.reduceLT, Nat.reducePow]
  split_ifs <;> simp <;> omega

theorem isLinkLocal_v6 : isLinkLocal ⟨.v6 ip, scope⟩ ↔ isIn ⟨.v6 ip, scope⟩ [.v6 0xFE80 10] := by
  simp only [isLinkLocal, class?_v6, Ipv6.addressClass_eq h, isIn_v6, isIn_nil, Nat.reduceLeDiff,
    Nat.reduceLT, Nat.reducePow]
  split_ifs <;> simp <;> omega

theorem isSiteLocal_v6 : isSiteLocal ⟨.v6 ip, scope⟩ ↔ isIn ⟨.v6 ip, scope⟩ [.v6 0xFEC0 10] := by
  simp only [isSiteLocal, class?_v6, Ipv6.addressClass_eq h, isIn_v6, isIn_nil, Nat.reduceLeDiff,
    Nat.reduceLT, Nat.reducePow]
  split_ifs <;> simp <;> omega

theorem isUniqueLocal_v6 : isUniqueLocal ⟨.v6 ip, scope⟩ ↔ isIn ⟨.v6 ip, scope⟩ [.v6 0xFC00 7] := by
  simp only [isUniqueLocal, class?_v6, Ipv6.addressClass_eq h, isIn_v6, isIn_nil, Nat.reduceLeDiff,
    Nat.reduceLT, Nat.reducePow]
  split_ifs <;> simp <;> omega

theorem isPrivateUse_v6 : isPrivateUse ⟨.v6 ip, scope⟩ ↔ isUniqueLocal ⟨.v6 ip, scope⟩ := by
  simp only [isPrivateUse_iff, isUniqueLocal, class?_v6, Ipv6.addressClass_eq h]
  split_ifs <;> simp

theorem isGlobal_v6 :
    isGlobal ⟨.v6 ip, scope⟩ ↔
      ¬(ip = 0 ∨ ip = 1 ∨ isIn ⟨.v6 ip, scope⟩ [.v6 0xFE80 10] ∨
        isIn ⟨.v6 ip, scope⟩ [.v6 0xFF00 8] ∧ ip.segment 0 % 16 ≠ 0xE) := by
  have hzero : ip = 0 ↔ ip.toNat = 0 := BitVec.toNat_inj.symm
  have hone : ip = 1 ↔ ip.toNat = 1 := BitVec.toNat_inj.symm
  simp only [isGlobal_iff, class?_v6, Ipv6.addressClass_eq h, isIn_v6, isIn_nil, hzero, hone,
    ip.segment_zero, Nat.reduceLeDiff, Nat.reduceLT, Nat.reducePow]
  split_ifs <;> simp <;> omega

end Address

end Ipv6

/-! ## IPv4-mapped addresses -/

namespace Address

theorem class?_mapped (ip : Ipv4) (scope scope' : String) :
    class? ⟨.v6 (.ofIpv4 ip), scope⟩ = class? ⟨.v4 ip, scope'⟩ := by
  rw [class?_v6, class?_v4, Ipv6.addressClass, Ipv6.toIpv4?_eq_some_iff.mpr rfl]

/-- What can be asked about the class of an address. -/
def predicates : List (Address → Bool) :=
  [isLoopback, isBroadcast, isMulticast, isLinkLocal, isSiteLocal, isUniqueLocal, isPrivateUse,
    isGlobal]

theorem eq_of_class?_eq {a b : Address} (h : a.class? = b.class?) :
    ∀ p ∈ predicates, p a = p b := by
  simp [predicates, isLoopback, isBroadcast, isMulticast, isLinkLocal, isSiteLocal, isUniqueLocal,
    isPrivateUse, isGlobal, h]

/-- The classes of IPv4 addresses and of IPv6 addresses, where these are not IPv4-mapped, are
networks, and global addresses are all but some networks; of IPv6 multicast, those whose scope is
not the global one. IPv4-mapped addresses are told like their IPv4 addresses. -/
theorem classes_are_networks :
    (∀ (ip : Ipv4) (scope : String),
      let a : Address := ⟨.v4 ip, scope⟩
      (a.isLoopback ↔ a.isIn [.v4 127 0 0 0 8]) ∧
      (a.isLinkLocal ↔ a.isIn [.v4 169 254 0 0 16]) ∧
      (a.isMulticast ↔ a.isIn [.v4 224 0 0 0 4]) ∧
      (a.isBroadcast ↔ ip = .ofOctets 255 255 255 255) ∧
      (a.isPrivateUse ↔ a.isIn [.v4 10 0 0 0 8, .v4 172 16 0 0 12, .v4 192 168 0 0 16]) ∧
      (a.isGlobal ↔ ¬ a.isIn [.v4 0 0 0 0 32, .v4 127 0 0 0 8, .v4 169 254 0 0 16,
        .v4 224 0 0 0 24, .v4 240 0 0 0 4])) ∧
    (∀ (ip : Ipv6) (scope : String), (∀ v4, ip ≠ .ofIpv4 v4) →
      let a : Address := ⟨.v6 ip, scope⟩
      (a.isLoopback ↔ ip = 1) ∧
      (a.isMulticast ↔ a.isIn [.v6 0xFF00 8]) ∧
      (a.isLinkLocal ↔ a.isIn [.v6 0xFE80 10]) ∧
      (a.isSiteLocal ↔ a.isIn [.v6 0xFEC0 10]) ∧
      (a.isUniqueLocal ↔ a.isIn [.v6 0xFC00 7]) ∧
      (a.isPrivateUse ↔ a.isUniqueLocal) ∧
      (a.isGlobal ↔ ¬(ip = 0 ∨ ip = 1 ∨ a.isIn [.v6 0xFE80 10] ∨
        a.isIn [.v6 0xFF00 8] ∧ ip.segment 0 % 16 ≠ 0xE))) ∧
    ∀ (ip : Ipv4) (scope scope' : String), ∀ p ∈ predicates,
      p ⟨.v6 (.ofIpv4 ip), scope⟩ = p ⟨.v4 ip, scope'⟩ := by
  refine ⟨fun ip scope => ?_, fun ip scope h => ?_, fun ip scope scope' =>
    eq_of_class?_eq (class?_mapped ip scope scope')⟩
  · exact ⟨isLoopback_v4 ip scope, isLinkLocal_v4 ip scope, isMulticast_v4 ip scope,
      isBroadcast_v4 ip scope, isPrivateUse_v4 ip scope, isGlobal_v4 ip scope⟩
  · exact ⟨isLoopback_v6 h scope, isMulticast_v6 h scope, isLinkLocal_v6 h scope,
      isSiteLocal_v6 h scope, isUniqueLocal_v6 h scope, isPrivateUse_v6 h scope,
      isGlobal_v6 h scope⟩

/-- A multicast address whose scope is the organisation is not global. -/
theorem classes_are_networks_at_multicast :
    let a : Address := ⟨.v6 (.ofSegments [0xFF08, 0, 0, 0, 0, 0, 0, 1]), ""⟩
    a.isMulticast = true ∧ ¬ a.isGlobal = true := by
  intro a
  have hmapped (v4 : Ipv4) : Ipv6.ofSegments [0xFF08, 0, 0, 0, 0, 0, 0, 1] ≠ .ofIpv4 v4 := by
    intro he
    have hnone : (Ipv6.ofSegments [0xFF08, 0, 0, 0, 0, 0, 0, 1]).toIpv4? = none := by decide
    cases hnone.symm.trans (Ipv6.toIpv4?_eq_some_iff.mpr he)
  obtain ⟨_, hmulticast, _, _, _, _, hglobal⟩ := classes_are_networks.2.1 _ "" hmapped
  have hin : a.isIn [.v6 0xFF00 8] = true := by decide
  exact ⟨hmulticast.mpr hin, fun h => hglobal.mp h (.inr (.inr (.inr ⟨hin, by decide⟩)))⟩

end Address
end NetKit
