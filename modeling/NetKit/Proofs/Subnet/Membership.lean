import NetKit.Interface.AddressEntry
import NetKit.Proofs.Subnet.Bits

/-!
# What a subnet contains

A subnet contains the addresses of the family of its base that begin with the same bits, which are
those that clearing the other bits leaves equal. No octet is looked for that an address does not
have.
-/

namespace NetKit

open AddressEntry (width?)

namespace Address

/-- The `i`th bit, the most significant first. -/
def bit (a : Address) (i : Nat) : Bool :=
  match a.host with
  | .v4 ip => ip.getMsbD i
  | .v6 ip => ip.getMsbD i
  | .null | .any => false

def octets (a : Address) : List UInt8 :=
  match a.host with
  | .v4 ip => octetsOf ip
  | .v6 ip => octetsOf ip
  | .null | .any => []

variable {a : Address} {w : Nat}

theorem length_octets (h : width? a = some w) : 8 * a.octets.length = w := by
  obtain ⟨host, scope⟩ := a
  cases host with
  | v4 ip | v6 ip =>
    cases h
    rw [octets, length_octetsOf]
  | null | any => cases h

theorem bitAt_octets (a : Address) (i : Nat) : bitAt a.octets i = a.bit i := by
  obtain ⟨host, scope⟩ := a
  cases host with
  | v4 ip | v6 ip => exact bitAt_octetsOf (by decide) ip i
  | null | any => exact bitAt_of_le (Nat.zero_le i)

end Address

namespace Subnet

variable {a base : Address} {n : Int} {w : Nat}

theorem contains?_of_width (ha : width? a = some w) (hbase : width? base = some w) (hn : 0 ≤ n)
    (hle : n ≤ w) : contains? base n a = sharesBits? a.octets base.octets n.toNat := by
  obtain ⟨host, scope⟩ := a
  obtain ⟨baseHost, baseScope⟩ := base
  cases host with
  | v4 ip =>
    cases ha
    cases baseHost with
    | v4 base => exact (if_neg (Int.not_lt.mpr hn)).trans (if_pos hle)
    | v6 base | null | any => cases hbase
  | v6 ip =>
    cases ha
    cases baseHost with
    | v6 base => exact (if_neg (Int.not_lt.mpr hn)).trans (if_pos hle)
    | v4 base | null | any => cases hbase
  | null | any => cases ha

theorem contains?_of_not (h : ¬ ∃ w, width? a = some w ∧ width? base = some w ∧ 0 ≤ n ∧ n ≤ w) :
    contains? base n a = some false := by
  rw [contains?]
  split
  · rfl
  · rename_i hn
    split
    · rename_i ip base ha hbase
      refine if_neg fun hle => h ⟨32, ?_, ?_, Int.not_lt.mp hn, hle⟩
      · rw [width?, ha]
      · rw [width?, hbase]
    · rename_i ip base ha hbase
      refine if_neg fun hle => h ⟨128, ?_, ?_, Int.not_lt.mp hn, hle⟩
      · rw [width?, ha]
      · rw [width?, hbase]
    · rfl

theorem sharesBits?_octets (ha : width? a = some w) (hbase : width? base = some w) {n : Nat}
    (hn : n ≤ w) :
    sharesBits? a.octets base.octets n = some (decide (∀ i < n, a.bit i = base.bit i)) := by
  have hlength := Address.length_octets ha
  have hlength' := Address.length_octets hbase
  rw [sharesBits?_eq_some (by omega) (by omega)]
  simp only [Address.bitAt_octets]

theorem clearBits_octets_eq_iff (ha : width? a = some w) (hbase : width? base = some w) {n : Nat}
    (hn : n ≤ w) :
    clearBits n a.octets = clearBits n base.octets ↔ ∀ i < n, a.bit i = base.bit i := by
  have hlength := Address.length_octets ha
  have hlength' := Address.length_octets hbase
  rw [eq_iff_bitAt (by rw [length_clearBits, length_clearBits]; omega)]
  simp only [length_clearBits, bitAt_clearBits, Address.bitAt_octets]
  constructor
  · intro h i hi
    simpa [hi] using h i (by omega)
  · intro h i _
    by_cases hi : i < n
    · rw [h i hi]
    · simp [hi]

theorem contains?_eq_some (base : Address) (n : Int) (a : Address) :
    ∃ b, contains? base n a = some b ∧ (b = true ↔
      ∃ w, width? a = some w ∧ width? base = some w ∧ 0 ≤ n ∧ n ≤ w ∧
        ∀ i < n.toNat, a.bit i = base.bit i) := by
  by_cases h : ∃ w, width? a = some w ∧ width? base = some w ∧ 0 ≤ n ∧ n ≤ w
  · obtain ⟨w, ha, hbase, hn, hle⟩ := h
    refine ⟨_, (contains?_of_width ha hbase hn hle).trans
      (sharesBits?_octets ha hbase (Int.toNat_le.mpr hle)), ?_⟩
    rw [decide_eq_true_eq]
    exact ⟨fun hbits => ⟨w, ha, hbase, hn, hle, hbits⟩, fun ⟨_, _, _, _, _, hbits⟩ => hbits⟩
  · refine ⟨_, contains?_of_not h, iff_of_false Bool.false_ne_true ?_⟩
    rintro ⟨w, ha, hbase, hn, hle, _⟩
    exact h ⟨w, ha, hbase, hn, hle⟩

theorem contains_iff : contains base n a = true ↔
    ∃ w, width? a = some w ∧ width? base = some w ∧ 0 ≤ n ∧ n ≤ w ∧
      ∀ i < n.toNat, a.bit i = base.bit i := by
  obtain ⟨b, hb, hiff⟩ := contains?_eq_some base n a
  rwa [contains, hb, Option.getD_some]

/-- Whether a subnet contains an address is always told. It does exactly if both are of one family,
the length is possible in it, and so many leading bits are the same; and this is so exactly if
clearing the other bits leaves the same octets. -/
theorem contains_iff_same_prefix (base a : Address) (n : Int) :
    contains? base n a = some (contains base n a) ∧
    (contains base n a = true ↔
      ∃ w, width? a = some w ∧ width? base = some w ∧ 0 ≤ n ∧ n ≤ w ∧
        ∀ i < n.toNat, a.bit i = base.bit i) ∧
    (contains base n a = true ↔
      ∃ w, width? a = some w ∧ width? base = some w ∧ 0 ≤ n ∧ n ≤ w ∧
        clearBits n.toNat a.octets = clearBits n.toNat base.octets) := by
  refine ⟨?_, contains_iff, contains_iff.trans (exists_congr fun w => ?_)⟩
  · obtain ⟨b, hb, _⟩ := contains?_eq_some base n a
    rw [contains, hb, Option.getD_some]
  · refine and_congr_right fun ha => and_congr_right fun hbase => and_congr_right fun hn =>
      and_congr_right fun hle => ?_
    exact (clearBits_octets_eq_iff ha hbase (Int.toNat_le.mpr hle)).symm

/-- Twenty bits end within an octet. -/
example : contains (.ofIpv4 (.ofOctets 192 168 16 0)) 20 (.ofIpv4 (.ofOctets 192 168 31 1)) = true ∧
    contains (.ofIpv4 (.ofOctets 192 168 16 0)) 20 (.ofIpv4 (.ofOctets 192 168 32 1)) = false := by
  decide

end Subnet
end NetKit
