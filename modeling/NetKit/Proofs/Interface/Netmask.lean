import NetKit.Proofs.Subnet.Canonical

/-!
# Netmasks and prefix lengths

The netmask of a length is so many ones with zeros after them, and such a netmask gives the length
back. Any other netmask leaves the length unknown. The netmasks of subnets are read in the same way.
-/

namespace NetKit

variable {w n : Nat}

theorem isMask_shiftLeft (h : n ≤ w) : IsMask (BitVec.allOnes w <<< (w - n)) n := by
  refine ⟨h, fun i hi => ?_⟩
  have hiff : i + (w - n) < w ↔ i < n := by omega
  rw [BitVec.getMsbD_shiftLeft, BitVec.getMsbD_allOnes]
  simp only [hiff]

/-- The bits of an IPv4 netmask are the first of the wider word. -/
theorem getMsbD_widened (m : Ipv4) (i : Nat) : (m.setWidth 128 <<< 96).getMsbD i = m.getMsbD i := by
  have hplace : i + 96 + 32 - 128 = i := by omega
  rw [BitVec.getMsbD_shiftLeft, BitVec.getMsbD_setWidth, decide_eq_true (by omega), hplace,
    Bool.true_and]

theorem isMask_widened {m : Ipv4} : IsMask (m.setWidth 128 <<< 96) n ∧ n ≤ 32 ↔ IsMask m n := by
  constructor
  · rintro ⟨h, hn⟩
    exact ⟨hn, fun i _ => by rw [← getMsbD_widened, h.getMsbD]⟩
  · intro h
    exact ⟨⟨h.1.trans (by decide), fun i _ => by rw [getMsbD_widened, h.getMsbD]⟩, h.1⟩

/-- The address is `n` ones with zeros after them. -/
def Address.HasOnes (a : Address) (n : Nat) : Prop :=
  match a.host with
  | .v4 ip => IsMask ip n
  | .v6 ip => IsMask ip n
  | .null | .any => False

namespace AddressEntry

variable {e : AddressEntry} {mask : Address}

theorem maskLength?_v4 (m : Ipv4) : maskLength? (.ofIpv4 m) = contiguous? m := by
  refine Option.ext fun n => ?_
  have hfilter :
      maskLength? (.ofIpv4 m) = (contiguous? (m.setWidth 128 <<< 96)).filter (· ≤ 32) := rfl
  rw [hfilter, Option.filter_eq_some_iff, decide_eq_true_eq, contiguous?_eq_some_iff,
    contiguous?_eq_some_iff, isMask_widened]

theorem maskLength?_v6 (m : Ipv6) : maskLength? (.ofIpv6 m) = contiguous? m := by
  refine Option.ext fun n => ?_
  have hfilter : maskLength? (.ofIpv6 m) = (contiguous? m).filter (· ≤ 128) := rfl
  rw [hfilter, Option.filter_eq_some_iff, decide_eq_true_eq, contiguous?_eq_some_iff]
  exact and_iff_left_of_imp (·.1)

theorem maskLength?_eq_some_iff (mask : Address) : maskLength? mask = some n ↔ mask.HasOnes n := by
  obtain ⟨host, scope⟩ := mask
  cases host with
  | v4 m => exact (congrArg (· = some n) (maskLength?_v4 m)).to_iff.trans contiguous?_eq_some_iff
  | v6 m => exact (congrArg (· = some n) (maskLength?_v6 m)).to_iff.trans contiguous?_eq_some_iff
  | null | any => exact iff_of_false (fun h => by cases h) id

/-! ## Setting a length -/

theorem length_setLength (hw : width? e.ip = some w) (hn : n ≤ w) :
    (e.setLength n).length = some n := by
  simp [setLength, hw, hn]

theorem netmask?_setLength (hw : width? e.ip = some w) (hn : n ≤ w) :
    ∃ mask, (e.setLength n).netmask? = some mask ∧ mask.scope = "" ∧ width? mask = some w ∧
      mask.HasOnes n := by
  have hlength := length_setLength hw hn
  obtain ⟨⟨host, scope⟩, broadcast, length⟩ := e
  cases host with
  | v4 ip =>
    cases hw
    refine ⟨.ofIpv4 _, ?_, rfl, rfl, isMask_shiftLeft hn⟩
    rw [netmask?, hlength]
    exact if_pos hn
  | v6 ip =>
    cases hw
    refine ⟨.ofIpv6 _, ?_, rfl, rfl, isMask_shiftLeft hn⟩
    rw [netmask?, hlength]
    exact if_pos hn
  | null | any => cases hw

/-! ## Setting a netmask -/

theorem length_setNetmask (hw : width? e.ip = some w) (hmask : width? mask = some w) :
    (e.setNetmask mask).length = maskLength? mask := by
  simp [setNetmask, hw, hmask]

theorem lengthCode_eq_iff {e : AddressEntry} : e.lengthCode = n ↔ e.length = some n := by
  rw [lengthCode]
  split
  · rename_i k hk
    rw [hk, Int.natCast_inj, Option.some_inj]
  · rename_i hnone
    rw [hnone]
    exact iff_of_false (by omega) (by simp)

theorem unknown_of_length_eq_none (h : e.length = none) :
    e.lengthCode = -1 ∧ e.netmask? = some .null := by
  rw [lengthCode, netmask?, h]
  exact ⟨rfl, rfl⟩

/-- The netmask of a length is so many ones with zeros after them, and gives the length back. A
netmask of the family of the address gives a length exactly if it is so many ones with zeros after
them; any other leaves the length unknown and the netmask null. The IPv4 netmasks of subnets and
those of entries are read alike. -/
theorem netmask_and_length_inverse :
    (∀ (e : AddressEntry) (w n : Nat), width? e.ip = some w → n ≤ w →
      (e.setLength n).lengthCode = n ∧
      ∃ mask, (e.setLength n).netmask? = some mask ∧ mask.scope = "" ∧ width? mask = some w ∧
        mask.HasOnes n ∧ (e.setNetmask mask).lengthCode = n) ∧
    (∀ (e : AddressEntry) (mask : Address) (w : Nat), width? e.ip = some w → width? mask = some w →
      (∀ n : Nat, (e.setNetmask mask).lengthCode = n ↔ mask.HasOnes n) ∧
      ((¬ ∃ n, mask.HasOnes n) →
        (e.setNetmask mask).lengthCode = -1 ∧ (e.setNetmask mask).netmask? = some .null)) ∧
    ∀ m : Ipv4, Subnet.readLength4? m.text.toList = contiguous? m ∧
      contiguous? m = maskLength? (.ofIpv4 m) := by
  have hset (e : AddressEntry) (mask : Address) (w : Nat) (hw : width? e.ip = some w)
      (hmask : width? mask = some w) (n : Nat) :
      (e.setNetmask mask).lengthCode = n ↔ mask.HasOnes n := by
    rw [lengthCode_eq_iff, length_setNetmask hw hmask, maskLength?_eq_some_iff]
  refine ⟨fun e w n hw hn => ?_, fun e mask w hw hmask => ⟨hset e mask w hw hmask, fun hno => ?_⟩,
    fun m => ⟨Subnet.readLength4?_text m, (maskLength?_v4 m).symm⟩⟩
  · obtain ⟨mask, hnetmask, hscope, hmask, hones⟩ := netmask?_setLength hw hn
    exact ⟨lengthCode_eq_iff.mpr (length_setLength hw hn), mask, hnetmask, hscope, hmask, hones,
      (hset e mask w hw hmask n).mpr hones⟩
  · refine unknown_of_length_eq_none (Option.eq_none_iff_forall_not_mem.mpr fun n hn => hno ⟨n, ?_⟩)
    exact (hset e mask w hw hmask n).mp (lengthCode_eq_iff.mpr hn)

/-- Nine ones and a zero end within an octet; a one after the zero leaves the length unknown. -/
theorem netmask_and_length_inverse_at_nine :
    let e : AddressEntry := { ip := .ofIpv4 (.ofOctets 10 1 2 3) }
    (e.setLength 9).netmask? = some (.ofIpv4 (.ofOctets 255 128 0 0)) ∧
    (e.setNetmask (.ofIpv4 (.ofOctets 255 128 0 0))).lengthCode = 9 ∧
    (e.setNetmask (.ofIpv4 (.ofOctets 255 128 0 1))).lengthCode = -1 := by
  intro e
  obtain ⟨_, mask, hnetmask, _, _, _, hlength⟩ :=
    netmask_and_length_inverse.1 e 32 9 rfl (by decide)
  have hnine : (e.setLength 9).netmask? = some (.ofIpv4 (.ofOctets 255 128 0 0)) := by decide
  obtain rfl : mask = _ := Option.some.inj (hnetmask.symm.trans hnine)
  refine ⟨hnine, hlength, ((netmask_and_length_inverse.2.1 e _ 32 rfl rfl).2 ?_).1⟩
  rintro ⟨n, hn⟩
  have hnone : contiguous? (Ipv4.ofOctets 255 128 0 1) = none := by decide
  cases hnone.symm.trans (contiguous?_eq_some_iff.mpr hn)

end AddressEntry
end NetKit
