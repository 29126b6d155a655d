import NetKit.Proofs.Text.Pieces
import NetKit.Proofs.Text.Utf8

/-!
# Octets that are not text, between ASCII characters

An octet below 128 is one character, whatever stands before it: it ends an unfinished character and
belongs to none. So octets taken apart at such an octet decode piece by piece.
-/

namespace NetKit.Utf8

open String (utf8EncodeChar)
open Text (splitBy)

variable {b : UInt8} {bs tail : Bytes} {c : Char} {l : Lead}

theorem low_of_lead? (h : lead? b = some l) : 0x80 ≤ l.low := by
  obtain ⟨n, hn, rfl⟩ := exists_octet b
  rw [lead?_octet hn] at h
  split_ifs at h <;> cases h <;> exact UInt8.le_iff_toNat_le.mpr (by simp)

/-! ## In front of an ASCII character -/

theorem continuation_append (hb : b < 0x80) {low : UInt8} (hlow : 0x80 ≤ low) (k : Nat)
    (high : UInt8) (acc : Nat) (bs tail : Bytes) :
    continuation k low high acc (bs ++ b :: tail) =
      ((continuation k low high acc bs).1, (continuation k low high acc bs).2 ++ b :: tail) := by
  induction k generalizing low high acc bs with
  | zero => rfl
  | succ k ih =>
    cases bs with
    | nil =>
      have hnot : ¬ (low ≤ b ∧ b ≤ high) := fun h =>
        UInt8.not_le.mpr (UInt8.lt_of_lt_of_le hb hlow) h.1
      exact if_neg hnot
    | cons d bs =>
      rw [List.cons_append, continuation, continuation]
      split
      · exact ih (UInt8.le_refl _) ..
      · rfl

theorem next_append (hb : b < 0x80) (d : UInt8) (bs tail : Bytes) :
    next d (bs ++ b :: tail) = ((next d bs).1, (next d bs).2 ++ b :: tail) := by
  rw [next, next]
  split
  · rfl
  · rename_i l hl
    simp only [continuation_append hb (low_of_lead? hl)]

theorem scan_ascii (hb : b < 0x80) (tail : Bytes) :
    scan (b :: tail) = some (Char.ofNat b.toNat) :: scan tail := by
  have hlead : lead? b = some ⟨0, 0x80, 0xBF, b.toNat⟩ := if_pos hb
  rw [scan, next_eq hlead]
  rfl

theorem scan_append (hb : b < 0x80) (bs tail : Bytes) :
    scan (bs ++ b :: tail) = scan bs ++ some (Char.ofNat b.toNat) :: scan tail := by
  induction bs using scan.induct with
  | case1 => rw [List.nil_append, scan_ascii hb, scan, List.nil_append]
  | case2 d bs _ ih => rw [List.cons_append, scan, next_append hb, ih, scan, List.cons_append]

theorem toList_decodeLossy_append (hb : b < 0x80) (bs tail : Bytes) :
    (decodeLossy (bs ++ b :: tail)).toList =
      (decodeLossy bs).toList ++ Char.ofNat b.toNat :: (decodeLossy tail).toList := by
  simp only [decodeLossy, String.toList_ofList, scan_append hb, List.map_append, List.map_cons,
    Option.getD_some]

/-! ## Characters and their octets -/

theorem continuation_suffix (k : Nat) (low high : UInt8) (acc : Nat) (bs : Bytes) :
    (continuation k low high acc bs).2 <:+ bs := by
  induction k generalizing low high acc bs with
  | zero => exact List.suffix_refl bs
  | succ k ih =>
    cases bs with
    | nil => exact List.suffix_refl []
    | cons d bs =>
      rw [continuation]
      split
      · exact (ih ..).trans (List.suffix_cons d bs)
      · exact List.suffix_refl (d :: bs)

theorem next_suffix (b : UInt8) (rest : Bytes) : (next b rest).2 <:+ rest := by
  rw [next]
  split
  · exact List.suffix_refl rest
  · exact continuation_suffix ..

theorem subset_of_mem_scan (h : some c ∈ scan bs) : utf8EncodeChar c ⊆ bs := by
  induction bs using scan.induct with
  | case1 =>
    rw [scan] at h
    cases h
  | case2 d bs _ ih =>
    rw [scan, List.mem_cons] at h
    rcases h with hfirst | hmore
    · rw [encodeChar_of_next (Prod.ext hfirst.symm rfl)]
      exact List.subset_append_left ..
    · exact fun b hb => List.mem_cons_of_mem d ((next_suffix d bs).subset (ih hmore hb))

/-- No character but the one that stands for unreadable octets is made up. -/
theorem subset_of_mem_decodeLossy (h : c ∈ (decodeLossy bs).toList) (hc : c ≠ replacement) :
    utf8EncodeChar c ⊆ bs := by
  rw [decodeLossy, String.toList_ofList, List.mem_map] at h
  obtain ⟨_ | d, hscan, rfl⟩ := h
  · exact absurd rfl hc
  · exact subset_of_mem_scan hscan

theorem encodeChar_ascii (hb : b < 0x80) : utf8EncodeChar (Char.ofNat b.toNat) = [b] := by
  have hlt : b.toNat < 128 := hb
  rw [encodeChar_ofNat (.inl (by omega)), if_pos (by omega), UInt8.ofNat_toNat]

theorem mem_of_mem_decodeLossy (hb : b < 0x80)
    (h : Char.ofNat b.toNat ∈ (decodeLossy bs).toList) : b ∈ bs := by
  have hsubset : utf8EncodeChar (Char.ofNat b.toNat) ⊆ bs := by
    refine subset_of_mem_decodeLossy h fun he => ?_
    have hlength := congrArg (fun c => (utf8EncodeChar c).length) he
    rw [encodeChar_ascii hb] at hlength
    cases hlength
  rw [encodeChar_ascii hb] at hsubset
  exact hsubset (List.mem_singleton_self b)

/-! ## Pieces -/

/-- Octets taken apart at an ASCII character are decoded piece by piece. -/
theorem splitBy_decodeLossy (hb : b < 0x80) (bs : Bytes) :
    splitBy (· == Char.ofNat b.toNat) (decodeLossy bs).toList =
      (splitBy (· == b) bs).map fun piece => (decodeLossy piece).toList := by
  induction hn : bs.length using Nat.strongRecOn generalizing bs with
  | ind n ih =>
    by_cases hmem : b ∈ bs
    · obtain ⟨front, rest, rfl⟩ := List.append_of_mem hmem
      rw [List.length_append, List.length_cons] at hn
      rw [toList_decodeLossy_append hb, Text.splitBy_append_self, Text.splitBy_append_self,
        List.map_append, ih front.length (by omega) front rfl, ih rest.length (by omega) rest rfl]
    · rw [Text.splitBy_of_not_mem hmem, List.map_singleton,
        Text.splitBy_of_not_mem (mt (mem_of_mem_decodeLossy hb) hmem)]

end NetKit.Utf8
