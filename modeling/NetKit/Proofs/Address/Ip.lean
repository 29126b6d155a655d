import NetKit.Address.Ip
import NetKit.Proofs.Text.Pieces

/-!
# The parts of addresses

An address is made of its octets or groups, and its text is made of the texts of these; of an IPv6
address, a run of zero groups may be left out.
-/

namespace NetKit

open Text

namespace Ipv4

theorem octet_lt (ip : Ipv4) (i : Nat) : ip.octet i < 256 := Nat.mod_lt _ (by decide)

theorem ofOctets_octet (ip : Ipv4) :
    ofOctets (ip.octet 0) (ip.octet 1) (ip.octet 2) (ip.octet 3) = ip := by
  have hlt := ip.isLt
  apply BitVec.eq_of_toNat_eq
  simp only [ofOctets, octet, BitVec.toNat_ofNat, Nat.shiftRight_eq_div_pow]
  omega

theorem toList_text (ip : Ipv4) :
    ip.text.toList = decimal (ip.octet 0) ++ '.' :: (decimal (ip.octet 1) ++
      '.' :: (decimal (ip.octet 2) ++ '.' :: decimal (ip.octet 3))) := by
  have hdot : ".".toList = ['.'] := rfl
  have hrange : List.range 4 = [0, 1, 2, 3] := rfl
  rw [text, String.toList_intercalate, hdot, hrange]
  simp only [List.map_cons, List.map_nil, String.toList_ofList, intercalate_cons, List.flatMap_cons,
    List.flatMap_nil, List.cons_append, List.append_nil]

theorem toList_text_ofOctets {a b c d : Nat} (ha : a < 256) (hb : b < 256) (hc : c < 256)
    (hd : d < 256) : (ofOctets a b c d).text.toList =
      decimal a ++ '.' :: (decimal b ++ '.' :: (decimal c ++ '.' :: decimal d)) := by
  have hlt : ((a * 256 + b) * 256 + c) * 256 + d < 2 ^ 32 := by omega
  have hoctet (i : Nat) : (ofOctets a b c d).octet i =
      (((a * 256 + b) * 256 + c) * 256 + d) / 2 ^ (24 - 8 * i) % 256 := by
    rw [octet, ofOctets, BitVec.toNat_ofNat, Nat.shiftRight_eq_div_pow, Nat.mod_eq_of_lt hlt]
  have h0 : (ofOctets a b c d).octet 0 = a := by rw [hoctet]; omega
  have h1 : (ofOctets a b c d).octet 1 = b := by rw [hoctet]; omega
  have h2 : (ofOctets a b c d).octet 2 = c := by rw [hoctet]; omega
  have h3 : (ofOctets a b c d).octet 3 = d := by rw [hoctet]; omega
  rw [toList_text, h0, h1, h2, h3]

end Ipv4

namespace Ipv6

theorem segment_lt (ip : Ipv6) (i : Nat) : ip.segment i < 65536 := Nat.mod_lt _ (by decide)

theorem lt_of_mem_segments {ip : Ipv6} {s : Nat} (h : s ∈ ip.segments) : s < 65536 := by
  obtain ⟨i, _, rfl⟩ := List.mem_map.mp h
  exact segment_lt ip i

theorem length_segments (ip : Ipv6) : ip.segments.length = 8 := by
  rw [segments, List.length_map, List.length_range]

theorem ofSegments_segments (ip : Ipv6) : ofSegments ip.segments = ip := by
  have hlt := ip.isLt
  have hrange : List.range 8 = [0, 1, 2, 3, 4, 5, 6, 7] := rfl
  apply BitVec.eq_of_toNat_eq
  simp only [ofSegments, segments, segment, hrange, List.map_cons, List.map_nil, List.foldl_cons,
    List.foldl_nil, BitVec.toNat_ofNat, Nat.shiftRight_eq_div_pow]
  omega

/-! ## The IPv4 address in an IPv6 address -/

theorem toIpv4?_eq_some_iff {ip : Ipv6} {v4 : Ipv4} : ip.toIpv4? = some v4 ↔ ip = ofIpv4 v4 := by
  have hip := ip.isLt
  have hv4 := v4.isLt
  simp only [toIpv4?, Option.ite_none_right_eq_some, Option.some.injEq, ofIpv4,
    ← BitVec.toNat_inj, BitVec.toNat_ofNat]
  omega

theorem ofSegments_ofIpv4 (v4 : Ipv4) :
    ofSegments (List.replicate 5 0 ++ [0xFFFF, v4.toNat / 65536, v4.toNat % 65536]) =
      ofIpv4 v4 := by
  have hlt := v4.isLt
  apply BitVec.eq_of_toNat_eq
  simp only [ofSegments, ofIpv4, List.replicate_succ, List.replicate_zero, List.cons_append,
    List.nil_append, List.foldl_cons, List.foldl_nil, BitVec.toNat_ofNat]
  omega

/-! ## Runs of zeros -/

/-- What is told of the longest run are a number of zeros, and how far they are from the start. -/
theorem longestZeros_split (i : Nat) (l : List Nat) :
    ∃ front back, l = front ++ List.replicate (longestZeros i l).2 0 ++ back ∧
      ((longestZeros i l).2 ≠ 0 → (longestZeros i l).1 = i + front.length) := by
  induction l generalizing i with
  | nil => exact ⟨[], [], rfl, fun h => absurd rfl h⟩
  | cons s l ih =>
    rw [longestZeros]
    split
    · exact ⟨[], _, (marks_append 0 (s :: l)).symm, fun _ => rfl⟩
    · obtain ⟨front, back, hl, hstart⟩ := ih (i + 1)
      refine ⟨s :: front, back, ?_, fun h => ?_⟩
      · rw [List.cons_append, List.cons_append, ← hl]
      · rw [hstart h, List.length_cons]
        omega

/-! ## Texts -/

theorem toList_groupsText_cons (s : Nat) (ss : List Nat) :
    (groupsText (s :: ss)).toList =
      Nat.toDigits 16 s ++ ss.flatMap fun s => ':' :: Nat.toDigits 16 s := by
  have hcolon : ":".toList = [':'] := rfl
  rw [groupsText, String.toList_intercalate, hcolon, List.map_map, List.map_cons, intercalate_cons,
    List.flatMap_map]
  simp only [Function.comp_apply, String.toList_ofList]

theorem toList_text_ofIpv4 (v4 : Ipv4) :
    (ofIpv4 v4).text.toList = "::ffff:".toList ++ v4.text.toList := by
  rw [text, toIpv4?_eq_some_iff.mpr rfl, String.toList_append]

/-- Groups alone, in base sixteen. -/
def hexText (ip : Ipv6) : String :=
  let (start, length) := longestZeros 0 ip.segments
  if 1 < length then
    groupsText (ip.segments.take start) ++ "::" ++ groupsText (ip.segments.drop (start + length))
  else groupsText ip.segments

theorem text_of_toIpv4?_eq_none {ip : Ipv6} (h : ip.toIpv4? = none) : ip.text = ip.hexText := by
  rw [text, h, hexText]

/-- All groups are written, or those before and after a run of zeros. -/
theorem toList_hexText_cases (ip : Ipv6) :
    ip.hexText.toList = (groupsText ip.segments).toList ∨
    ∃ front zeros back, 1 < zeros ∧ ip.segments = front ++ List.replicate zeros 0 ++ back ∧
      ip.hexText.toList =
        (groupsText front).toList ++ ':' :: ':' :: (groupsText back).toList := by
  obtain ⟨front, back, hsplit, hstart⟩ := longestZeros_split 0 ip.segments
  rcases hz : longestZeros 0 ip.segments with ⟨start, zeros⟩
  rw [hz] at hsplit hstart
  simp only [hexText, hz]
  split
  · rename_i hzeros
    have hfront : start = front.length := (hstart (by omega)).trans (Nat.zero_add _)
    have htake : ip.segments.take start = front := by
      rw [hsplit, hfront, List.append_assoc, List.take_left]
    have hdrop : ip.segments.drop (start + zeros) = back := by
      rw [hsplit, hfront, List.drop_left' (by rw [List.length_append, List.length_replicate])]
    have hcolons : "::".toList = [':', ':'] := rfl
    refine .inr ⟨front, zeros, back, hzeros, hsplit, ?_⟩
    rw [htake, hdrop, String.toList_append, String.toList_append, hcolons, List.append_assoc,
      List.cons_append, List.cons_append, List.nil_append]
  · exact .inl rfl

end Ipv6
end NetKit
