import NetKit.Proofs.Address.RoundTrip
import NetKit.Proofs.Subnet.Membership

/-!
# Subnets that texts denote

Only the leading bits of the base of such a subnet may be ones. It contains the address from which
the base was made, and is denoted by its own text. A netmask gives the length of its ones.
-/

namespace NetKit

open AddressEntry (width?)
open Text Literal

variable {w n : Nat}

theorem clearHostBits_eq_self (hw : 8 ∣ w) {x : BitVec w}
    (h : ∀ i, n ≤ i → x.getMsbD i = false) : clearHostBits x n = x := by
  refine BitVec.eq_of_getMsbD_eq fun i _ => ?_
  rw [getMsbD_clearHostBits hw]
  by_cases hi : i < n
  · rw [decide_eq_true hi, Bool.true_and]
  · rw [h i (Nat.le_of_not_lt hi), Bool.and_false]

theorem clearHostBits_width (hw : 8 ∣ w) (x : BitVec w) : clearHostBits x w = x :=
  clearHostBits_eq_self hw fun i hi => BitVec.getMsbD_of_ge x i hi

namespace Subnet

variable {s : Subnet} {t : String} {cs ip mask : List Char}

/-! ## Lengths -/

theorem readLength?_eq_some_iff :
    readLength? w mask = some n ↔ boundedNat? UInt32.size mask = some n ∧ n ≤ w := by
  simp only [readLength?, Option.bind_eq_bind, Option.bind_eq_some_iff,
    Option.ite_none_right_eq_some, Option.some.injEq]
  constructor
  · rintro ⟨k, hk, hle, rfl⟩
    exact ⟨hk, hle⟩
  · rintro ⟨hn, hle⟩
    exact ⟨n, hn, hle, rfl⟩

theorem le_of_readLength? (h : readLength? w mask = some n) : n ≤ w :=
  (readLength?_eq_some_iff.mp h).2

theorem readLength4?_of_number {k : Nat} (h : boundedNat? UInt32.size mask = some k) :
    readLength4? mask = if k ≤ 32 then some k else none := by
  rw [readLength4?, h]

theorem readLength4?_of_not_number (h : boundedNat? UInt32.size mask = none) :
    readLength4? mask = (ipv4? mask).bind contiguous? := by
  rw [readLength4?, h]

theorem le_of_readLength4? (h : readLength4? mask = some n) : n ≤ 32 := by
  cases hk : boundedNat? UInt32.size mask with
  | some k =>
    rw [readLength4?_of_number hk, Option.ite_none_right_eq_some, Option.some.injEq] at h
    exact h.2 ▸ h.1
  | none =>
    rw [readLength4?_of_not_number hk] at h
    obtain ⟨m, _, hm⟩ := Option.bind_eq_some_iff.mp h
    exact (contiguous?_eq_some_iff.mp hm).1

/-! ## What a text says -/

/-- The address before the slash with its leading bits alone, and the length that the mask gives;
all bits when there is no mask. -/
inductive Denotes : Host → Option (List Char) → Subnet → Prop
  | v4 {ip : Ipv4} {mask : Option (List Char)} {n : Nat}
      (hn : mask.elim (some 32) readLength4? = some n) :
      Denotes (.v4 ip) mask ⟨.ofIpv4 (clearHostBits ip n), n⟩
  | v6 {ip : Ipv6} {mask : Option (List Char)} {n : Nat}
      (hn : mask.elim (some 128) (readLength? 128) = some n) :
      Denotes (.v6 ip) mask ⟨.ofIpv6 (clearHostBits ip n), n⟩

theorem denotes_v4_none (ip : Ipv4) : Denotes (.v4 ip) none ⟨.ofIpv4 ip, 32⟩ := by
  have h : Denotes (.v4 ip) none ⟨.ofIpv4 (clearHostBits ip 32), 32⟩ := .v4 rfl
  rwa [clearHostBits_width (by decide)] at h

theorem denotes_v6_none (ip : Ipv6) : Denotes (.v6 ip) none ⟨.ofIpv6 ip, 128⟩ := by
  have h : Denotes (.v6 ip) none ⟨.ofIpv6 (clearHostBits ip 128), 128⟩ := .v6 rfl
  rwa [clearHostBits_width (by decide)] at h

theorem parse?_eq_some_iff :
    parse? t = some s ↔
      Denotes (Address.parse (String.ofList (baseText t))).host (split t).2 s := by
  unfold parse? baseText
  generalize split t = q
  dsimp only
  generalize (Address.parse (String.ofList q.1)).host = host
  generalize q.2 = mask
  constructor
  · intro h
    split at h
    · cases h
      exact denotes_v4_none _
    · cases h
      exact denotes_v6_none _
    · obtain ⟨n, hn, rfl⟩ := Option.map_eq_some_iff.mp h
      exact .v4 hn
    · obtain ⟨n, hn, rfl⟩ := Option.map_eq_some_iff.mp h
      exact .v6 hn
    · cases h
  · intro h
    cases h with
    | v4 hn =>
      cases mask with
      | none =>
        cases hn
        rw [clearHostBits_width (by decide)]
      | some mask => exact Option.map_eq_some_iff.mpr ⟨_, hn, rfl⟩
    | v6 hn =>
      cases mask with
      | none =>
        cases hn
        rw [clearHostBits_width (by decide)]
      | some mask => exact Option.map_eq_some_iff.mpr ⟨_, hn, rfl⟩

/-! ## The base -/

theorem bit_cleared_v4 (ip : Ipv4) (n i : Nat) :
    (Address.ofIpv4 (clearHostBits ip n)).bit i = (decide (i < n) && ip.getMsbD i) :=
  getMsbD_clearHostBits (by decide) ip n i

theorem bit_cleared_v6 (ip : Ipv6) (n i : Nat) :
    (Address.ofIpv6 (clearHostBits ip n)).bit i = (decide (i < n) && ip.getMsbD i) :=
  getMsbD_clearHostBits (by decide) ip n i

/-- The base holds no bits that the length leaves to its members, and no scope. -/
structure IsCanonical (s : Subnet) (w : Nat) : Prop where
  width : width? s.base = some w
  scope : s.base.scope = ""
  length_le : s.length ≤ w
  bit_eq : ∀ i, s.length ≤ i → s.base.bit i = false

theorem elim_le {mask : Option (List Char)} {f : List Char → Option Nat}
    (hf : ∀ mask n, f mask = some n → n ≤ w) (h : mask.elim (some w) f = some n) : n ≤ w := by
  cases mask with
  | none =>
    cases h
    exact le_rfl
  | some mask => exact hf mask n h

theorem Denotes.isCanonical {host : Host} {mask : Option (List Char)} (h : Denotes host mask s) :
    ∃ w, s.IsCanonical w := by
  cases h with
  | v4 hn =>
    refine ⟨32, rfl, rfl, elim_le (fun _ _ => le_of_readLength4?) hn, fun i hi => ?_⟩
    rw [bit_cleared_v4, decide_eq_false (Nat.not_lt.mpr hi), Bool.false_and]
  | v6 hn =>
    refine ⟨128, rfl, rfl, elim_le (fun _ _ => le_of_readLength?) hn, fun i hi => ?_⟩
    rw [bit_cleared_v6, decide_eq_false (Nat.not_lt.mpr hi), Bool.false_and]

theorem Denotes.contains {a : Address} {mask : Option (List Char)} (h : Denotes a.host mask s) :
    contains s.base s.length a = true := by
  obtain ⟨host, scope⟩ := a
  cases h with
  | @v4 ip _ n hn =>
    have hle := elim_le (fun _ _ => le_of_readLength4?) hn
    refine contains_iff.mpr ⟨32, rfl, rfl, Int.natCast_nonneg n, Int.ofNat_le.mpr hle, ?_⟩
    intro i (hi : i < n)
    rw [bit_cleared_v4, decide_eq_true hi, Bool.true_and]
    rfl
  | @v6 ip _ n hn =>
    have hle := elim_le (fun _ _ => le_of_readLength?) hn
    refine contains_iff.mpr ⟨128, rfl, rfl, Int.natCast_nonneg n, Int.ofNat_le.mpr hle, ?_⟩
    intro i (hi : i < n)
    rw [bit_cleared_v6, decide_eq_true hi, Bool.true_and]
    rfl

/-! ## Texts -/

/-- The base, a slash and the length. -/
def text (s : Subnet) : String := s.base.text ++ "/" ++ String.ofList (decimal s.length)

/-- What stands before the first slash, or the whole text when there is none. -/
def Precedes (ip : List Char) (t : String) : Prop :=
  '/' ∉ ip ∧ (trim t.toList = ip ∨ ∃ mask, trim t.toList = ip ++ '/' :: mask)

theorem precedes_baseText (t : String) : Precedes (baseText t) t := by
  rw [baseText, split]
  cases h : splitOnce (· == '/') (trim t.toList) with
  | none => exact ⟨fun hc => by simpa using not_of_splitOnce_eq_none h '/' hc, .inl rfl⟩
  | some r =>
    obtain ⟨⟨mark, hmark, htext⟩, hbefore⟩ := of_splitOnce h
    rw [eq_of_beq hmark] at htext
    exact ⟨fun hc => by simpa using hbefore '/' hc, .inr ⟨r.2, htext⟩⟩

theorem trim_of_literalChars (h : ∀ c ∈ cs, IsLiteralChar c) : trim cs = cs :=
  trimBy_eq_self (fun c hc => (h c (List.mem_of_head? hc)).isBlank)
    fun c hc => (h c (List.mem_of_getLast? hc)).isBlank

theorem isLiteralChar_of_mem_decimal {c : Char} (hc : c ∈ decimal n) : IsLiteralChar c := by
  obtain ⟨v, hv⟩ := Option.isSome_iff_exists.mp
    (digitValue_isSome_of_mem_toDigits (by decide) (by decide) hc)
  exact .inl (Option.isSome_of_eq_some (digitValue_mono (by decide) hv))

theorem trim_slash (hip : IsLiteral ip) (hmask : trim mask = mask) :
    trim (ip ++ '/' :: mask) = ip ++ '/' :: mask := by
  refine trimBy_eq_self (fun c hc => ?_) fun c hc => ?_
  · rw [List.head?_append_of_ne_nil _ hip.ne_nil] at hc
    exact (hip.isLiteralChar c (List.mem_of_head? hc)).isBlank
  · rw [List.getLast?_append, List.getLast?_cons, Option.some_or, Option.some.injEq] at hc
    subst hc
    cases hlast : mask.getLast? with
    | none => rfl
    | some d =>
      rw [← hmask] at hlast
      exact not_of_getLast?_trimBy hlast

theorem split_of_toList (hip : IsLiteral ip) (hmask : trim mask = mask)
    (ht : t.toList = ip ++ '/' :: mask) : split t = (ip, some mask) := by
  have hbefore (c : Char) (hc : c ∈ ip) : (c == '/') = false := by
    rw [beq_eq_false_iff_ne]
    rintro rfl
    have hslash := hip.isLiteralChar '/' hc
    revert hslash
    decide
  simp only [split, ht, trim_slash hip hmask, splitOnce_append hbefore (beq_self_eq_true '/'),
    hmask]

theorem parse?_slash {a : Address} {mask : String} (ha : IsLiteral a.text.toList)
    (hparse : Address.parse a.text = a) (hmask : trim mask.toList = mask.toList) :
    parse? (a.text ++ "/" ++ mask) = some s ↔ Denotes a.host (some mask.toList) s := by
  have hslash : "/".toList = ['/'] := rfl
  have htext : (a.text ++ "/" ++ mask).toList = a.text.toList ++ '/' :: mask.toList := by
    rw [String.toList_append, String.toList_append, hslash, List.append_assoc,
      List.singleton_append]
  rw [parse?_eq_some_iff, baseText, split_of_toList ha hmask htext, String.ofList_toList, hparse]

theorem parse?_slash_v4 {ip : Ipv4} {mask : String} (hmask : trim mask.toList = mask.toList) :
    parse? ((Address.ofIpv4 ip).text ++ "/" ++ mask) = some s ↔
      Denotes (.v4 ip) (some mask.toList) s :=
  parse?_slash (isLiteral_of_ipv4? (ipv4?_text ip)) (Address.parse_text_v4 ip) hmask

theorem parse?_slash_v6 {ip : Ipv6} {mask : String} (hmask : trim mask.toList = mask.toList) :
    parse? ((Address.ofIpv6 ip).text ++ "/" ++ mask) = some s ↔
      Denotes (.v6 ip) (some mask.toList) s :=
  parse?_slash (isLiteral_of_ipv6? (ipv6?_text ip)) (Address.parse_text_v6 ip (by simp)) hmask

/-! ## Masks in texts -/

theorem trim_decimal (n : Nat) : trim (decimal n) = decimal n :=
  trim_of_literalChars fun _ => isLiteralChar_of_mem_decimal

theorem readLength?_decimal (hw : w < UInt32.size) (hn : n ≤ w) :
    readLength? w (decimal n) = some n :=
  readLength?_eq_some_iff.mpr ⟨boundedNat?_decimal (hn.trans_lt hw), hn⟩

theorem readLength4?_decimal (hn : n ≤ 32) : readLength4? (decimal n) = some n := by
  rw [readLength4?_of_number (boundedNat?_decimal (hn.trans_lt (by decide))), if_pos hn]

/-- The points of a netmask keep it from being read as a number. -/
theorem readLength4?_text (m : Ipv4) : readLength4? m.text.toList = contiguous? m := by
  have hpoint : '.' ∈ m.text.toList := by
    rw [m.toList_text]
    exact List.mem_append_right _ List.mem_cons_self
  rw [readLength4?_of_not_number (boundedNat?_eq_none hpoint (by decide) (by decide) _), ipv4?_text,
    Option.bind_some]

theorem IsCanonical.parse?_text (h : s.IsCanonical w) : parse? s.text = some s := by
  obtain ⟨⟨host, scope⟩, n⟩ := s
  obtain rfl : scope = "" := h.scope
  have hwidth := h.width
  have hn : n ≤ w := h.length_le
  have htrim : trim (String.ofList (decimal n)).toList = (String.ofList (decimal n)).toList := by
    rw [String.toList_ofList, trim_decimal]
  cases host with
  | v4 ip =>
    cases hwidth
    have hdenotes : Denotes (.v4 ip) (some (decimal n)) ⟨.ofIpv4 (clearHostBits ip n), n⟩ :=
      .v4 (readLength4?_decimal hn)
    rw [clearHostBits_eq_self (by decide) h.bit_eq] at hdenotes
    exact (parse?_slash_v4 htrim).mpr (String.toList_ofList ▸ hdenotes)
  | v6 ip =>
    cases hwidth
    have hdenotes : Denotes (.v6 ip) (some (decimal n)) ⟨.ofIpv6 (clearHostBits ip n), n⟩ :=
      .v6 (readLength?_decimal (by decide) hn)
    rw [clearHostBits_eq_self (by decide) h.bit_eq] at hdenotes
    exact (parse?_slash_v6 htrim).mpr (String.toList_ofList ▸ hdenotes)
  | null | any => cases hwidth

theorem parse?_netmask {ip m : Ipv4} :
    (∃ base, parse? ((Address.ofIpv4 ip).text ++ "/" ++ (Address.ofIpv4 m).text) = some ⟨base, n⟩) ↔
      IsMask m n := by
  have htrim : trim (Address.ofIpv4 m).text.toList = (Address.ofIpv4 m).text.toList :=
    trim_of_literalChars (isLiteral_of_ipv4? (ipv4?_text m)).isLiteralChar
  have hread : readLength4? (Address.ofIpv4 m).text.toList = contiguous? m := readLength4?_text m
  simp only [parse?_slash_v4 htrim, ← contiguous?_eq_some_iff, ← hread]
  constructor
  · rintro ⟨base, ⟨hn⟩⟩
    rwa [Option.elim_some] at hn
  · intro hn
    exact ⟨_, .v4 (by rwa [Option.elim_some])⟩

/-- What a text denotes has a base of one family without a scope, whose bits are zero from the
length on; it contains the address that stands before the slash, and is denoted by its own text.
A netmask is a length exactly if it is so many ones with zeros after them. -/
theorem parse?_canonical :
    (∀ t s, parse? t = some s →
      (∃ w, s.IsCanonical w) ∧
      (∃ ip, Precedes ip t ∧ contains s.base s.length (Address.parse (String.ofList ip)) = true) ∧
      parse? s.text = some s) ∧
    ∀ (ip mask : Ipv4) (n : Nat),
      (∃ base, parse? ((Address.ofIpv4 ip).text ++ "/" ++ (Address.ofIpv4 mask).text) =
        some ⟨base, n⟩) ↔ IsMask mask n := by
  refine ⟨fun t s h => ?_, fun ip mask n => parse?_netmask⟩
  have hdenotes := parse?_eq_some_iff.mp h
  obtain ⟨w, hcanonical⟩ := hdenotes.isCanonical
  exact ⟨⟨w, hcanonical⟩, ⟨_, precedes_baseText t, hdenotes.contains⟩, hcanonical.parse?_text⟩

/-- A netmask after an address with bits that the subnet does not keep. -/
theorem parse?_canonical_of_netmask :
    parse? "192.168.17.5/255.255.240.0" = some ⟨.ofIpv4 (.ofOctets 192 168 16 0), 20⟩ ∧
      (∃ w, (Subnet.mk (.ofIpv4 (.ofOctets 192 168 16 0)) 20).IsCanonical w) ∧
      parse? "192.168.16.0/20" = some ⟨.ofIpv4 (.ofOctets 192 168 16 0), 20⟩ := by
  have hread : parse? "192.168.17.5/255.255.240.0" =
      some ⟨.ofIpv4 (.ofOctets 192 168 16 0), 20⟩ := by decide
  obtain ⟨hcanonical, _, hagain⟩ := parse?_canonical.1 _ _ hread
  exact ⟨hread, hcanonical, hagain⟩

end Subnet
end NetKit
