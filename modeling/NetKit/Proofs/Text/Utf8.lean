import Mathlib.Tactic.SplitIfs
import NetKit.Proofs.Answers
import NetKit.Text.Utf8

/-!
# Decoding is the inverse of encoding

Octets decode to a text exactly when they are its encoding: nothing that is encoded is refused, and
nothing that is accepted has a second form.
-/

namespace NetKit.Utf8

open String (utf8EncodeChar)

variable {k n m v acc : Nat} {low high : UInt8} {b : UInt8} {c : Char} {rest tail : Bytes}

/-! ## Octets as numbers -/

theorem toNat_octet (h : n < 256) : (UInt8.ofNat n).toNat = n := by
  simp [UInt8.toNat_ofNat', Nat.mod_eq_of_lt h]

theorem exists_octet (b : UInt8) : ∃ n < 256, b = UInt8.ofNat n :=
  ⟨b.toNat, b.toNat_lt, by simp⟩

theorem lead?_octet (h : n < 256) : lead? (UInt8.ofNat n) =
    if n < 0x80 then some ⟨0, 0x80, 0xBF, n⟩
    else if n < 0xC2 then none
    else if n < 0xE0 then some ⟨1, 0x80, 0xBF, n - 0xC0⟩
    else if n = 0xE0 then some ⟨2, 0xA0, 0xBF, 0⟩
    else if n = 0xED then some ⟨2, 0x80, 0x9F, 0xD⟩
    else if n < 0xF0 then some ⟨2, 0x80, 0xBF, n - 0xE0⟩
    else if n = 0xF0 then some ⟨3, 0x90, 0xBF, 0⟩
    else if n < 0xF4 then some ⟨3, 0x80, 0xBF, n - 0xF0⟩
    else if n = 0xF4 then some ⟨3, 0x80, 0x8F, 4⟩
    else none := by
  simp [lead?, UInt8.lt_iff_toNat_lt, ← UInt8.toNat_inj, Nat.mod_eq_of_lt h]

/-! ## What is encoded is read -/

theorem continuation_octet (hn : n < 64) (hlow : low.toNat ≤ n + 128)
    (hhigh : n + 128 ≤ high.toNat) :
    continuation (k + 1) low high acc (UInt8.ofNat (n + 128) :: rest) =
      continuation k 0x80 0xBF (acc * 64 + n) rest := by
  have hb : (UInt8.ofNat (n + 128)).toNat = n + 128 := toNat_octet (by omega)
  rw [continuation, if_pos, hb]
  · simp
  · simp only [UInt8.le_iff_toNat_le, hb]
    exact ⟨hlow, hhigh⟩

theorem continuation_one (hlow : low.toNat ≤ n % 64 + 128) (hhigh : n % 64 + 128 ≤ high.toNat) :
    continuation 1 low high (n / 64) (UInt8.ofNat (n % 64 + 128) :: tail) = (some n, tail) := by
  rw [continuation_octet (by omega) hlow hhigh, continuation, Nat.div_add_mod']

theorem continuation_two (hlow : low.toNat ≤ n / 64 % 64 + 128)
    (hhigh : n / 64 % 64 + 128 ≤ high.toNat) :
    continuation 2 low high (n / 4096)
      (UInt8.ofNat (n / 64 % 64 + 128) :: UInt8.ofNat (n % 64 + 128) :: tail) = (some n, tail) := by
  rw [continuation_octet (by omega) hlow hhigh, show n / 4096 * 64 + n / 64 % 64 = n / 64 by omega]
  exact continuation_one (Nat.le_add_left ..) (Nat.add_le_add_right (by omega : n % 64 ≤ 63) 128)

theorem continuation_three (hlow : low.toNat ≤ n / 4096 % 64 + 128)
    (hhigh : n / 4096 % 64 + 128 ≤ high.toNat) :
    continuation 3 low high (n / 262144)
      (UInt8.ofNat (n / 4096 % 64 + 128) :: UInt8.ofNat (n / 64 % 64 + 128) ::
        UInt8.ofNat (n % 64 + 128) :: tail) = (some n, tail) := by
  rw [continuation_octet (by omega) hlow hhigh,
    show n / 262144 * 64 + n / 4096 % 64 = n / 4096 by omega]
  exact continuation_two (Nat.le_add_left ..)
    (Nat.add_le_add_right (by omega : n / 64 % 64 ≤ 63) 128)

theorem next_eq {l : Lead} (h : lead? b = some l) :
    next b rest = ((continuation l.owed l.low l.high l.bits rest).1.map Char.ofNat,
      (continuation l.owed l.low l.high l.bits rest).2) := by
  rw [next, h]

/-- The ranges after the first octet of three keep out what two can encode, and surrogates. -/
theorem lead?_three (h : 0x800 ≤ n) (hn : n < 0xD800 ∨ 0xDFFF < n ∧ n < 0x10000) :
    ∃ l, lead? (UInt8.ofNat (n / 4096 % 16 + 224)) = some l ∧ l.owed = 2 ∧ l.bits = n / 4096 ∧
      l.low.toNat ≤ n / 64 % 64 + 128 ∧ n / 64 % 64 + 128 ≤ l.high.toNat := by
  rw [lead?_octet (by omega), if_neg (by omega), if_neg (by omega), if_neg (by omega)]
  split_ifs
  · refine ⟨_, rfl, rfl, ?_, ?_, ?_⟩ <;> simp <;> omega
  · refine ⟨_, rfl, rfl, ?_, ?_, ?_⟩ <;> simp <;> omega
  · refine ⟨_, rfl, rfl, ?_, ?_, ?_⟩ <;> simp <;> omega
  all_goals omega

/-- The ranges after the first octet of four keep out what three can encode, and what is above
U+10FFFF. -/
theorem lead?_four (h : 0x10000 ≤ n) (hn : n < 0x110000) :
    ∃ l, lead? (UInt8.ofNat (n / 262144 % 8 + 240)) = some l ∧ l.owed = 3 ∧
      l.bits = n / 262144 ∧
      l.low.toNat ≤ n / 4096 % 64 + 128 ∧ n / 4096 % 64 + 128 ≤ l.high.toNat := by
  rw [lead?_octet (by omega), if_neg (by omega), if_neg (by omega), if_neg (by omega),
    if_neg (by omega), if_neg (by omega), if_neg (by omega)]
  split_ifs
  · refine ⟨_, rfl, rfl, ?_, ?_, ?_⟩ <;> simp <;> omega
  · refine ⟨_, rfl, rfl, ?_, ?_, ?_⟩ <;> simp <;> omega
  · refine ⟨_, rfl, rfl, ?_, ?_, ?_⟩ <;> simp <;> omega
  all_goals omega

/-- An encoded character in front of more octets is read back, and leaves these. -/
theorem next_encodeChar (c : Char) (tail : Bytes) :
    ∃ b rest, utf8EncodeChar c ++ tail = b :: rest ∧ next b rest = (some c, tail) := by
  have hv : c.toNat < 0xD800 ∨ 0xDFFF < c.toNat ∧ c.toNat < 0x110000 := c.valid
  simp only [utf8EncodeChar, show c.val.toNat = c.toNat from rfl]
  generalize hn : c.toNat = n at hv
  have hc : Char.ofNat n = c := by rw [← hn, Char.ofNat_toNat]
  -- one case for each length of the encoding
  split_ifs <;> refine ⟨_, _, List.cons_append, ?_⟩ <;>
    simp only [List.cons_append, List.nil_append]
  · rw [next, lead?_octet (by omega), if_pos (by omega)]
    simp [continuation, hc]
  · rw [next, lead?_octet (by omega), if_neg (by omega), if_neg (by omega), if_pos (by omega),
      show n / 64 % 32 + 192 - 192 = n / 64 by omega]
    simp only
    rw [continuation_one (by simp) (by simp; omega), Option.map_some, hc]
  · obtain ⟨l, hl, howed, hbits, hlow, hhigh⟩ := lead?_three (n := n) (by omega) (by omega)
    rw [next_eq hl, howed, hbits, continuation_two hlow hhigh, Option.map_some, hc]
  · obtain ⟨l, hl, howed, hbits, hlow, hhigh⟩ := lead?_four (n := n) (by omega) (by omega)
    rw [next_eq hl, howed, hbits, continuation_three hlow hhigh, Option.map_some, hc]

/-! ## What is read is encoded -/

theorem of_continuation_succ {bs : Bytes} (hlow : 128 ≤ low.toNat) (hhigh : high.toNat ≤ 191)
    (h : continuation (k + 1) low high acc bs = (some v, tail)) :
    ∃ n rest, n < 64 ∧ low.toNat ≤ n + 128 ∧ n + 128 ≤ high.toNat ∧
      bs = UInt8.ofNat (n + 128) :: rest ∧
      continuation k 0x80 0xBF (acc * 64 + n) rest = (some v, tail) := by
  cases bs with
  | nil => simp [continuation] at h
  | cons b rest =>
    rw [continuation] at h
    split at h
    · rename_i hb
      simp only [UInt8.le_iff_toNat_le] at hb
      refine ⟨b.toNat - 128, rest, by omega, by omega, by omega, ?_, by simpa using h⟩
      rw [Nat.sub_add_cancel (by omega)]
      simp
    · simp at h

/-- After the first continuation octet, every other has the whole range. -/
theorem of_continuation_next {bs : Bytes}
    (h : continuation (k + 1) 0x80 0xBF acc bs = (some v, tail)) :
    ∃ n rest, n < 64 ∧ bs = UInt8.ofNat (n + 128) :: rest ∧
      continuation k 0x80 0xBF (acc * 64 + n) rest = (some v, tail) := by
  obtain ⟨n, rest, hn, -, -, hbs, h⟩ := of_continuation_succ (by decide) (by decide) h
  exact ⟨n, rest, hn, hbs, h⟩

theorem of_next (h : next b rest = (some c, tail)) :
    ∃ l v, lead? b = some l ∧ Char.ofNat v = c ∧
      continuation l.owed l.low l.high l.bits rest = (some v, tail) := by
  rw [next] at h
  split at h
  · simp at h
  · rename_i l hl
    simp only [Prod.mk.injEq, Option.map_eq_some_iff] at h
    obtain ⟨⟨v, hv, hc⟩, htail⟩ := h
    exact ⟨l, v, hl, hc, Prod.ext hv htail⟩

theorem encodeChar_ofNat (h : v.isValidChar) : utf8EncodeChar (Char.ofNat v) =
    if v ≤ 0x7F then [UInt8.ofNat v]
    else if v ≤ 0x7FF then [UInt8.ofNat (v / 64 % 32 + 192), UInt8.ofNat (v % 64 + 128)]
    else if v ≤ 0xFFFF then
      [UInt8.ofNat (v / 4096 % 16 + 224), UInt8.ofNat (v / 64 % 64 + 128),
        UInt8.ofNat (v % 64 + 128)]
    else [UInt8.ofNat (v / 262144 % 8 + 240), UInt8.ofNat (v / 4096 % 64 + 128),
      UInt8.ofNat (v / 64 % 64 + 128), UInt8.ofNat (v % 64 + 128)] := by
  have hv : (Char.ofNat v).val.toNat = v := by
    rw [Char.ofNat, dif_pos h]
    rfl
  rw [utf8EncodeChar, hv]

theorem encodeChar_two {x : Nat} (hmin : 2 ≤ x) (hmax : x < 32) (hn : n < 64) :
    utf8EncodeChar (Char.ofNat (x * 64 + n)) = [UInt8.ofNat (x + 192), UInt8.ofNat (n + 128)] := by
  generalize hv : x * 64 + n = v
  rw [encodeChar_ofNat (.inl (by omega)), if_neg (by omega), if_pos (by omega),
    show v / 64 % 32 = x by omega, show v % 64 = n by omega]

theorem encodeChar_three {x o : Nat} (hmax : x < 16) (hn : n < 64) (ho : o < 64)
    (hfirst : x = 0 → 32 ≤ n) (hlast : x = 0xD → n < 32) :
    utf8EncodeChar (Char.ofNat ((x * 64 + n) * 64 + o)) =
      [UInt8.ofNat (x + 224), UInt8.ofNat (n + 128), UInt8.ofNat (o + 128)] := by
  generalize hv : (x * 64 + n) * 64 + o = v
  have hvalid : v < 0xD800 ∨ 0xDFFF < v ∧ v < 0x110000 := by omega
  rw [encodeChar_ofNat hvalid, if_neg (by omega), if_neg (by omega), if_pos (by omega),
    show v / 4096 % 16 = x by omega, show v / 64 % 64 = n by omega, show v % 64 = o by omega]

theorem encodeChar_four {x o p : Nat} (hmax : x < 5) (hn : n < 64) (ho : o < 64) (hp : p < 64)
    (hfirst : x = 0 → 16 ≤ n) (hlast : x = 4 → n < 16) :
    utf8EncodeChar (Char.ofNat (((x * 64 + n) * 64 + o) * 64 + p)) =
      [UInt8.ofNat (x + 240), UInt8.ofNat (n + 128), UInt8.ofNat (o + 128),
        UInt8.ofNat (p + 128)] := by
  generalize hv : ((x * 64 + n) * 64 + o) * 64 + p = v
  have hvalid : v < 0xD800 ∨ 0xDFFF < v ∧ v < 0x110000 := by omega
  rw [encodeChar_ofNat hvalid, if_neg (by omega), if_neg (by omega), if_neg (by omega),
    show v / 262144 % 8 = x by omega, show v / 4096 % 64 = n by omega,
    show v / 64 % 64 = o by omega, show v % 64 = p by omega]

/-- What a leading octet can announce, by the number of octets owed. -/
theorem of_lead? {l : Lead} (hm : m < 256) (h : lead? (UInt8.ofNat m) = some l) :
    (l.owed = 0 ∧ l.bits = m ∧ m < 0x80) ∨
    (128 ≤ l.low.toNat ∧ l.high.toNat ≤ 191 ∧
      ((l.owed = 1 ∧ l.bits + 0xC0 = m ∧ 2 ≤ l.bits ∧ l.bits < 32) ∨
      (l.owed = 2 ∧ l.bits + 0xE0 = m ∧ l.bits < 16 ∧ (l.bits = 0 → 0xA0 ≤ l.low.toNat) ∧
        (l.bits = 0xD → l.high.toNat ≤ 0x9F)) ∨
      (l.owed = 3 ∧ l.bits + 0xF0 = m ∧ l.bits < 5 ∧ (l.bits = 0 → 0x90 ≤ l.low.toNat) ∧
        (l.bits = 4 → l.high.toNat ≤ 0x8F)))) := by
  rw [lead?_octet hm] at h
  split_ifs at h <;> cases h <;> simp <;> omega

/-- The first character, encoded again, is what has been read. -/
theorem encodeChar_of_next (h : next b rest = (some c, tail)) :
    b :: rest = utf8EncodeChar c ++ tail := by
  obtain ⟨l, v, hl, rfl, h₀⟩ := of_next h
  clear h
  obtain ⟨m, hm, rfl⟩ := exists_octet b
  rcases of_lead? hm hl with ⟨howed, rfl, hlt⟩ | ⟨hlow, hhigh, hmore⟩
  · rw [howed, continuation] at h₀
    cases h₀
    rw [encodeChar_ofNat (.inl (by omega)), if_pos (by omega), List.singleton_append]
  rcases hmore with ⟨howed, rfl, hmin, hmax⟩ | ⟨howed, rfl, hmax, hfirst, hlast⟩ |
    ⟨howed, rfl, hmax, hfirst, hlast⟩ <;> rw [howed] at h₀
  · obtain ⟨n, rest, hn, -, -, rfl, h₁⟩ := of_continuation_succ hlow hhigh h₀
    rw [continuation] at h₁
    cases h₁
    rw [encodeChar_two hmin hmax hn]
    rfl
  · obtain ⟨n, rest, hn, hge, hle, rfl, h₁⟩ := of_continuation_succ hlow hhigh h₀
    obtain ⟨o, rest, ho, rfl, h₂⟩ := of_continuation_next h₁
    rw [continuation] at h₂
    cases h₂
    rw [encodeChar_three hmax hn ho (by omega) (by omega)]
    rfl
  · obtain ⟨n, rest, hn, hge, hle, rfl, h₁⟩ := of_continuation_succ hlow hhigh h₀
    obtain ⟨o, rest, ho, rfl, h₂⟩ := of_continuation_next h₁
    obtain ⟨p, rest, hp, rfl, h₃⟩ := of_continuation_next h₂
    rw [continuation] at h₃
    cases h₃
    rw [encodeChar_four hmax hn ho hp (by omega) (by omega)]
    rfl

/-! ## Whole texts -/

theorem scan_encodeChar_append (c : Char) (tail : Bytes) :
    scan (utf8EncodeChar c ++ tail) = some c :: scan tail := by
  obtain ⟨b, rest, heq, hnext⟩ := next_encodeChar c tail
  rw [heq, scan, hnext]

theorem scan_flatMap_append (cs : List Char) (tail : Bytes) :
    scan (cs.flatMap utf8EncodeChar ++ tail) = cs.map some ++ scan tail := by
  induction cs with
  | nil => rfl
  | cons c cs ih =>
    rw [List.flatMap_cons, List.append_assoc, scan_encodeChar_append, ih, List.map_cons,
      List.cons_append]

theorem scan_encode (s : String) : scan (encode s) = s.toList.map some := by
  have h := scan_flatMap_append s.toList []
  rwa [List.append_nil, scan, List.append_nil] at h

theorem toList_decodeLossy_encode (s : String) : (decodeLossy (encode s)).toList = s.toList := by
  rw [decodeLossy, scan_encode, String.toList_ofList, List.map_map]
  exact List.map_id _

theorem flatMap_of_scan {bs : Bytes} {cs : List Char} (h : scan bs = cs.map some) :
    cs.flatMap utf8EncodeChar = bs := by
  induction bs using scan.induct generalizing cs with
  | case1 =>
    rw [scan] at h
    rw [List.map_eq_nil_iff.mp h.symm, List.flatMap_nil]
  | case2 b rest _ ih =>
    rw [scan] at h
    cases cs with
    | nil => cases h
    | cons c cs =>
      simp only [List.map_cons, List.cons.injEq] at h
      rw [List.flatMap_cons, ih h.2]
      exact (encodeChar_of_next (Prod.ext h.1 rfl)).symm

theorem decode?_eq_some_iff {bs : Bytes} {s : String} : decode? bs = some s ↔ encode s = bs := by
  have hscan : decode? bs = some s ↔ scan bs = s.toList.map some := by
    simp only [decode?, Option.map_eq_some_iff, Answer.mapM_eq_some_iff, List.map_id]
    constructor
    · rintro ⟨cs, hcs, rfl⟩
      rw [hcs, String.toList_ofList]
    · intro h
      exact ⟨_, h, String.ofList_toList⟩
  rw [hscan]
  constructor
  · exact flatMap_of_scan
  · rintro rfl
    exact scan_encode s

theorem encode_ofList (cs : List Char) : encode (String.ofList cs) = cs.flatMap utf8EncodeChar := by
  rw [encode, String.toList_ofList]

theorem decode?_flatMap (cs : List Char) :
    decode? (cs.flatMap utf8EncodeChar) = some (String.ofList cs) :=
  decode?_eq_some_iff.mpr (encode_ofList cs)

/-- A text begins with some characters exactly when its octets begin with theirs. -/
theorem prefix_iff {bs : Bytes} {s : String} (h : decode? bs = some s) (cs : List Char) :
    cs.flatMap utf8EncodeChar <+: bs ↔ cs <+: s.toList := by
  obtain rfl := decode?_eq_some_iff.mp h
  constructor
  · rintro ⟨tail, htail⟩
    have hscan := scan_encode s
    rw [← htail, scan_flatMap_append] at hscan
    obtain ⟨front, hfront, heq⟩ := List.prefix_map_iff.mp ⟨_, hscan⟩
    rwa [List.map_inj_right (fun _ _ => Option.some.inj) |>.mp heq]
  · rintro ⟨tail, htail⟩
    rw [encode, ← htail, List.flatMap_append]
    exact List.prefix_append ..

/-- An octet below 128 is part of no encoding but that of the character with its number. -/
theorem eq_of_mem_encodeChar (h : b ∈ utf8EncodeChar c) (hb : b < 0x80) : c.toNat = b.toNat := by
  simp only [utf8EncodeChar, show c.val.toNat = c.toNat from rfl] at h
  rw [UInt8.lt_iff_toNat_lt] at hb
  have hb : b.toNat < 128 := hb
  generalize c.toNat = n at h
  split_ifs at h <;> simp only [List.mem_cons, List.not_mem_nil, or_false] at h
  · rw [h, toNat_octet (by omega)]
  · rcases h with rfl | rfl <;> rw [toNat_octet (by omega)] at hb <;> omega
  · rcases h with rfl | rfl | rfl <;> rw [toNat_octet (by omega)] at hb <;> omega
  · rcases h with rfl | rfl | rfl | rfl <;> rw [toNat_octet (by omega)] at hb <;> omega

end NetKit.Utf8
