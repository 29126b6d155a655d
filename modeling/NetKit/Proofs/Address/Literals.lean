import NetKit.Address.Literal
import NetKit.Proofs.Address.Ip
import NetKit.Proofs.Text.Number

/-!
# Address literals are read back

The written form of an IPv4 or IPv6 address is read as that address. A literal holds digits, colons
and dots alone, and none is read in both families.
-/

namespace NetKit.Literal

open Text

variable {cs rest : List Char} {base limit n : Nat}

/-! ## Numbers -/

/-- What follows a number does not continue it. -/
def Stops (base : Nat) (rest : List Char) : Prop :=
  ∀ c, rest.head? = some c → (digitValue base c).isSome = false

theorem stops_nil (base : Nat) : Stops base [] := fun _ h => by cases h

theorem stops_cons {c : Char} (h : (digitValue base c).isSome = false) (rest : List Char) :
    Stops base (c :: rest) := fun d hd => by
  cases hd
  exact h

theorem Stops.of_le {less : Nat} (h : Stops base rest) (hle : less ≤ base) : Stops less rest := by
  intro c hc
  have hnone := h c hc
  rw [Option.isSome_eq_false_iff, Option.isNone_iff_eq_none] at hnone ⊢
  by_contra hsome
  obtain ⟨v, hv⟩ := Option.ne_none_iff_exists'.mp hsome
  rw [digitValue_mono hle hv] at hnone
  cases hnone

theorem Stops.takeWhile (h : Stops base rest) :
    rest.takeWhile (fun c => (digitValue base c).isSome) = [] := by
  cases rest with
  | nil => rfl
  | cons c rest => rw [List.takeWhile_cons_of_neg (by simp [h c rfl])]

theorem Stops.dropWhile (h : Stops base rest) :
    rest.dropWhile (fun c => (digitValue base c).isSome) = rest := by
  cases rest with
  | nil => rfl
  | cons c rest => rw [List.dropWhile_cons_of_neg (by simp [h c rfl])]

theorem readNumber_of_stops (h : Stops base cs) (limit : Nat) (leadingZeros : Bool) :
    readNumber base limit leadingZeros cs = none := by
  simp [readNumber, h.takeWhile, natOfDigits?]

theorem readNumber_toDigits (hbase : 1 < base) (hmost : base ≤ 16) (hlimit : 0 < limit)
    (hn : n < base ^ limit) (leadingZeros : Bool) (h : Stops base rest) :
    readNumber base limit leadingZeros (Nat.toDigits base n ++ rest) = some (n, rest) := by
  have hdigits : ∀ c ∈ Nat.toDigits base n, (digitValue base c).isSome = true :=
    fun c hc => digitValue_isSome_of_mem_toDigits hbase hmost hc
  have hlength : (Nat.toDigits base n).length ≤ limit :=
    (Nat.length_toDigits_le_iff hbase hlimit).mpr hn
  have hzeros : (!leadingZeros && (Nat.toDigits base n).head? == some '0' &&
      1 < (Nat.toDigits base n).length) = false := by
    by_cases hzero : (Nat.toDigits base n).head? = some '0'
    · simp [eq_zero_of_head?_toDigits hbase hzero]
    · simp [hzero]
  simp only [readNumber, List.takeWhile_append_of_pos hdigits, List.dropWhile_append_of_pos hdigits,
    h.takeWhile, h.dropWhile, List.append_nil, if_neg (not_lt.mpr hlength), hzeros,
    natOfDigits?_toDigits hbase hmost, Option.map_some, Bool.false_eq_true, if_false]

/-! ## IPv4 -/

theorem readOctet_decimal (hn : n < 256) (h : Stops 10 rest) :
    readOctet (decimal n ++ rest) = some (n, rest) := by
  have hread : readNumber 10 3 false (decimal n ++ rest) = some (n, rest) :=
    readNumber_toDigits (by decide) (by decide) (by decide) (by omega) false h
  rw [readOctet, hread, Option.filter_some_pos (by simpa using hn)]

theorem readIpv4_text (ip : Ipv4) (h : Stops 10 rest) :
    readIpv4 (ip.text.toList ++ rest) = some (ip, rest) := by
  have hdot (rest : List Char) : Stops 10 ('.' :: rest) := stops_cons (by decide) rest
  have hread {i : Nat} {rest : List Char} (h : Stops 10 rest) :
      readOctet (decimal (ip.octet i) ++ rest) = some (ip.octet i, rest) :=
    readOctet_decimal (ip.octet_lt i) h
  rw [ip.toList_text]
  simp only [readIpv4, List.append_assoc, List.cons_append, hread (hdot _), hread h, readChar,
    Option.bind_eq_bind, Option.bind_some, if_true, ip.ofOctets_octet, Option.pure_def]

theorem readIpv4_text_nil (ip : Ipv4) : readIpv4 ip.text.toList = some (ip, []) := by
  simpa using readIpv4_text ip (stops_nil 10)

theorem readIpv4_of_stops (h : Stops 10 cs) : readIpv4 cs = none := by
  simp [readIpv4, readOctet, readNumber_of_stops h]

/-! ## What readers pass over -/

def IsLiteralChar (c : Char) : Prop := (digitValue 16 c).isSome = true ∨ c = ':' ∨ c = '.'

instance (c : Char) : Decidable (IsLiteralChar c) := inferInstanceAs (Decidable (_ ∨ _ ∨ _))

theorem IsLiteralChar.bounds {c : Char} (h : IsLiteralChar c) : 46 ≤ c.toNat ∧ c.toNat ≤ 122 := by
  rcases h with h | rfl | rfl
  · obtain ⟨v, hv⟩ := Option.isSome_iff_exists.mp h
    have hranges := (digitValue_eq_some_iff.mp hv).2
    omega
  · decide
  · decide

theorem IsLiteralChar.isBlank {c : Char} (h : IsLiteralChar c) : isBlank c = false := by
  have hbounds := h.bounds
  rw [← Bool.not_eq_true]
  simp only [Text.isBlank, Bool.or_eq_true, Bool.and_eq_true, decide_eq_true_eq, beq_iff_eq]
  omega

/-- What is left of a text after some characters of a literal. -/
def Leaves (cs rest : List Char) : Prop :=
  ∃ front, cs = front ++ rest ∧ ∀ c ∈ front, IsLiteralChar c

theorem Leaves.refl (cs : List Char) : Leaves cs cs := ⟨[], rfl, fun c hc => by cases hc⟩

theorem Leaves.trans {more : List Char} (h : Leaves cs rest) (hmore : Leaves rest more) :
    Leaves cs more := by
  obtain ⟨front, rfl, hfront⟩ := h
  obtain ⟨next, rfl, hnext⟩ := hmore
  refine ⟨front ++ next, (List.append_assoc ..).symm, fun c hc => ?_⟩
  rcases List.mem_append.mp hc with hc | hc
  · exact hfront c hc
  · exact hnext c hc

theorem Leaves.not_mem {c : Char} (h : Leaves cs rest) (hc : c ∉ cs) : c ∉ rest := by
  obtain ⟨front, rfl, _⟩ := h
  exact fun hmem => hc (List.mem_append_right front hmem)

theorem leaves_of_readNumber {leadingZeros : Bool} (hmost : base ≤ 16)
    (h : readNumber base limit leadingZeros cs = some (n, rest)) : Leaves cs rest := by
  simp only [readNumber, Option.ite_none_left_eq_some, Option.map_eq_some_iff, Prod.mk.injEq] at h
  obtain ⟨_, _, _, _, _, rfl⟩ := h
  refine ⟨_, List.takeWhile_append_dropWhile.symm, fun c hc => .inl ?_⟩
  have hdigit : (digitValue base c).isSome = true :=
    List.mem_takeWhile_imp (p := fun c => (digitValue base c).isSome) hc
  obtain ⟨v, hv⟩ := Option.isSome_iff_exists.mp hdigit
  rw [digitValue_mono hmost hv]
  rfl

theorem leaves_of_readOctet (h : readOctet cs = some (n, rest)) : Leaves cs rest :=
  leaves_of_readNumber (by decide) (Option.filter_eq_some_iff.mp h).1

theorem readChar_eq_some_iff {c : Char} : readChar c cs = some rest ↔ cs = c :: rest := by
  cases cs with
  | nil => simp [readChar]
  | cons d cs => simp [readChar]

theorem readChar_of_not_mem {c : Char} (h : c ∉ cs) : readChar c cs = none := by
  rw [Option.eq_none_iff_forall_ne_some]
  intro rest hrest
  rw [readChar_eq_some_iff.mp hrest] at h
  exact h List.mem_cons_self

theorem leaves_of_readChar {c : Char} (hc : IsLiteralChar c) (h : readChar c cs = some rest) :
    Leaves cs rest := by
  rw [readChar_eq_some_iff.mp h]
  exact ⟨[c], rfl, fun d hd => by rwa [List.mem_singleton.mp hd]⟩

theorem leaves_of_readIpv4 {ip : Ipv4} (h : readIpv4 cs = some (ip, rest)) : Leaves cs rest := by
  have hdot : IsLiteralChar '.' := .inr (.inr rfl)
  simp only [readIpv4, Option.bind_eq_bind, Option.bind_eq_some_iff, Prod.exists, Option.pure_def,
    Option.some.injEq, Prod.mk.injEq] at h
  obtain ⟨_, _, h0, _, h1, _, _, h2, _, h3, _, _, h4, _, h5, _, _, h6, _, rfl⟩ := h
  exact (leaves_of_readOctet h0).trans <| (leaves_of_readChar hdot h1).trans <|
    (leaves_of_readOctet h2).trans <| (leaves_of_readChar hdot h3).trans <|
    (leaves_of_readOctet h4).trans <| (leaves_of_readChar hdot h5).trans (leaves_of_readOctet h6)

theorem of_readOctet (h : readOctet cs = some (n, rest)) : n < 256 ∧ cs = decimal n ++ rest := by
  obtain ⟨hnumber, hn⟩ := Option.filter_eq_some_iff.mp h
  simp only [readNumber, Option.ite_none_left_eq_some, Option.map_eq_some_iff, Prod.mk.injEq]
    at hnumber
  obtain ⟨_, hzeros, m, hm, rfl, rfl⟩ := hnumber
  refine ⟨by simpa using hn, ?_⟩
  rw [decimal_of_natOfDigits? hm, List.takeWhile_append_dropWhile]
  intro hlength hhead
  simp [hhead, hlength] at hzeros

theorem of_readIpv4 {ip : Ipv4} (h : readIpv4 cs = some (ip, rest)) :
    cs = ip.text.toList ++ rest := by
  simp only [readIpv4, Option.bind_eq_bind, Option.bind_eq_some_iff, Prod.exists, Option.pure_def,
    Option.some.injEq, Prod.mk.injEq, readChar_eq_some_iff] at h
  obtain ⟨a, _, ha, _, rfl, b, _, hb, _, rfl, c, _, hc, _, rfl, d, _, hd, rfl, rfl⟩ := h
  obtain ⟨halt, rfl⟩ := of_readOctet ha
  obtain ⟨hblt, rfl⟩ := of_readOctet hb
  obtain ⟨hclt, rfl⟩ := of_readOctet hc
  obtain ⟨hdlt, rfl⟩ := of_readOctet hd
  simp only [Ipv4.toList_text_ofOctets halt hblt hclt hdlt, List.append_assoc, List.cons_append]

theorem readIpv4_of_not_mem (h : '.' ∉ cs) : readIpv4 cs = none := by
  cases hoctet : readOctet cs with
  | none => simp [readIpv4, hoctet]
  | some r =>
    have hrest := (leaves_of_readOctet hoctet).not_mem h
    have hdot : readChar '.' r.2 = none := readChar_of_not_mem hrest
    simp [readIpv4, hoctet, hdot]

theorem leaves_readGroups (n : Nat) (first : Bool) (cs : List Char) :
    Leaves cs (readGroups n first cs).rest := by
  induction n generalizing first cs with
  | zero => exact .refl cs
  | succ n ih =>
    -- A group that cannot be read gives its colon back.
    rw [readGroups]
    split
    · exact .refl cs
    · rename_i body hbody
      have hstart : Leaves cs body := by
        cases first with
        | true =>
          cases hbody
          exact .refl cs
        | false => exact leaves_of_readChar (.inr (.inl rfl)) hbody
      split
      · rename_i v4 rest hdotted
        split at hdotted
        · exact hstart.trans (leaves_of_readIpv4 hdotted)
        · cases hdotted
      · split
        · exact .refl cs
        · rename_i s rest hnumber
          exact hstart.trans ((leaves_of_readNumber (by decide) hnumber).trans (ih false rest))

theorem leaves_of_readIpv6 {ip : Ipv6} (h : readIpv6 cs = some (ip, rest)) : Leaves cs rest := by
  have hcolon : IsLiteralChar ':' := .inr (.inl rfl)
  have hfront := leaves_readGroups 8 true cs
  simp only [readIpv6] at h
  split at h
  · cases h
    exact hfront
  · split at h
    · cases h
    · simp only [Option.bind_eq_bind, Option.bind_eq_some_iff, Option.pure_def, Option.some.injEq,
        Prod.mk.injEq] at h
      obtain ⟨_, h1, _, h2, _, rfl⟩ := h
      exact hfront.trans <| (leaves_of_readChar hcolon h1).trans <|
        (leaves_of_readChar hcolon h2).trans (leaves_readGroups ..)

/-- Without a colon there is one group at most, or an IPv4 address in the place of two. -/
theorem length_readGroups_of_not_mem (h : ':' ∉ cs) (n : Nat) (first : Bool) :
    (readGroups n first cs).segments.length ≤ 2 := by
  have hlater (m : Nat) {rest : List Char} (hrest : ':' ∉ rest) :
      (readGroups m false rest).segments = [] := by
    cases m with
    | zero => rfl
    | succ m => simp [readGroups, readChar_of_not_mem hrest]
  cases first with
  | false => simp [hlater n h]
  | true =>
    cases n with
    | zero => simp [readGroups]
    | succ n =>
      simp only [readGroups, if_true]
      split
      · simp
      · split
        · simp
        · rename_i s rest hnumber
          have hrest := (leaves_of_readNumber (by decide) hnumber).not_mem h
          simp [hlater n hrest]

theorem readIpv6_of_not_mem (h : ':' ∉ cs) : readIpv6 cs = none := by
  have hlength := length_readGroups_of_not_mem h 8 true
  have hrest := readChar_of_not_mem ((leaves_readGroups 8 true cs).not_mem h)
  rw [readIpv6]
  simp only [if_neg (show (readGroups 8 true cs).segments.length ≠ 8 by omega), hrest]
  split <;> rfl

/-! ## Groups -/

/-- Groups end with the text or before two colons. -/
def EndsGroups (rest : List Char) : Prop :=
  '.' ∉ rest ∧ (rest = [] ∨ ∃ more, rest = ':' :: ':' :: more)

theorem endsGroups_nil : EndsGroups [] := ⟨List.not_mem_nil, .inl rfl⟩

theorem EndsGroups.stops (h : EndsGroups rest) : Stops 16 rest := by
  rcases h.2 with rfl | ⟨more, rfl⟩
  · exact stops_nil 16
  · exact stops_cons (by decide) _

theorem dot_not_mem_toDigits (s : Nat) : '.' ∉ Nat.toDigits 16 s := fun h => by
  have hdigit := digitValue_isSome_of_mem_toDigits (by decide) (by decide) h
  cases hdigit

theorem readGroups_of_stops (h : Stops 16 cs) (n : Nat) :
    readGroups n true cs = ⟨[], false, cs⟩ := by
  cases n with
  | zero => rfl
  | succ n =>
    have hdotted : readIpv4 cs = none := readIpv4_of_stops (h.of_le (by decide))
    simp [readGroups, hdotted, readNumber_of_stops h]

theorem readGroups_end (h : EndsGroups rest) (n : Nat) (first : Bool) :
    readGroups n first rest = ⟨[], false, rest⟩ := by
  cases first with
  | true => exact readGroups_of_stops h.stops n
  | false =>
    cases n with
    | zero => rfl
    | succ n =>
      rcases h.2 with rfl | ⟨more, rfl⟩
      · rfl
      · have hstops : Stops 16 (':' :: more) := stops_cons (by decide) more
        have hdotted : readIpv4 (':' :: more) = none :=
          readIpv4_of_stops (hstops.of_le (by decide))
        simp [readGroups, readChar, hdotted, readNumber_of_stops hstops]

/-- One more group is read, whether a colon comes before it or not. -/
theorem readGroups_succ (first : Bool) {body : List Char} {s : Nat}
    (hbody : (if first then some cs else readChar ':' cs) = some body)
    (hdotted : readIpv4 body = none) (hnumber : readNumber 16 4 true body = some (s, rest)) :
    readGroups (n + 1) first cs =
      { readGroups n false rest with segments := s :: (readGroups n false rest).segments } := by
  rw [readGroups, hbody]
  simp only [hdotted, ite_self, hnumber]

/-- The text of groups that come after others. -/
def laterGroups (gs : List Nat) : List Char := gs.flatMap fun s => ':' :: Nat.toDigits 16 s

theorem laterGroups_cons (s : Nat) (gs : List Nat) :
    laterGroups (s :: gs) = ':' :: (Nat.toDigits 16 s ++ laterGroups gs) := by
  rw [laterGroups, List.flatMap_cons, List.cons_append, laterGroups]

theorem dot_not_mem_laterGroups (gs : List Nat) : '.' ∉ laterGroups gs := by
  intro h
  obtain ⟨s, _, hs⟩ := List.mem_flatMap.mp h
  rcases List.mem_cons.mp hs with hcolon | hdigit
  · cases hcolon
  · exact dot_not_mem_toDigits s hdigit

theorem stops_laterGroups (h : EndsGroups rest) (gs : List Nat) :
    Stops 16 (laterGroups gs ++ rest) := by
  cases gs with
  | nil => exact h.stops
  | cons s gs =>
    rw [laterGroups_cons]
    exact stops_cons (by decide) _

theorem readNumber_group {s : Nat} (hs : s < 65536) (h : EndsGroups rest) (gs : List Nat) :
    readIpv4 (Nat.toDigits 16 s ++ (laterGroups gs ++ rest)) = none ∧
      readNumber 16 4 true (Nat.toDigits 16 s ++ (laterGroups gs ++ rest)) =
        some (s, laterGroups gs ++ rest) := by
  refine ⟨readIpv4_of_not_mem ?_, readNumber_toDigits (by decide) (by decide) (by decide) hs true
    (stops_laterGroups h gs)⟩
  simp only [List.mem_append, not_or]
  exact ⟨dot_not_mem_toDigits s, dot_not_mem_laterGroups gs, h.1⟩

theorem readGroups_laterGroups {gs : List Nat} (hgs : ∀ s ∈ gs, s < 65536) (hlength : gs.length ≤ n)
    (h : EndsGroups rest) : readGroups n false (laterGroups gs ++ rest) = ⟨gs, false, rest⟩ := by
  induction gs generalizing n with
  | nil => exact readGroups_end h n false
  | cons s gs ih =>
    obtain ⟨m, rfl⟩ := Nat.exists_eq_add_one_of_ne_zero (Nat.ne_zero_of_lt hlength)
    rw [List.forall_mem_cons] at hgs
    obtain ⟨hdotted, hnumber⟩ := readNumber_group hgs.1 h gs
    rw [laterGroups_cons, List.cons_append, List.append_assoc,
      readGroups_succ false (readChar_eq_some_iff.mpr rfl) hdotted hnumber,
      ih hgs.2 (Nat.le_of_succ_le_succ hlength)]

theorem readGroups_groupsText {gs : List Nat} (hgs : ∀ s ∈ gs, s < 65536) (hlength : gs.length ≤ n)
    (h : EndsGroups rest) :
    readGroups n true ((Ipv6.groupsText gs).toList ++ rest) = ⟨gs, false, rest⟩ := by
  cases gs with
  | nil => exact readGroups_end h n true
  | cons s gs =>
    obtain ⟨m, rfl⟩ := Nat.exists_eq_add_one_of_ne_zero (Nat.ne_zero_of_lt hlength)
    rw [List.forall_mem_cons] at hgs
    obtain ⟨hdotted, hnumber⟩ := readNumber_group hgs.1 h gs
    rw [Ipv6.toList_groupsText_cons, ← laterGroups, List.append_assoc,
      readGroups_succ true rfl hdotted hnumber,
      readGroups_laterGroups hgs.2 (Nat.le_of_succ_le_succ hlength) h]

theorem readGroups_groupsText_nil {gs : List Nat} (hgs : ∀ s ∈ gs, s < 65536)
    (hlength : gs.length ≤ n) :
    readGroups n true (Ipv6.groupsText gs).toList = ⟨gs, false, []⟩ := by
  simpa using readGroups_groupsText hgs hlength endsGroups_nil

/-! ## IPv6 -/

theorem readIpv6_of_all {gs : List Nat} {dotted : Bool}
    (h : readGroups 8 true cs = ⟨gs, dotted, rest⟩) (hlength : gs.length = 8) :
    readIpv6 cs = some (Ipv6.ofSegments gs, rest) := by
  simp [readIpv6, h, hlength]

theorem readIpv6_of_run {front back : List Nat} {more : List Char} {dotted : Bool}
    (hfront : readGroups 8 true cs = ⟨front, false, ':' :: ':' :: more⟩)
    (hlength : front.length < 8)
    (hback : readGroups (7 - front.length) true more = ⟨back, dotted, rest⟩) :
    readIpv6 cs = some (Ipv6.ofSegments
      (front ++ List.replicate (8 - front.length - back.length) 0 ++ back), rest) := by
  simp [readIpv6, hfront, hlength.ne, readChar, hback]

theorem dot_not_mem_groupsText (gs : List Nat) : '.' ∉ (Ipv6.groupsText gs).toList := by
  cases gs with
  | nil => exact List.not_mem_nil
  | cons s gs =>
    rw [Ipv6.toList_groupsText_cons, ← laterGroups, List.mem_append, not_or]
    exact ⟨dot_not_mem_toDigits s, dot_not_mem_laterGroups gs⟩

/-- An address whose last two groups are those of an IPv4 address. -/
theorem readIpv6_ofIpv4 (v4 : Ipv4) :
    readIpv6 ("::ffff:".toList ++ v4.text.toList) = some (Ipv6.ofIpv4 v4, []) := by
  let mapped := Nat.toDigits 16 0xFFFF ++ ':' :: v4.text.toList
  have hmarks : "::ffff:".toList ++ v4.text.toList = ':' :: ':' :: mapped := rfl
  have hfront : readGroups 8 true (':' :: ':' :: mapped) = ⟨[], false, ':' :: ':' :: mapped⟩ :=
    readGroups_of_stops (stops_cons (by decide) _) 8
  have hlast : readGroups 6 false (':' :: v4.text.toList) =
      ⟨[v4.toNat / 65536, v4.toNat % 65536], true, []⟩ := by
    simp [readGroups, readChar, readIpv4_text_nil]
  have hdotted : readIpv4 mapped = none := readIpv4_of_stops (stops_cons (by decide) _)
  have hnumber : readNumber 16 4 true mapped = some (0xFFFF, ':' :: v4.text.toList) :=
    readNumber_toDigits (by decide) (by decide) (by decide) (by decide) true
      (stops_cons (by decide) _)
  have hback : readGroups 7 true mapped =
      ⟨[0xFFFF, v4.toNat / 65536, v4.toNat % 65536], true, []⟩ := by
    rw [readGroups_succ true rfl hdotted hnumber, hlast]
  rw [hmarks, readIpv6_of_run hfront (by decide) hback]
  exact congrArg (fun ip => some (ip, [])) (Ipv6.ofSegments_ofIpv4 v4)

theorem readIpv6_hexText (ip : Ipv6) : readIpv6 ip.hexText.toList = some (ip, []) := by
  have hlength := ip.length_segments
  have hsegments : ∀ s ∈ ip.segments, s < 65536 := fun s => Ipv6.lt_of_mem_segments
  rcases ip.toList_hexText_cases with hall | ⟨front, zeros, back, hzeros, hsplit, hrun⟩
  · have hread := readGroups_groupsText_nil hsegments hlength.le
    rw [hall, readIpv6_of_all hread hlength, Ipv6.ofSegments_segments]
  · rw [hsplit] at hlength hsegments
    simp only [List.length_append, List.length_replicate] at hlength
    have hfront : readGroups 8 true ip.hexText.toList =
        ⟨front, false, ':' :: ':' :: (Ipv6.groupsText back).toList⟩ := by
      rw [hrun]
      refine readGroups_groupsText (fun s hs => hsegments s ?_) (by omega) ⟨?_, .inr ⟨_, rfl⟩⟩
      · exact List.mem_append_left _ (List.mem_append_left _ hs)
      · simp [dot_not_mem_groupsText]
    have hback : readGroups (7 - front.length) true (Ipv6.groupsText back).toList =
        ⟨back, false, []⟩ :=
      readGroups_groupsText_nil (fun s hs => hsegments s (List.mem_append_right _ hs)) (by omega)
    -- Eight groups in all: the run is as long as the groups around it leave room for.
    have hmiddle : 8 - front.length - back.length = zeros := by omega
    rw [readIpv6_of_run hfront (by omega) hback, hmiddle, ← hsplit, Ipv6.ofSegments_segments]

theorem readIpv6_text (ip : Ipv6) : readIpv6 ip.text.toList = some (ip, []) := by
  cases h : ip.toIpv4? with
  | some v4 =>
    rw [Ipv6.toIpv4?_eq_some_iff.mp h, Ipv6.toList_text_ofIpv4, readIpv6_ofIpv4]
  | none => rw [Ipv6.text_of_toIpv4?_eq_none h, readIpv6_hexText]

/-! ## Whole literals -/

theorem whole_eq_some_iff {α : Type} {r : Option (α × List Char)} {a : α} :
    whole r = some a ↔ r = some (a, []) := by
  rcases r with _ | ⟨b, _ | ⟨c, rest⟩⟩ <;> simp [whole]

theorem ipv4?_text (ip : Ipv4) : ipv4? ip.text.toList = some ip :=
  whole_eq_some_iff.mpr (readIpv4_text_nil ip)

theorem ipv4?_eq_some_iff {ip : Ipv4} : ipv4? cs = some ip ↔ cs = ip.text.toList := by
  refine ⟨fun h => ?_, fun h => h ▸ ipv4?_text ip⟩
  rw [of_readIpv4 (whole_eq_some_iff.mp h), List.append_nil]

theorem ipv6?_text (ip : Ipv6) : ipv6? ip.text.toList = some ip :=
  whole_eq_some_iff.mpr (readIpv6_text ip)

theorem ipv6?_hexText (ip : Ipv6) : ipv6? ip.hexText.toList = some ip :=
  whole_eq_some_iff.mpr (readIpv6_hexText ip)

/-- The reader of groups takes an IPv4 literal for the last two groups, and there are no others. -/
theorem ipv6?_of_ipv4? {ip : Ipv4} (h : ipv4? cs = some ip) : ipv6? cs = none := by
  have hread := whole_eq_some_iff.mp h
  have hgroups : readGroups 8 true cs = ⟨[ip.toNat / 65536, ip.toNat % 65536], true, []⟩ := by
    simp [readGroups, hread]
  simp [ipv6?, readIpv6, hgroups, whole]

theorem ipv4?_of_ipv6? {ip : Ipv6} (h : ipv6? cs = some ip) : ipv4? cs = none := by
  by_contra hsome
  obtain ⟨v4, hv4⟩ := Option.ne_none_iff_exists'.mp hsome
  cases (ipv6?_of_ipv4? hv4).symm.trans h

def IsLiteral (cs : List Char) : Prop := (ipv4? cs).isSome = true ∨ (ipv6? cs).isSome = true

theorem isLiteral_of_ipv4? {ip : Ipv4} (h : ipv4? cs = some ip) : IsLiteral cs :=
  .inl (Option.isSome_of_eq_some h)

theorem isLiteral_of_ipv6? {ip : Ipv6} (h : ipv6? cs = some ip) : IsLiteral cs :=
  .inr (Option.isSome_of_eq_some h)

theorem IsLiteral.ne_nil (h : IsLiteral cs) : cs ≠ [] := by
  rintro rfl
  rcases h with h | h <;> cases h

theorem IsLiteral.isLiteralChar (h : IsLiteral cs) : ∀ c ∈ cs, IsLiteralChar c := by
  have hleaves : Leaves cs [] := by
    rcases h with h | h
    · obtain ⟨ip, hip⟩ := Option.isSome_iff_exists.mp h
      exact leaves_of_readIpv4 (whole_eq_some_iff.mp hip)
    · obtain ⟨ip, hip⟩ := Option.isSome_iff_exists.mp h
      exact leaves_of_readIpv6 (whole_eq_some_iff.mp hip)
  obtain ⟨front, rfl, hfront⟩ := hleaves
  rwa [List.append_nil]

end NetKit.Literal
