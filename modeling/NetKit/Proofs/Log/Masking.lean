import NetKit.Proofs.Log.Redaction

/-!
# Masked addresses

A value is taken for a mail address by its first at sign. To mask it, it is cut behind its first
octet, which may be inside a character; and an address that comes later, in a value that begins with
an at sign, is not found.
-/

namespace NetKit.Log

variable {name value v w : String} {c : Char} {before after l : List Char}

/-! ## Addresses -/

/-- An at sign with something in front of it and a point somewhere behind it. -/
def HasAddress (value : String) : Prop :=
  ∃ c before after, value.toList = c :: (before ++ '@' :: after) ∧ '.' ∈ after

theorem hasAddress_iff (hvalue : value.toList = c :: l) :
    HasAddress value ↔ '.' ∈ l.dropWhile (· != '@') := by
  rw [HasAddress, hvalue, Text.mem_dropWhile_ne_iff (by decide)]
  constructor
  · rintro ⟨c, before, after, h, hpoint⟩
    cases h
    exact ⟨before, after, rfl, hpoint⟩
  · rintro ⟨before, after, rfl, hpoint⟩
    exact ⟨c, before, after, rfl, hpoint⟩

theorem point_of_hasAddress (h : HasAddress value) : '.' ∈ value.toList.tail := by
  obtain ⟨c, before, after, hvalue, hpoint⟩ := h
  rw [hvalue]
  exact List.mem_append_right before (List.mem_cons_of_mem '@' hpoint)

theorem cannotBeMasked_iff_hasAddress (hvalue : value.toList = c :: l) :
    CannotBeMasked value ↔ HasAddress value ∧ 0x80 ≤ c.toNat := by
  rw [cannotBeMasked_iff hvalue, hasAddress_iff hvalue, and_comm]

/-! ## Where a value is cut -/

/-- The first at sign of a value that does not begin with one. -/
structure FirstMark (value : String) (before after : List Char) : Prop where
  value_eq : value.toList = before ++ '@' :: after
  first : '@' ∉ before
  inside : before ≠ []

/-- An offset, in octets, at which a value is cut: in front of its at sign, and behind its first
octet if there is a point behind the at sign. -/
inductive IsCut (name value : String) : Nat → Prop
  | mark {before after : List Char} (hname : ¬ IsSecret name) (h : FirstMark value before after) :
      IsCut name value (String.ofList before).utf8ByteSize
  | octet {before after : List Char} (hname : ¬ IsSecret name) (h : FirstMark value before after)
      (hpoint : '.' ∈ after) : IsCut name value 1

theorem exists_firstMark_iff (hvalue : value.toList = c :: l) :
    (∃ before after, FirstMark value before after ∧ '.' ∈ after) ↔ c ≠ '@' ∧ HasAddress value := by
  rw [hasAddress_iff hvalue]
  constructor
  · rintro ⟨before, after, ⟨hmark, hfirst, hinside⟩, hpoint⟩
    obtain ⟨d, before, rfl⟩ := List.exists_cons_of_ne_nil hinside
    obtain ⟨rfl, rfl⟩ := List.cons.inj (hvalue.symm.trans hmark)
    refine ⟨fun hc => hfirst (hc ▸ List.mem_cons_self), ?_⟩
    exact (Text.mem_dropWhile_ne_iff (by decide)).mpr ⟨before, after, rfl, hpoint⟩
  · rintro ⟨hc, hpoint⟩
    have hmark : '@' ∈ l := by
      obtain ⟨before, after, rfl, -⟩ := (Text.mem_dropWhile_ne_iff (by decide)).mp hpoint
      simp
    obtain ⟨before, after, rfl, hfirst⟩ := List.eq_append_cons_of_mem hmark
    have hpass : ∀ a ∈ before, (a != '@') = true := fun a ha =>
      bne_iff_ne.mpr fun h => hfirst (h ▸ ha)
    rw [List.dropWhile_append_of_pos hpass] at hpoint
    have hafter : '.' ∈ after := by simpa using hpoint
    refine ⟨c :: before, after, ⟨hvalue, ?_, List.cons_ne_nil c before⟩, hafter⟩
    simp [hfirst, Ne.symm hc]

/-- Between the characters. -/
theorem isValid_of_append (hvalue : value.toList = before ++ l) :
    (⟨(String.ofList before).utf8ByteSize⟩ : String.Pos.Raw).IsValid value := by
  refine String.Pos.Raw.isValid_iff_exists_append.mpr ⟨.ofList before, .ofList l, ?_, rfl⟩
  rw [← String.ofList_append, ← hvalue, String.ofList_toList]

theorem utf8ByteSize_cons (c : Char) (l : List Char) :
    (String.ofList (c :: l)).utf8ByteSize = c.utf8Size + (String.ofList l).utf8ByteSize := by
  rw [← List.singleton_append, String.ofList_append, String.utf8ByteSize_append,
    ← String.singleton_eq_ofList, String.utf8ByteSize_singleton]

theorem utf8Size_eq_one_iff : c.utf8Size = 1 ↔ c.toNat < 0x80 := by
  rw [Char.utf8Size_eq_one_iff, UInt32.le_iff_toNat_le, ← Nat.lt_succ_iff]
  rfl

theorem isValid_one_iff (hvalue : value.toList = c :: l) :
    (⟨1⟩ : String.Pos.Raw).IsValid value ↔ c.toNat < 0x80 := by
  rw [← String.ofList_toList (s := value), hvalue, String.Pos.Raw.isValid_ofList,
    ← utf8Size_eq_one_iff]
  constructor
  · rintro ⟨i, hi⟩
    cases i with
    | zero => simp at hi
    | succ i =>
      have hpos : 0 < c.utf8Size := c.utf8Size_pos
      have hsum : 1 = c.utf8Size + (String.ofList (l.take i)).utf8ByteSize := by
        rw [← utf8ByteSize_cons, ← List.take_succ_cons]
        exact hi
      omega
  · intro hsize
    refine ⟨1, ?_⟩
    rw [List.take_succ_cons, List.take_zero, utf8ByteSize_cons, hsize]
    rfl

/-- A value can be redacted exactly if every cut is between characters, that is unless it is no
secret's, has an address and begins with a character beyond ASCII. -/
theorem redacted_iff_cut_between_characters (name value : String) :
    ((∃ shown, redact? name value = some shown) ↔
      ∀ offset, IsCut name value offset → (⟨offset⟩ : String.Pos.Raw).IsValid value) ∧
    ((∃ shown, redact? name value = some shown) ↔ IsSecret name ∨ ¬ CannotBeMasked value) := by
  have htold : (∃ shown, redact? name value = some shown) ↔
      ¬ (¬ IsSecret name ∧ CannotBeMasked value) := by
    rw [← redact?_eq_none_iff, ← Option.isSome_iff_exists, Option.isSome_iff_ne_none]
  refine ⟨htold.trans ⟨fun htold offset hcut => ?_, fun hcuts hlost => ?_⟩,
    htold.trans (by rw [not_and_or, not_not])⟩
  · cases hcut with
    | mark hname h => exact isValid_of_append h.value_eq
    | octet hname h hpoint =>
      obtain ⟨c, l, hvalue⟩ := List.exists_cons_of_ne_nil (l := value.toList) (by simp [h.value_eq])
      have haddress := ((exists_firstMark_iff hvalue).mp ⟨_, _, h, hpoint⟩).2
      rw [isValid_one_iff hvalue]
      refine Nat.lt_of_not_le fun hbeyond => htold ⟨hname, ?_⟩
      exact (cannotBeMasked_iff_hasAddress hvalue).mpr ⟨haddress, hbeyond⟩
  · obtain ⟨hname, hlost⟩ := hlost
    obtain ⟨c, before, after, hvalue, hbeyond, hpoint⟩ := id hlost
    have haddress := ((cannotBeMasked_iff_hasAddress hvalue).mp hlost).1
    have hc : c ≠ '@' := by
      rintro rfl
      exact absurd hbeyond (by decide)
    obtain ⟨_, _, hmark, hafter⟩ := (exists_firstMark_iff hvalue).mpr ⟨hc, haddress⟩
    have hvalid := hcuts 1 (.octet hname hmark hafter)
    exact absurd ((isValid_one_iff hvalue).mp hvalid) (Nat.not_lt.mpr hbeyond)

/-- The first octet of an accented letter is not a character. -/
theorem accented_value_is_cut_inside :
    ¬ ∀ name value : String, (∃ shown, redact? name value = some shown) ∧
      ∀ offset, IsCut name value offset → (⟨offset⟩ : String.Pos.Raw).IsValid value := by
  intro h
  obtain ⟨shown, hshown⟩ := (h "san" "é@x.y").1
  have hnone : redact? "san" "é@x.y" = none := by decide
  rw [hnone] at hshown
  cases hshown

/-! ## What is shown of an address -/

/-- A character with the mask behind it. -/
def masked (c : Char) : String := String.ofList [c] ++ "***@[REDACTED]"

/-- Of a value with an address the first character is shown, of another value all. -/
def Hides (value shown : String) : Prop :=
  (∀ c ∈ value.toList.head?, HasAddress value → shown = masked c) ∧
    (¬ HasAddress value → shown = value)

/-- Empty, or with a character of ASCII in front. -/
def BeginsAscii (value : String) : Prop := ∀ c ∈ value.toList.head?, c.toNat < 0x80

/-- An address with this first character, or what is left of one. -/
def LooksLike (c : Char) (value : String) : Prop :=
  value = masked c ∨ value.toList.head? = some c ∧ HasAddress value

theorem toList_masked (c : Char) : (masked c).toList = c :: "***@[REDACTED]".toList := by
  rw [masked, String.toList_append, String.toList_ofList, List.singleton_append]

theorem masked_injective : Function.Injective masked := by
  intro c d h
  have hlist : (masked c).toList = (masked d).toList := congrArg String.toList h
  rw [toList_masked, toList_masked] at hlist
  exact (List.cons.inj hlist).1

/-- The mask has no point, so that it is not masked again. -/
theorem not_hasAddress_masked (c : Char) : ¬ HasAddress (masked c) := by
  intro h
  have hpoint := point_of_hasAddress h
  rw [toList_masked, List.tail_cons] at hpoint
  exact absurd hpoint (by decide)

theorem redact?_of_address (hname : ¬ IsSecret name) (hvalue : value.toList = c :: l)
    (hascii : c.toNat < 0x80) (hc : c ≠ '@') (haddress : HasAddress value) :
    redact? name value = some (masked c) := by
  have hpass : (c != '@') = true := bne_iff_ne.mpr hc
  rw [hasAddress_iff hvalue] at haddress
  rw [redact?, if_neg (mt isSensitive_iff.mp hname), hvalue]
  simp [hpass, haddress, hascii, masked]

theorem redact?_of_not_hasAddress (hname : ¬ IsSecret name) (haddress : ¬ HasAddress value) :
    redact? name value = some value := by
  rw [redact?, if_neg (mt isSensitive_iff.mp hname)]
  cases hvalue : value.toList with
  | nil => rfl
  | cons c l =>
    rw [hasAddress_iff hvalue] at haddress
    by_cases hc : c = '@'
    · simp [hc]
    · have hpass : (c != '@') = true := bne_iff_ne.mpr hc
      simp [hpass, haddress]

theorem redact?_of_mark_first (hname : ¬ IsSecret name) (hvalue : value.toList.head? = some '@') :
    redact? name value = some value := by
  obtain ⟨l, hvalue⟩ := List.head?_eq_some_iff.mp hvalue
  rw [redact?, if_neg (mt isSensitive_iff.mp hname), hvalue]
  simp

theorem redact?_cases (hname : ¬ IsSecret name) (hascii : BeginsAscii value) :
    (∃ c, value.toList.head? = some c ∧ c ≠ '@' ∧ HasAddress value ∧
      redact? name value = some (masked c)) ∨
    ((value.toList.head? = some '@' ∨ ¬ HasAddress value) ∧ redact? name value = some value) := by
  by_cases haddress : HasAddress value
  · obtain ⟨c, before, after, hvalue, -⟩ := id haddress
    have hhead : value.toList.head? = some c := by rw [hvalue, List.head?_cons]
    by_cases hc : c = '@'
    · subst hc
      exact .inr ⟨.inl hhead, redact?_of_mark_first hname hhead⟩
    · exact .inl ⟨c, hhead, hc, haddress,
        redact?_of_address hname hvalue (hascii c hhead) hc haddress⟩
  · exact .inr ⟨.inr haddress, redact?_of_not_hasAddress hname haddress⟩

theorem redact?_of_looksLike (hname : ¬ IsSecret name) (hascii : BeginsAscii value) (hc : c ≠ '@')
    (h : LooksLike c value) : redact? name value = some (masked c) := by
  rcases h with rfl | ⟨hhead, haddress⟩
  · exact redact?_of_not_hasAddress hname (not_hasAddress_masked c)
  · obtain ⟨l, hvalue⟩ := List.head?_eq_some_iff.mp hhead
    exact redact?_of_address hname hvalue (hascii c hhead) hc haddress

/-- An address is hidden exactly if its value does not begin with an at sign; a value that does is
shown as it is. So two values are told alike if they are one, or both have addresses with the same
first character, other than an at sign, or are what is left of such a one. -/
theorem address_hidden_unless_mark_first (hname : ¬ IsSecret name) :
    (∀ value, BeginsAscii value → ∃ shown, redact? name value = some shown ∧
      (Hides value shown ↔ ¬ (value.toList.head? = some '@' ∧ HasAddress value)) ∧
      (value.toList.head? = some '@' → shown = value)) ∧
    ∀ v w, BeginsAscii v → BeginsAscii w →
      (redact? name v = redact? name w ↔ v = w ∨ ∃ c, c ≠ '@' ∧ LooksLike c v ∧ LooksLike c w) := by
  refine ⟨fun value hascii => ?_, fun v w hv hw => ⟨fun halike => ?_, ?_⟩⟩
  · rcases redact?_cases hname hascii with ⟨c, hhead, hc, haddress, htold⟩ | ⟨hplain, htold⟩
    · refine ⟨masked c, htold, iff_of_true ?_ ?_, ?_⟩
      · refine ⟨fun d hd _ => ?_, fun h => absurd haddress h⟩
        rw [Option.some.inj (hhead.symm.trans hd)]
      · exact fun h => hc (Option.some.inj (hhead.symm.trans h.1))
      · exact fun h => absurd (Option.some.inj (hhead.symm.trans h)) hc
    · refine ⟨value, htold, ?_, fun _ => rfl⟩
      by_cases haddress : HasAddress value
      · have hhead := hplain.resolve_right (not_not.mpr haddress)
        refine iff_of_false (fun hhides => ?_) (not_not.mpr ⟨hhead, haddress⟩)
        have hmasked : value = masked '@' := hhides.1 '@' hhead haddress
        exact not_hasAddress_masked '@' (hmasked ▸ haddress)
      · exact iff_of_true ⟨fun _ _ h => absurd h haddress, fun _ => rfl⟩ fun h => haddress h.2
  · rcases redact?_cases hname hv with ⟨c, hc, hne, hcv, htoldv⟩ | ⟨-, htoldv⟩ <;>
      rcases redact?_cases hname hw with ⟨d, hd, hned, hdw, htoldw⟩ | ⟨-, htoldw⟩ <;>
      rw [htoldv, htoldw, Option.some.injEq] at halike
    · obtain rfl := masked_injective halike
      exact .inr ⟨c, hne, .inr ⟨hc, hcv⟩, .inr ⟨hd, hdw⟩⟩
    · exact .inr ⟨c, hne, .inr ⟨hc, hcv⟩, .inl halike.symm⟩
    · exact .inr ⟨d, hned, .inl halike, .inr ⟨hd, hdw⟩⟩
    · exact .inl halike
  · rintro (rfl | ⟨c, hc, hlikev, hlikew⟩)
    · rfl
    · rw [redact?_of_looksLike hname hv hc hlikev, redact?_of_looksLike hname hw hc hlikew]

theorem addresses_of_one_letter_look_alike :
    ¬ IsSecret "email" ∧ BeginsAscii "ann@x.y" ∧ BeginsAscii "al@b.c" ∧
      (∃ shown, redact? "email" "ann@x.y" = some shown ∧ Hides "ann@x.y" shown) ∧
      redact? "email" "ann@x.y" = redact? "email" "al@b.c" := by
  have hname : ¬ IsSecret "email" := by
    rw [← isSensitive_iff]
    decide
  have hann : BeginsAscii "ann@x.y" := by
    rintro c ⟨⟩
    decide
  have hal : BeginsAscii "al@b.c" := by
    rintro c ⟨⟩
    decide
  obtain ⟨hhides, halike⟩ := address_hidden_unless_mark_first hname
  obtain ⟨shown, hshown, hiff, -⟩ := hhides "ann@x.y" hann
  have hhead : "ann@x.y".toList.head? ≠ some '@' := by decide
  refine ⟨hname, hann, hal, ⟨shown, hshown, hiff.mpr fun h => hhead h.1⟩, ?_⟩
  refine (halike _ _ hann hal).mpr (.inr ⟨'a', by decide, .inr ⟨rfl, ?_⟩, .inr ⟨rfl, ?_⟩⟩)
  · exact ⟨'a', "nn".toList, "x.y".toList, rfl, by decide⟩
  · exact ⟨'a', "l".toList, "b.c".toList, rfl, by decide⟩

/-- The address behind an at sign that comes first is shown. -/
theorem second_address_is_shown :
    ¬ ∀ name value : String, ¬ IsSecret name → (∀ c ∈ value.toList, c.toNat < 0x80) →
      ∃ shown, redact? name value = some shown ∧ Hides value shown := by
  intro h
  have hname : ¬ IsSecret "user" := by
    rw [← isSensitive_iff]
    decide
  obtain ⟨shown, hshown, hhides, -⟩ := h "user" "@ops ann@x.y" hname (by simp)
  have hwhole : redact? "user" "@ops ann@x.y" = some "@ops ann@x.y" := by decide
  have haddress : HasAddress "@ops ann@x.y" := ⟨'@', "ops ann".toList, "x.y".toList, rfl, by decide⟩
  obtain rfl := Option.some.inj (hwhole.symm.trans hshown)
  have hmasked : "@ops ann@x.y" = masked '@' := hhides '@' rfl haddress
  exact absurd hmasked (by decide)

end NetKit.Log
