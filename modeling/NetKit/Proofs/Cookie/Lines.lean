import NetKit.Cookie.SetCookie
import NetKit.Proofs.Answers
import NetKit.Proofs.Cookie.Dates
import NetKit.Proofs.Text.Pieces

/-!
# Lines of cookies are read back

A line is a pair and attributes with semicolons between them. The attributes are read one after the
other, each into the field that it was written from.
-/

namespace NetKit.SetCookie

open Text

/-! ## Texts in lines -/

/-- Ends an attribute or a line. -/
def isMark (a : Char) : Bool := a == ';' || a == '\n'

theorem isMark_iff {a : Char} : isMark a = true ↔ a = ';' ∨ a = '\n' := by
  simp [isMark]

def Unmarked (cs : List Char) : Prop := ∀ a ∈ cs, isMark a = false

instance (cs : List Char) : Decidable (Unmarked cs) :=
  decidable_of_iff (cs.all (!isMark ·) = true) (by simp [Unmarked])

theorem Unmarked.append {cs ds : List Char} (hcs : Unmarked cs) (hds : Unmarked ds) :
    Unmarked (cs ++ ds) := by
  intro a ha
  rcases List.mem_append.mp ha with ha | ha
  · exact hcs a ha
  · exact hds a ha

/-- A text that stands in a line as it is. -/
structure Kept (cs : List Char) : Prop where
  trimmed : trim cs = cs
  unmarked : Unmarked cs

/-- A text that a line can end with. -/
structure Ended (cs : List Char) : Prop where
  unmarked : Unmarked cs
  last : ∀ a ∈ cs.getLast?, isBlank a = false

instance (cs : List Char) : Decidable (Ended cs) :=
  decidable_of_iff (Unmarked cs ∧ cs.getLast?.all (!isBlank ·) = true) (by
    constructor
    · rintro ⟨hunmarked, hlast⟩
      refine ⟨hunmarked, fun a ha => ?_⟩
      rw [Option.mem_def.mp ha] at hlast
      simpa using hlast
    · rintro ⟨hunmarked, hlast⟩
      refine ⟨hunmarked, ?_⟩
      cases ha : cs.getLast? with
      | none => rfl
      | some a => simp [hlast a ha])

theorem last_append {cs ds : List Char} (hcs : ∀ a ∈ cs.getLast?, isBlank a = false)
    (hds : ∀ a ∈ ds.getLast?, isBlank a = false) :
    ∀ a ∈ (cs ++ ds).getLast?, isBlank a = false := by
  intro a ha
  rw [List.getLast?_append] at ha
  rcases Option.or_eq_some_iff.mp ha with ha | ⟨-, ha⟩
  · exact hds a ha
  · exact hcs a ha

theorem Ended.append {cs ds : List Char} (hcs : Ended cs) (hds : Ended ds) : Ended (cs ++ ds) :=
  ⟨hcs.unmarked.append hds.unmarked, last_append hcs.last hds.last⟩

theorem Kept.ended {cs : List Char} (h : Kept cs) : Ended cs := by
  refine ⟨h.unmarked, fun a ha => ?_⟩
  rw [← h.trimmed] at ha
  exact not_of_getLast?_trimBy ha

theorem kept_trim {cs : List Char} (h : Unmarked cs) : Kept (trim cs) :=
  ⟨trim_trim cs, fun a ha => h a ((trimBy_sublist isBlank cs).subset ha)⟩

/-! ## Dates in lines -/

theorem isMark_of_isDigit {a : Char} (h : a.isDigit = true) : isMark a = false := by
  by_contra hmark
  rcases isMark_iff.mp (Bool.not_eq_false _ ▸ hmark) with rfl | rfl <;> cases h

theorem unmarked_name {names : List String} (h : ∀ n ∈ names, Unmarked n.toList) (i : Nat) :
    Unmarked (names.getD i "").toList := by
  rw [List.getD_eq_getElem?_getD]
  cases hi : names[i]? with
  | none => exact fun a ha => absurd ha List.not_mem_nil
  | some n => exact h n (List.mem_of_getElem? hi)

theorem unmarked_signed (y : Int) : Unmarked (signed y).toList := by
  intro a ha
  rw [signed] at ha
  split at ha
  · rw [String.toList_ofList, List.mem_cons] at ha
    rcases ha with rfl | hdigit
    · rfl
    · exact isMark_of_isDigit (isDigit_of_mem_decimal hdigit)
  · rw [String.toList_ofList] at ha
    exact isMark_of_isDigit (isDigit_of_mem_decimal ha)

/-- Whether a part of a date is written without marks. -/
def isUnmarked : CookieDate.Part → Bool
  | .literal a => !isMark a
  | _ => true

theorem unmarked_writePart (c : CivilTime) {p : CookieDate.Part} (hp : isUnmarked p) :
    Unmarked (CookieDate.writePart c p) := by
  intro a ha
  cases p with
  | literal b =>
      obtain rfl := List.mem_singleton.mp ha
      simpa [isUnmarked] using hp
  | day | hour | minute | second | yearShort => exact isMark_of_isDigit (isDigit_of_mem_padded ha)
  | daySpace =>
      rw [CookieDate.writePart] at ha
      split at ha
      · rcases List.mem_cons.mp ha with rfl | hdigit
        · rfl
        · exact isMark_of_isDigit (isDigit_of_mem_decimal hdigit)
      · exact isMark_of_isDigit (isDigit_of_mem_decimal ha)
  | month => exact unmarked_name (by decide) _ a ha
  | year => exact unmarked_signed _ a ha

theorem unmarked_write (secs : Int) : Unmarked (CookieDate.write secs) := by
  have hparts : ∀ p ∈ CookieDate.mailForm.parts, isUnmarked p := by decide
  have hbetween : Unmarked CookieDate.mailForm.afterWeekday.toList := by decide
  rw [CookieDate.write, CookieDate.writeForm]
  refine ((unmarked_name (by decide) _).append hbetween).append fun a ha => ?_
  obtain ⟨p, hp, ha⟩ := List.mem_flatMap.mp ha
  exact unmarked_writePart _ (hparts p hp) a ha

/-- A written date begins with a weekday and ends with its zone. -/
theorem trim_write (secs : Int) : trim (CookieDate.write secs) = CookieDate.write secs := by
  generalize hc : CivilTime.ofUnix secs = c
  have hweekday : c.date.weekday < 7 := by
    rw [Date.weekday]
    omega
  have hparts : CookieDate.mailForm.parts =
      CookieDate.spaced [.day] [.month] [.year] ' ' [] ++ CookieDate.zone := rfl
  have hzone : CookieDate.zone.flatMap (CookieDate.writePart c) = " GMT".toList := rfl
  rw [CookieDate.write, hc, CookieDate.writeForm]
  apply trimBy_eq_self
  · intro a ha
    generalize c.date.weekday = i at hweekday ha
    interval_cases i <;> cases ha <;> rfl
  · intro a ha
    rw [hparts, List.flatMap_append, hzone, ← List.append_assoc, List.getLast?_append] at ha
    cases ha
    rfl

theorem kept_write (secs : Int) : Kept (CookieDate.write secs) :=
  ⟨trim_write secs, unmarked_write secs⟩

/-! ## Attributes -/

/-- A flag as it stands after a semicolon. -/
def flag (name : String) (isSet : Bool) : List (List Char) :=
  if isSet then [' ' :: name.toList] else []

/-- A value with its name as they stand after a semicolon. -/
def pair (name : String) (v : Option (List Char)) : List (List Char) :=
  v.toList.map fun v => ' ' :: name.toList ++ '=' :: v

def attributes (c : SetCookie) : List (List Char) :=
  flag "HttpOnly" c.httpOnly ++ pair "SameSite" (sameSiteText c.sameSite) ++
    flag "Secure" c.showsSecure ++ pair "Path" c.path ++ pair "Domain" c.bareDomain ++
    pair "Max-Age" (c.maxAge.map decimal) ++ pair "Expires" (c.expires.map CookieDate.write)

theorem flatMap_flag (name : String) (isSet : Bool) :
    (flag name isSet).flatMap (';' :: ·) = flagText name isSet := by
  cases isSet with
  | false => rfl
  | true => simp [flag, flagText]

theorem flatMap_pair (name : String) (v : Option (List Char)) :
    (pair name v).flatMap (';' :: ·) = attributeText name v := by
  cases v with
  | none => rfl
  | some v => simp [pair, attributeText]

theorem text_eq (c : SetCookie) : c.text = c.pairText ++ c.attributes.flatMap (';' :: ·) := by
  simp only [text, attributes, List.flatMap_append, flatMap_flag, flatMap_pair, List.append_assoc]

/-! ## Reading -/

theorem splitPair_append {key : List Char} (h : '=' ∉ key) (v : List Char) :
    splitPair (key ++ '=' :: v) = (trim key, some (trim v)) := by
  have hkey : ∀ a ∈ key, (a == '=') = false := fun a ha =>
    beq_false_of_ne fun he => h (he ▸ ha)
  rw [splitPair, splitOnce_append hkey (beq_self_eq_true '=')]

variable {c : SetCookie}

theorem foldl_pair (c : SetCookie) {name : String} (hname : '=' ∉ name.toList)
    (htrim : trim name.toList = name.toList) (v : Option (List Char)) :
    (pair name v).foldl readAttribute c =
      (v.map fun v => c.withAttribute name.toList (some (trim v))).getD c := by
  cases v with
  | none => rfl
  | some v =>
    have hkey : '=' ∉ ' ' :: name.toList := by
      rw [List.mem_cons, not_or]
      exact ⟨by decide, hname⟩
    have hblank : isBlank ' ' = true := by decide
    simp only [pair, Option.toList_some, List.map_cons, List.map_nil, List.foldl_cons,
      List.foldl_nil, readAttribute, splitPair_append hkey, trim_cons_blank hblank, htrim,
      Option.map_some, Option.getD_some]

theorem foldl_httpOnly (c : SetCookie) (isSet : Bool) :
    (flag "HttpOnly" isSet).foldl readAttribute c = { c with httpOnly := c.httpOnly || isSet } := by
  cases isSet with
  | false => rw [Bool.or_false]; rfl
  | true => rw [Bool.or_true]; rfl

theorem foldl_secure (c : SetCookie) (isSet : Bool) :
    (flag "Secure" isSet).foldl readAttribute c = { c with secure := c.secure || isSet } := by
  cases isSet with
  | false => rw [Bool.or_false]; rfl
  | true => rw [Bool.or_true]; rfl

theorem foldl_sameSite (c : SetCookie) (s : SameSite) :
    (pair "SameSite" (sameSiteText s)).foldl readAttribute c =
      { c with sameSite := if s = .default then c.sameSite else s } := by
  cases s <;> rfl

theorem foldl_path (c : SetCookie) (v : Option (List Char)) :
    (pair "Path" v).foldl readAttribute c = { c with path := v.map trim <|> c.path } := by
  rw [foldl_pair c (by decide) (by decide)]
  cases v <;> rfl

theorem foldl_domain (c : SetCookie) (v : Option (List Char)) :
    (pair "Domain" v).foldl readAttribute c =
      { c with domain := (v.map trim).filter (!·.isEmpty) <|> c.domain } := by
  rw [foldl_pair c (by decide) (by decide)]
  cases v with
  | none => rfl
  | some v =>
    have hread : c.withAttribute "Domain".toList (some (trim v)) =
        if (trim v).isEmpty then c else { c with domain := some (trim v) } := rfl
    rw [Option.map_some, Option.getD_some, hread, Option.map_some, Option.filter_some]
    cases (trim v).isEmpty <;> rfl

theorem foldl_expires (c : SetCookie) {secs : Option Int}
    (h : ∀ s ∈ secs, CookieDate.Readable (CivilTime.ofUnix s)) :
    (pair "Expires" (secs.map CookieDate.write)).foldl readAttribute c =
      { c with expires := secs <|> c.expires } := by
  rw [foldl_pair c (by decide) (by decide)]
  cases secs with
  | none => rfl
  | some s =>
    have hread : c.withAttribute "Expires".toList (some (CookieDate.write s)) =
        { c with expires := CookieDate.read? (CookieDate.write s) <|> c.expires } := rfl
    rw [Option.map_some, Option.map_some, Option.getD_some, trim_write, hread,
      CookieDate.read?_write (h s rfl)]

/-! ## Lines that say what they are -/

/-- A cookie whose pair and path are read as they stand. -/
structure Legible (c : SetCookie) : Prop where
  name_ne : c.name ≠ []
  name : Kept c.name
  name_equals : '=' ∉ c.name
  value : Kept c.value
  path : ∀ v ∈ c.path, Kept v

/-- A cookie whose line says what it is, but for its age, which is not written, and for the blanks
and the dot that its domain may begin with. -/
structure Plain (c : SetCookie) : Prop extends Legible c where
  domain : ∀ d ∈ c.bareDomain, Ended d
  age : c.maxAge = none
  expires : ∀ s ∈ c.expires, CookieDate.Readable (CivilTime.ofUnix s)

theorem forall_mem_flag {P : List Char → Prop} {name : String} (h : P (' ' :: name.toList))
    (isSet : Bool) : ∀ piece ∈ flag name isSet, P piece := by
  intro piece hpiece
  rw [flag] at hpiece
  split at hpiece
  · rwa [List.mem_singleton.mp hpiece]
  · cases hpiece

theorem forall_mem_pair {P : List Char → Prop} {name : String} {v : Option (List Char)}
    (h : ∀ w ∈ v, P (' ' :: name.toList ++ '=' :: w)) : ∀ piece ∈ pair name v, P piece := by
  intro piece hpiece
  obtain ⟨w, hw, rfl⟩ := List.mem_map.mp hpiece
  exact h w (Option.mem_toList.mp hw)

theorem ended_pair {name : String} (h : Ended (' ' :: name.toList ++ ['=']))
    {v : Option (List Char)} (hv : ∀ w ∈ v, Ended w) : ∀ piece ∈ pair name v, Ended piece := by
  refine forall_mem_pair fun w hw => ?_
  rw [List.append_cons]
  exact h.append (hv w hw)

theorem ended_sameSiteText (s : SameSite) : ∀ w ∈ sameSiteText s, Ended w := by
  cases s <;> rintro w ⟨⟩ <;> decide

theorem Plain.ended_attributes (h : Plain c) : ∀ piece ∈ c.attributes, Ended piece := by
  have hexpires : ∀ w ∈ c.expires.map CookieDate.write, Ended w := by
    intro w hw
    obtain ⟨s, -, rfl⟩ := Option.map_eq_some_iff.mp hw
    exact (kept_write s).ended
  have hage : ∀ w ∈ c.maxAge.map decimal, Ended w := by
    rw [h.age]
    rintro w ⟨⟩
  intro piece hpiece
  simp only [attributes, List.mem_append] at hpiece
  rcases hpiece with (((((hflag | hpair) | hflag) | hpair) | hpair) | hpair) | hpair
  · exact forall_mem_flag (by decide) _ piece hflag
  · exact ended_pair (by decide) (ended_sameSiteText c.sameSite) piece hpair
  · exact forall_mem_flag (by decide) _ piece hflag
  · exact ended_pair (by decide) (fun v hv => (h.path v hv).ended) piece hpair
  · exact ended_pair (by decide) h.domain piece hpair
  · exact ended_pair (by decide) hage piece hpair
  · exact ended_pair (by decide) hexpires piece hpair

theorem Plain.ended_pairText (h : Plain c) : Ended c.pairText := by
  rw [pairText, List.append_cons]
  exact (h.name.ended.append (show Ended ['='] by decide)).append h.value.ended

theorem pair_none (name : String) : pair name none = [] := rfl

theorem sameSite_orDefault (s : SameSite) : (if s = .default then .default else s) = s := by
  split
  · rename_i h
    rw [h]
  · rfl

theorem Unmarked.not_mem {cs : List Char} {a : Char} (h : Unmarked cs) (ha : isMark a = true) :
    a ∉ cs := fun hmem => by
  cases ha.symm.trans (h a hmem)

theorem Unmarked.semicolon {cs : List Char} (h : Unmarked cs) : ';' ∉ cs := h.not_mem rfl

theorem Unmarked.lineFeed {cs : List Char} (h : Unmarked cs) : '\n' ∉ cs := h.not_mem rfl

/-- A line whose semicolons all stand between its attributes is read as what it says. -/
theorem parse_text_of_unsplit (hpair : ';' ∉ c.pairText)
    (hpieces : ∀ piece ∈ c.attributes, ';' ∉ piece) (hequals : '=' ∉ c.name)
    (hname : trim c.name ≠ []) (hage : c.maxAge = none)
    (hexpires : ∀ s ∈ c.expires, CookieDate.Readable (CivilTime.ofUnix s)) :
    parse c.text = .ok { c with
      name := trim c.name
      value := trim c.value
      path := c.path.map trim
      secure := c.showsSecure
      domain := (c.bareDomain.map trim).filter (!·.isEmpty) } := by
  rw [parse, text_eq, splitBy_pieces ';' hpair hpieces]
  -- What is read is the pair with nothing else, so each attribute fills in a field of its own.
  simp only [pairText, splitPair_append hequals, List.isEmpty_iff, if_neg hname, attributes,
    List.foldl_append, foldl_httpOnly, foldl_sameSite, foldl_secure, foldl_path, foldl_domain,
    foldl_expires _ hexpires, hage, Option.map_none, pair_none, List.foldl_nil, Bool.false_or,
    sameSite_orDefault, Option.orElse_eq_orElse, Option.orElse_eq_or, Option.or_none]

theorem Plain.parse_text (h : Plain c) : parse c.text = .ok { c with
    secure := c.showsSecure, domain := (c.bareDomain.map trim).filter (!·.isEmpty) } := by
  have hpath : c.path.map trim = c.path := by
    cases hv : c.path with
    | none => rfl
    | some v => rw [Option.map_some, (h.path v hv).trimmed]
  rw [parse_text_of_unsplit h.ended_pairText.unmarked.semicolon
    (fun piece hpiece => (h.ended_attributes piece hpiece).unmarked.semicolon) h.name_equals
    (h.name.trimmed.symm ▸ h.name_ne) h.age h.expires, h.name.trimmed, h.value.trimmed, hpath]

theorem Plain.lineFeed_text (h : Plain c) : '\n' ∉ c.text := by
  rw [text_eq, List.mem_append, List.mem_flatMap]
  rintro (hpair | ⟨piece, hpiece, hmem⟩)
  · exact h.ended_pairText.unmarked.lineFeed hpair
  · rcases List.mem_cons.mp hmem with hsemicolon | hmem
    · cases hsemicolon
    · exact (h.ended_attributes piece hpiece).unmarked.lineFeed hmem

theorem last_pieces {ls : List (List Char)} (h : ∀ piece ∈ ls, Ended piece) :
    ∀ a ∈ (ls.flatMap (';' :: ·)).getLast?, isBlank a = false := by
  induction ls with
  | nil => rintro a ⟨⟩
  | cons piece ls ih =>
    rw [List.forall_mem_cons] at h
    rw [List.flatMap_cons]
    have hpiece : ∀ a ∈ ([';'] ++ piece).getLast?, isBlank a = false :=
      last_append (by rintro a ⟨⟩; rfl) h.1.last
    exact last_append hpiece (ih h.2)

theorem Plain.trim_text (h : Plain c) : trim c.text = c.text := by
  rw [text_eq]
  refine trimBy_eq_self (fun a ha => ?_)
    (last_append h.ended_pairText.last (last_pieces h.ended_attributes))
  rw [pairText, List.append_assoc, List.head?_append_of_ne_nil _ h.name_ne, ← h.name.trimmed] at ha
  exact not_of_head?_trimBy ha

/-! ## What lines are read as -/

/-- A cookie as it comes from a line. -/
structure Parsed (c : SetCookie) : Prop extends Legible c where
  domain : ∀ d ∈ c.domain, d ≠ [] ∧ Kept d
  expires : ∀ s ∈ c.expires, CookieDate.IsFull (CivilTime.ofUnix s).date.year

theorem of_splitPair {cs key : List Char} {v : Option (List Char)} (h : Unmarked cs)
    (hpair : splitPair cs = (key, v)) :
    ∀ w ∈ v, Kept key ∧ '=' ∉ key ∧ Kept w := by
  rintro w rfl
  rw [splitPair] at hpair
  split at hpair
  · rename_i before after hsplit
    cases hpair
    obtain ⟨⟨a, _, rfl⟩, hbefore⟩ := of_splitOnce hsplit
    have hkey : '=' ∉ before := fun hmem => by simpa using hbefore '=' hmem
    refine ⟨kept_trim fun b hb => h b (List.mem_append_left _ hb),
      fun hmem => hkey ((trimBy_sublist isBlank before).subset hmem),
      kept_trim fun b hb => h b (List.mem_append_right _ (List.mem_cons_of_mem a hb))⟩
  · cases hpair

theorem Parsed.withAttribute (h : Parsed c) {key : List Char} {v : Option (List Char)}
    (hv : ∀ w ∈ v, Kept w) : Parsed (c.withAttribute key v) := by
  unfold SetCookie.withAttribute
  split
  · exact { h with }
  · exact { h with }
  · exact { h with }
  · rename_i w _
    split
    · exact h
    · rename_i hne
      refine { h with domain := fun d hd => ?_ }
      obtain rfl : w = d := Option.some.inj hd
      exact ⟨by simpa using hne, hv w rfl⟩
  · exact { h with path := hv }
  · exact { h with }
  · rename_i w _
    refine { h with expires := fun s hs => ?_ }
    have hs : (CookieDate.read? w <|> c.expires) = some s := hs
    rw [Option.orElse_eq_orElse, Option.orElse_eq_or] at hs
    rcases Option.or_eq_some_iff.mp hs with hread | ⟨-, hs⟩
    · exact CookieDate.isFull_of_read? hread
    · exact h.expires s hs
  · exact h

theorem Parsed.readAttribute (h : Parsed c) {piece : List Char} (hpiece : Unmarked piece) :
    Parsed (c.readAttribute piece) := by
  rw [SetCookie.readAttribute]
  exact h.withAttribute fun w hw => (of_splitPair hpiece rfl w hw).2.2

theorem Parsed.foldl (h : Parsed c) {pieces : List (List Char)}
    (hpieces : ∀ piece ∈ pieces, Unmarked piece) :
    Parsed (pieces.foldl SetCookie.readAttribute c) := by
  induction pieces generalizing c with
  | nil => exact h
  | cons piece pieces ih =>
    rw [List.forall_mem_cons] at hpieces
    exact ih (h.readAttribute hpieces.1) hpieces.2

theorem unmarked_piece {line piece : List Char} (hline : '\n' ∉ line)
    (hpiece : piece ∈ splitBy (· == ';') line) : Unmarked piece := by
  intro a ha
  obtain ⟨hmem, hsemicolon⟩ := of_mem_splitBy hpiece a ha
  rw [isMark, hsemicolon, Bool.false_or, beq_eq_false_iff_ne]
  rintro rfl
  exact hline hmem

theorem parsed_of_parse {line : List Char} (hline : '\n' ∉ line) (h : parse line = .ok c) :
    Parsed c := by
  have hpieces := fun piece (hpiece : piece ∈ splitBy (· == ';') line) =>
    unmarked_piece hline hpiece
  rw [parse] at h
  split at h
  · cases h
  · rename_i first pieces hsplit
    rw [hsplit, List.forall_mem_cons] at hpieces
    split at h
    · cases h
    · rename_i name value hpair
      obtain ⟨hname, hequals, hvalue⟩ := of_splitPair hpieces.1 hpair value rfl
      split at h
      · cases h
      · rename_i hne
        cases h
        refine Parsed.foldl ⟨⟨by simpa using hne, hname, hequals, hvalue, ?_⟩, ?_, ?_⟩ hpieces.2
        all_goals rintro _ ⟨⟩

end NetKit.SetCookie
