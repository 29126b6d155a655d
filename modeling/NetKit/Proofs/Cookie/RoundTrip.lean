import NetKit.Cookie
import NetKit.Proofs.Cookie.Lines
import NetKit.Proofs.Text.Utf8

/-!
# Cookies are read back

A cookie that was read from a line is written to a line that is read as the same cookie, but for
two things: a cookie for every site is written as a secure one, and a domain is written without its
dot, so that what follows the dot is trimmed and loses a dot of its own.
-/

namespace NetKit.Cookie

open Text

variable {now : Int} {c : Cookie} {sc : SetCookie}

/-! ## Lines -/

theorem lineFeed_of_mem_lines {input : Bytes} {line : List Char} (h : line ∈ lines input) :
    '\n' ∉ line := by
  intro hmem
  obtain ⟨piece, hpiece, rfl⟩ := List.mem_map.mp (List.mem_filter.mp h).1
  have := (of_mem_splitBy hpiece '\n' ((trimBy_sublist isBlank piece).subset hmem)).2
  simp at this

theorem lines_encode {line : List Char} (hne : line ≠ []) (htrim : trim line = line)
    (hline : '\n' ∉ line) : lines (Utf8.encode (String.ofList line)) = [line] := by
  rw [lines, Utf8.toList_decodeLossy_encode, String.toList_ofList, splitBy_of_not_mem hline,
    List.map_singleton, htrim]
  simp [hne]

/-- Every cookie that is read comes from a line. -/
theorem exists_parsed_of_mem_parse {input : Bytes} (h : c ∈ parse now input) :
    ∃ sc, SetCookie.Parsed sc ∧ c = ofSetCookie now sc := by
  rw [parse] at h
  split at h
  · rename_i cookies hcookies
    obtain ⟨line, hline, hread⟩ := Answer.exists_of_mem_mapM hcookies h
    obtain ⟨sc, hsc, rfl⟩ := Answer.map_eq_ok.mp hread
    exact ⟨sc, SetCookie.parsed_of_parse (lineFeed_of_mem_lines hline) hsc, rfl⟩
  · cases h

theorem parse_line {line : List Char} (htrim : trim line = line) (hline : '\n' ∉ line)
    (h : SetCookie.parse line = .ok sc) (now : Int) :
    parse now (Utf8.encode (String.ofList line)) = [ofSetCookie now sc] := by
  have hne : line ≠ [] := by
    rintro rfl
    cases h
  rw [parse, parseAll, lines_encode hne htrim hline, List.mapM_cons, h]
  rfl

/-! ## Dates -/

/-- Seconds of the first instant of the year 100, before which a cookie has no date to be read
from. -/
def yearHundred : Int := -59011459200

theorem hundred_le_year {secs : Int} (h : yearHundred ≤ secs) :
    100 ≤ (CivilTime.ofUnix secs).date.year := by
  have hiff := CivilTime.year_ofUnix_lt_iff secs 100
  have hfirst : Date.toDays ⟨100, 1, 1⟩ * 86400 = yearHundred := by decide
  rw [hfirst] at hiff
  omega

theorem writable_of_range {secs : Int} (hfirst : firstSecond ≤ secs) (hlast : secs ≤ lastSecond) :
    CookieDate.Writable (CivilTime.ofUnix secs) := by
  have hlow := CivilTime.year_ofUnix_lt_iff secs (-9999)
  have hhigh := CivilTime.year_ofUnix_lt_iff secs 10000
  have hfirst' : Date.toDays ⟨-9999, 1, 1⟩ * 86400 = firstSecond := by decide
  have hlast' : Date.toDays ⟨10000, 1, 1⟩ * 86400 = lastSecond + 1 := by decide
  rw [hfirst'] at hlow
  rw [hlast'] at hhigh
  refine ⟨Date.isValid_ofDays _, TimeOfDay.isValid_ofSeconds ?_, ?_⟩ <;> omega

theorem writtenExpiry_eq_some_iff {ms secs : Int} :
    writtenExpiry ms = some secs ↔ ms / 1000 = secs ∧ firstSecond ≤ secs ∧ secs ≤ lastSecond := by
  simp only [writtenExpiry, Option.ite_none_right_eq_some, Option.some.injEq]
  constructor
  · rintro ⟨hrange, rfl⟩
    exact ⟨rfl, hrange⟩
  · rintro ⟨rfl, hrange⟩
    exact ⟨hrange, rfl⟩

theorem le_expiryAfter (hnow : yearHundred * nanosPerSec ≤ now) (age : Nat) :
    yearHundred * 1000 ≤ expiryAfter now age := by
  have hage : (0 : Int) ≤ age * nanosPerSec := by
    rw [nanosPerSec]
    omega
  have hmin : yearHundred * nanosPerSec ≤ min lastNanos (now + age * nanosPerSec) :=
    le_min (by decide) (by omega)
  rw [expiryAfter, Int.tdiv_eq_ediv, show Int.sign 1000000 = 1 from rfl]
  generalize min lastNanos (now + age * nanosPerSec) = instant at hmin ⊢
  rw [yearHundred, nanosPerSec] at hmin
  rw [yearHundred]
  split <;> omega

theorem readable_of_written (h : sc.Parsed) (hnow : yearHundred * nanosPerSec ≤ now) {secs : Int}
    (hsecs : (expiryOf now sc).bind writtenExpiry = some secs) :
    CookieDate.Readable (CivilTime.ofUnix secs) := by
  obtain ⟨ms, hms, hwritten⟩ := Option.bind_eq_some_iff.mp hsecs
  obtain ⟨rfl, hfirst, hlast⟩ := writtenExpiry_eq_some_iff.mp hwritten
  refine ⟨writable_of_range hfirst hlast, ?_⟩
  have hlate (hle : yearHundred * 1000 ≤ ms) : 100 ≤ (CivilTime.ofUnix (ms / 1000)).date.year :=
    hundred_le_year (by rw [yearHundred] at hle ⊢; omega)
  rw [expiryOf] at hms
  split at hms
  · cases hms
    exact .inr (hlate (by decide))
  · cases hms
    exact .inr (hlate (le_expiryAfter hnow _))
  · rename_i secs _ hexpires
    cases hms
    rw [Int.mul_ediv_cancel secs (by decide)]
    exact h.expires secs hexpires
  · cases hms

/-! ## Domains and paths -/

theorem nonempty_ofList (cs : List Char) :
    nonempty (String.ofList cs) = (some cs).filter (!·.isEmpty) := by
  cases cs with
  | nil => rfl
  | cons a cs =>
    rw [nonempty, if_neg (by simp), String.toList_ofList]
    rfl

theorem ofList_nonempty (s : String) : String.ofList ((nonempty s).getD []) = s := by
  rw [nonempty]
  split
  · rename_i h
    rw [String.isEmpty_iff.mp h]
    rfl
  · rw [Option.getD_some, String.ofList_toList]

theorem dottedDomain_eq (sc : SetCookie) : dottedDomain sc =
    ((sc.bareDomain.filter (!·.isEmpty)).map fun d => String.ofList ('.' :: d)).getD "" := by
  rw [dottedDomain]
  cases sc.bareDomain with
  | none => rfl
  | some d => cases d <;> rfl

/-- A cookie that was read is written with the domain that it was read from. -/
theorem bareDomain_toSetCookie (sc : SetCookie) (now : Int) :
    (ofSetCookie now sc).toSetCookie.bareDomain = sc.bareDomain.filter (!·.isEmpty) := by
  have hdomain : (ofSetCookie now sc).toSetCookie.domain = nonempty (dottedDomain sc) := rfl
  rw [SetCookie.bareDomain, hdomain, dottedDomain_eq]
  cases sc.bareDomain.filter (!·.isEmpty) with
  | none => rfl
  | some d =>
    rw [Option.map_some, Option.getD_some, nonempty_ofList]
    rfl

theorem ended_bareDomain (h : sc.Parsed) : ∀ d ∈ sc.bareDomain, SetCookie.Ended d := by
  intro d hd
  obtain ⟨v, hv, rfl⟩ := Option.map_eq_some_iff.mp hd
  have hended := (h.domain v hv).2.ended
  split
  · rename_i rest
    refine ⟨fun a ha => hended.unmarked a (List.mem_cons_of_mem _ ha), fun a ha => ?_⟩
    refine hended.last a ?_
    rw [List.getLast?_cons, Option.mem_def.mp ha]
    rfl
  · exact hended

theorem toSetCookie_name (sc : SetCookie) (now : Int) :
    (ofSetCookie now sc).toSetCookie.name = sc.name :=
  (Utf8.toList_decodeLossy_encode _).trans String.toList_ofList

theorem toSetCookie_value (sc : SetCookie) (now : Int) :
    (ofSetCookie now sc).toSetCookie.value = sc.value :=
  (Utf8.toList_decodeLossy_encode _).trans String.toList_ofList

theorem toSetCookie_path (sc : SetCookie) (now : Int) :
    (ofSetCookie now sc).toSetCookie.path = sc.path.filter (!·.isEmpty) := by
  have hpath : (ofSetCookie now sc).toSetCookie.path = nonempty (String.ofList (sc.path.getD [])) :=
    rfl
  rw [hpath, nonempty_ofList]
  cases sc.path <;> rfl

theorem toSetCookie_plain (h : sc.Parsed) (hnow : yearHundred * nanosPerSec ≤ now) :
    (ofSetCookie now sc).toSetCookie.Plain where
  name_ne := by
    rw [toSetCookie_name]
    exact h.name_ne
  name := by
    rw [toSetCookie_name]
    exact h.name
  name_equals := by
    rw [toSetCookie_name]
    exact h.name_equals
  value := by
    rw [toSetCookie_value]
    exact h.value
  path v hv := by
    rw [toSetCookie_path] at hv
    exact h.path v (Option.mem_filter_iff.mp hv).1
  domain d hd := by
    rw [bareDomain_toSetCookie] at hd
    exact ended_bareDomain h d (Option.mem_filter_iff.mp hd).1
  age := rfl
  expires _ hsecs := readable_of_written h hnow hsecs

/-! ## Written and read -/

/-- What is read of a domain that was written. -/
def reread (domain : String) : String :=
  dottedDomain { name := [], value := [], domain := some (trim (domain.toList.drop 1)) }

/-- No date, or one whose text says it: whole seconds in the years that a date can name. -/
def Dated (expiration : Option Int) : Prop :=
  ∀ ms ∈ expiration, ∃ secs, ms = secs * 1000 ∧ firstSecond ≤ secs ∧ secs ≤ lastSecond

theorem expiryOf_written {expiration : Option Int} (h : Dated expiration) (now : Int)
    {sc : SetCookie} (hage : sc.maxAge = none)
    (hexpires : sc.expires = expiration.bind writtenExpiry) : expiryOf now sc = expiration := by
  rw [expiryOf, hage, hexpires]
  cases expiration with
  | none => rfl
  | some ms =>
    obtain ⟨secs, rfl, hrange⟩ := h ms rfl
    have hwritten : writtenExpiry (secs * 1000) = some secs :=
      writtenExpiry_eq_some_iff.mpr ⟨Int.mul_ediv_cancel secs (by decide), hrange⟩
    rw [Option.bind_some, hwritten]

theorem reread_written (sc : SetCookie) (now : Int) {read : SetCookie}
    (hread : read.domain =
      ((ofSetCookie now sc).toSetCookie.bareDomain.map trim).filter (!·.isEmpty)) :
    dottedDomain read = reread (dottedDomain sc) := by
  rw [bareDomain_toSetCookie] at hread
  rw [dottedDomain_eq sc, dottedDomain, SetCookie.bareDomain, hread, reread]
  cases sc.bareDomain.filter (!·.isEmpty) with
  | none => rfl
  | some d =>
    simp only [Option.map_some, Option.getD_some, String.toList_ofList, List.drop_succ_cons,
      List.drop_zero, Option.filter_some]
    cases trim d <;> rfl

theorem parse_raw_ofSetCookie (h : sc.Parsed) (hnow : yearHundred * nanosPerSec ≤ now)
    (hdate : Dated (expiryOf now sc)) (now' : Int) :
    parse now' (Utf8.encode ((ofSetCookie now sc).raw .full)) =
      [{ ofSetCookie now sc with
        domain := reread (dottedDomain sc), secure := sc.showsSecure }] := by
  have hplain := toSetCookie_plain h hnow
  rw [raw, parse_line hplain.trim_text hplain.lineFeed_text hplain.parse_text]
  refine congrArg (fun c => [c]) (Cookie.mk.injEq .. ▸ ⟨?_, ?_, ?_, ?_, rfl, rfl, rfl, ?_⟩)
  · rw [toSetCookie_name]
    rfl
  · rw [toSetCookie_value]
    rfl
  · exact reread_written sc now rfl
  · exact ofList_nonempty _
  · exact expiryOf_written hdate now' rfl rfl

theorem undotted_eq_iff (d : List Char) {e : List Char} :
    d.length ≤ e.length → ((match d with
      | '.' :: rest => rest
      | d => d) = e ↔ d = e ∧ d.head? ≠ some '.') := by
  intro hlength
  split
  · rename_i rest
    refine iff_of_false (fun heq => ?_) fun h => h.2 rfl
    rw [← heq, List.length_cons] at hlength
    omega
  · rename_i hdot
    refine ⟨fun heq => ⟨heq, fun hhead => ?_⟩, fun h => h.1⟩
    obtain ⟨rest, hrest⟩ := List.head?_eq_some_iff.mp hhead
    exact hdot rest hrest

theorem dotted_eq_iff {d e : List Char} (he : e ≠ []) :
    (((some d).filter (!·.isEmpty)).map fun d => String.ofList ('.' :: d)).getD "" =
      String.ofList ('.' :: e) ↔ d = e := by
  cases d with
  | nil =>
    refine iff_of_false (fun heq => ?_) fun heq => he heq.symm
    have hlists : [] = '.' :: e := String.ofList_inj.mp heq
    cases hlists
  | cons a d =>
    rw [Option.filter_some, List.isEmpty_cons, Bool.not_false, if_pos rfl, Option.map_some,
      Option.getD_some, String.ofList_inj, List.cons_inj_right]

/-- A domain is read back unless a dot or a blank follows its dot. -/
theorem reread_eq_iff (h : sc.Parsed) : reread (dottedDomain sc) = dottedDomain sc ↔
    ∀ a, (dottedDomain sc).toList[1]? = some a → a ≠ '.' ∧ isBlank a = false := by
  rw [dottedDomain_eq sc]
  cases hbare : sc.bareDomain.filter (!·.isEmpty) with
  | none => exact iff_of_true rfl (by rintro a ⟨⟩)
  | some d =>
    obtain ⟨hd, hne⟩ := Option.mem_filter_iff.mp hbare
    obtain ⟨a, rest, rfl⟩ := List.exists_cons_of_ne_nil (show d ≠ [] by simpa using hne)
    have hlength : (trim (a :: rest)).length ≤ (a :: rest).length :=
      (trimBy_sublist isBlank _).length_le
    have hreread : reread (String.ofList ('.' :: a :: rest)) = String.ofList ('.' :: a :: rest) ↔
        trim (a :: rest) = a :: rest ∧ (trim (a :: rest)).head? ≠ some '.' := by
      rw [← undotted_eq_iff _ hlength, reread, dottedDomain_eq, SetCookie.bareDomain,
        Option.map_some, String.toList_ofList, List.drop_succ_cons, List.drop_zero]
      exact dotted_eq_iff (List.cons_ne_nil a rest)
    simp only [Option.map_some, Option.getD_some, hreread, String.toList_ofList]
    constructor
    · rintro ⟨htrim, hdot⟩ b hb
      obtain rfl : a = b := Option.some.inj hb
      rw [htrim] at hdot
      refine ⟨fun ha => hdot (ha ▸ rfl), not_of_head?_trimBy (l := a :: rest) ?_⟩
      rw [← trim, htrim]
      rfl
    · intro hfirst
      obtain ⟨hdot, hblank⟩ := hfirst a rfl
      have htrim : trim (a :: rest) = a :: rest := by
        refine trimBy_eq_self ?_ (ended_bareDomain h _ hd).last
        rintro b ⟨⟩
        exact hblank
      rw [htrim]
      exact ⟨rfl, fun ha => hdot (Option.some.inj ha)⟩

/-- What is read of a cookie that was read and written, if it expires at a second that can be
written. -/
theorem reread_of_read (hnow : yearHundred * nanosPerSec ≤ now) {input : Bytes}
    (hc : c ∈ parse now input) (hdate : Dated c.expiration) (now' : Int) :
    ∃ d, parse now' (Utf8.encode (c.raw .full)) = [d] ∧
      d = { c with domain := d.domain, secure := d.secure } ∧
      d.domain = reread c.domain ∧
      (d.domain = c.domain ↔
        ∀ a, c.domain.toList[1]? = some a → a ≠ '.' ∧ isBlank a = false) ∧
      (c.secure = true ∨ c.sameSite ≠ .none → d.secure = c.secure) := by
  obtain ⟨sc, h, rfl⟩ := exists_parsed_of_mem_parse hc
  refine ⟨_, parse_raw_ofSetCookie h hnow hdate now', rfl, rfl, reread_eq_iff h, ?_⟩
  rintro (hsecure | hsite)
  · have hsecure : sc.secure = true := hsecure
    simp [SetCookie.showsSecure, ofSetCookie, hsecure]
  · have hsite : (sc.sameSite == .none) = false := beq_false_of_ne hsite
    simp [SetCookie.showsSecure, ofSetCookie, hsite]

theorem full_line_is_reread :
    let line := "a=b; HttpOnly; SameSite=Lax; Path=/x; Domain=.x.test; Max-Age=0".toList
    ∃ c, parse 0 (Utf8.encode (String.ofList line)) = [c] ∧ c.domain = ".x.test" ∧
      ∀ now, parse now (Utf8.encode (c.raw .full)) = [c] := by
  intro line
  have hparse : SetCookie.parse line = .ok ⟨['a'], ['b'], some ".x.test".toList,
    some "/x".toList, false, true, .lax, some 0, none⟩ := by decide
  have hread := parse_line (by decide) (by decide) hparse 0
  refine ⟨_, hread, rfl, fun now => ?_⟩
  have hdate : Dated (some 0) := by
    rintro ms ⟨⟩
    exact ⟨0, by decide, by decide, by decide⟩
  obtain ⟨d, hd, heq, -, hdomain, hsecure⟩ :=
    reread_of_read (by decide) (hread ▸ List.mem_singleton_self _) hdate now
  rw [hdomain.mpr (by rintro a ⟨⟩; decide), hsecure (.inr (by decide))] at heq
  rw [hd, heq]

theorem second_dot_is_lost :
    ¬ ∀ (now : Int) (input : Bytes) (c : Cookie), c ∈ parse now input → Dated c.expiration →
      parse now (Utf8.encode (c.raw .full)) = [c] := by
  intro h
  have hread : parse 0 (Utf8.encode (String.ofList "a=b; Domain=..x".toList)) =
      [ofSetCookie 0 { name := ['a'], value := ['b'], domain := some "..x".toList }] :=
    parse_line (by decide) (by decide) (by decide) 0
  have hraw : (ofSetCookie 0 { name := ['a'], value := ['b'], domain := some "..x".toList }).raw
      .full = String.ofList "a=b; Domain=.x".toList := by
    rw [raw, SetCookie.text, SetCookie.pairText, toSetCookie_name, toSetCookie_value]
    rfl
  have hreread : parse 0 (Utf8.encode (String.ofList "a=b; Domain=.x".toList)) =
      [ofSetCookie 0 { name := ['a'], value := ['b'], domain := some ".x".toList }] :=
    parse_line (by decide) (by decide) (by decide) 0
  have hback := h 0 _ _ (hread ▸ List.mem_singleton_self _) (by rintro ms ⟨⟩)
  rw [hraw, hreread] at hback
  exact absurd (congrArg (·.map Cookie.domain) hback) (by decide)

end NetKit.Cookie
