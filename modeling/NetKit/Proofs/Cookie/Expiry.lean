import NetKit.Proofs.Cookie.Attributes
import NetKit.Proofs.Cookie.RoundTrip

/-!
# Whether a written cookie expires

The expiration is written last, and only if the year of its instant has a date to be written. So a
cookie is read back as a session cookie if its instant is too early or too late for that.
-/

namespace NetKit.SetCookie

open Text

variable {c : SetCookie} {a : Char}

/-! ## The last attribute -/

theorem text_expires (c : SetCookie) :
    c.text = { c with expires := none }.text ++
      attributeText "Expires" (c.expires.map CookieDate.write) := by
  simp only [text, Option.map_none, attributeText, List.append_nil]
  rfl

/-- An expiration as it stands after a semicolon. -/
def expiryPiece (secs : Int) : List Char := ' ' :: "Expires".toList ++ '=' :: CookieDate.write secs

theorem attributeText_expires (secs : Int) :
    attributeText "Expires" (some (CookieDate.write secs)) = ';' :: expiryPiece secs := by
  rw [← flatMap_pair]
  exact List.append_nil _

theorem unmarked_expiryPiece (secs : Int) : Unmarked (expiryPiece secs) := by
  have hname : Unmarked (' ' :: "Expires".toList ++ ['=']) := by decide
  rw [expiryPiece, List.append_cons]
  exact hname.append (unmarked_write secs)

theorem readAttribute_expiryPiece (c : SetCookie) {secs read : Int}
    (h : CookieDate.read? (CookieDate.write secs) = some read) :
    c.readAttribute (expiryPiece secs) = { c with expires := some read } := by
  have hname : '=' ∉ "Expires".toList := by decide
  have hpiece := foldl_pair c hname (by decide) (some (CookieDate.write secs))
  have hread : c.withAttribute "Expires".toList (some (CookieDate.write secs)) =
      { c with expires := CookieDate.read? (CookieDate.write secs) <|> c.expires } := rfl
  rw [Option.map_some, Option.getD_some, trim_write, hread, h] at hpiece
  rw [pair, Option.toList_some, List.map_singleton, List.foldl_cons, List.foldl_nil] at hpiece
  exact hpiece

/-! ## The other attributes -/

theorem not_mem_flag {name : String} (h : Unmarked (' ' :: name.toList)) (ha : isMark a)
    (isSet : Bool) : ∀ piece ∈ flag name isSet, a ∉ piece :=
  forall_mem_flag (P := (a ∉ ·)) (h.not_mem ha) isSet

theorem not_mem_pair {name : String} (h : Unmarked (' ' :: name.toList ++ ['='])) (ha : isMark a)
    {v : Option (List Char)} (hv : ∀ w ∈ v, a ∉ w) : ∀ piece ∈ pair name v, a ∉ piece := by
  refine forall_mem_pair fun w hw => ?_
  rw [List.append_cons, List.mem_append, not_or]
  exact ⟨h.not_mem ha, hv w hw⟩

/-- A mark that is in neither the path nor the domain is in no attribute. -/
theorem not_mem_attributes (ha : isMark a) (hpath : ∀ v ∈ c.path, a ∉ v)
    (hdomain : ∀ d ∈ c.bareDomain, a ∉ d) (hage : c.maxAge = none) (hexpires : c.expires = none) :
    ∀ piece ∈ c.attributes, a ∉ piece := by
  have hsite : ∀ w ∈ sameSiteText c.sameSite, a ∉ w := fun w hw =>
    (ended_sameSiteText c.sameSite w hw).unmarked.not_mem ha
  intro piece hpiece
  simp only [attributes, hage, hexpires, Option.map_none, pair_none, List.append_nil,
    List.mem_append] at hpiece
  rcases hpiece with (((hflag | hpair) | hflag) | hpair) | hpair
  · exact not_mem_flag (by decide) ha _ piece hflag
  · exact not_mem_pair (by decide) ha hsite piece hpair
  · exact not_mem_flag (by decide) ha _ piece hflag
  · exact not_mem_pair (by decide) ha hpath piece hpair
  · exact not_mem_pair (by decide) ha hdomain piece hpair

theorem exists_splitBy_text (hpair : ';' ∉ c.pairText) :
    ∃ pieces, splitBy (· == ';') c.text = c.pairText :: pieces := by
  rw [text_eq]
  cases c.attributes with
  | nil => exact ⟨[], by rw [List.flatMap_nil, List.append_nil, splitBy_of_not_mem hpair]⟩
  | cons piece pieces =>
    rw [List.flatMap_cons, List.cons_append, splitBy_append hpair]
    exact ⟨_, rfl⟩

theorem exists_parse_text (hpair : ';' ∉ c.pairText) (hequals : '=' ∉ c.name)
    (hname : trim c.name ≠ []) : ∃ sc, parse c.text = .ok sc := by
  obtain ⟨pieces, hpieces⟩ := exists_splitBy_text hpair
  rw [parse_eq_ofPieces hpieces, ofPieces, pairText, splitPair_append hequals]
  simp only [List.isEmpty_iff, if_neg hname]
  exact ⟨_, rfl⟩

end NetKit.SetCookie

namespace NetKit.Cookie

open Text
open SetCookie (Kept expiryPiece)

variable {c : Cookie} {now : Int} {line : List Char} {sc : SetCookie}

/-! ## One line -/

theorem parse_untrimmed_line (hline : '\n' ∉ line) (h : SetCookie.parse line = .ok sc) (now : Int) :
    parse now (Utf8.encode (String.ofList line)) = [ofSetCookie now sc] := by
  have htrim : '\n' ∉ trim line := fun hmem => hline ((trimBy_sublist isBlank line).subset hmem)
  have hlines : lines (Utf8.encode (String.ofList line)) =
      lines (Utf8.encode (String.ofList (trim line))) := by
    simp only [lines, Utf8.toList_decodeLossy_encode, String.toList_ofList, splitBy_of_not_mem hline,
      splitBy_of_not_mem htrim, List.map_singleton, trim_trim]
  rw [parse, parseAll, hlines, ← parseAll, ← parse]
  exact parse_line (trim_trim line) htrim ((SetCookie.parse_trim line).trans h) now

/-- The short form is read back as a cookie with this name and value. -/
def HasReadablePair (c : Cookie) : Prop :=
  ∃ now, ∃ d ∈ parse now (Utf8.encode (c.raw .nameAndValueOnly)),
    Utf8.decodeLossy d.name = Utf8.decodeLossy c.name ∧
      Utf8.decodeLossy d.value = Utf8.decodeLossy c.value

theorem HasReadablePair.kept (h : c.HasReadablePair) :
    c.toSetCookie.name ≠ [] ∧ '=' ∉ c.toSetCookie.name ∧ Kept c.toSetCookie.name ∧
      Kept c.toSetCookie.value := by
  obtain ⟨now, d, hd, hname, hvalue⟩ := h
  obtain ⟨sc, hsc, rfl⟩ := exists_parsed_of_mem_parse hd
  have hname : sc.name = c.toSetCookie.name :=
    (toSetCookie_name sc now).symm.trans (congrArg String.toList hname)
  have hvalue : sc.value = c.toSetCookie.value :=
    (toSetCookie_value sc now).symm.trans (congrArg String.toList hvalue)
  rw [← hname, ← hvalue]
  exact ⟨hsc.name_ne, hsc.name_equals, hsc.name, hsc.value⟩

theorem not_mem_nonempty {a : Char} {s : String} (h : a ∉ s.toList) : ∀ v ∈ nonempty s, a ∉ v := by
  intro v hv
  rw [nonempty] at hv
  split at hv
  · cases hv
  · cases hv
    exact h

theorem not_mem_bareDomain {a : Char} {sc : SetCookie} (h : ∀ d ∈ sc.domain, a ∉ d) :
    ∀ d ∈ sc.bareDomain, a ∉ d := by
  intro d hd
  obtain ⟨v, hv, rfl⟩ := Option.map_eq_some_iff.mp hd
  split
  · exact fun hmem => h _ hv (List.mem_cons_of_mem _ hmem)
  · exact h v hv

/-! ## Instants that can be written -/

/-- The milliseconds of the years from -9999 to 9999. -/
def IsWritable (ms : Int) : Prop := firstSecond * 1000 ≤ ms ∧ ms < (lastSecond + 1) * 1000

instance (ms : Int) : Decidable (IsWritable ms) := inferInstanceAs (Decidable (_ ∧ _))

theorem writtenExpiry_of_isWritable {ms : Int} (h : IsWritable ms) :
    writtenExpiry ms = some (ms / 1000) := by
  rw [IsWritable] at h
  exact writtenExpiry_eq_some_iff.mpr ⟨rfl, by omega, by omega⟩

theorem writtenExpiry_eq_none_iff {ms : Int} : writtenExpiry ms = none ↔ ¬ IsWritable ms := by
  refine ⟨fun hnone h => ?_, fun h => Option.eq_none_iff_forall_ne_some.mpr fun secs hsecs => h ?_⟩
  · cases hnone.symm.trans (writtenExpiry_of_isWritable h)
  · obtain ⟨rfl, hfirst, hlast⟩ := writtenExpiry_eq_some_iff.mp hsecs
    rw [IsWritable]
    omega

theorem exists_read?_of_written {ms secs : Int} (h : writtenExpiry ms = some secs) :
    ∃ read, CookieDate.read? (CookieDate.write secs) = some read := by
  obtain ⟨-, hfirst, hlast⟩ := writtenExpiry_eq_some_iff.mp h
  exact CookieDate.exists_read?_write (writable_of_range hfirst hlast)

/-! ## Written and read -/

def expiryText (ms : Int) : String := "; Expires=" ++ String.ofList (CookieDate.write (ms / 1000))

theorem ofList_expiryPiece (ms : Int) :
    String.ofList (';' :: expiryPiece (ms / 1000)) = expiryText ms := by
  have happend : ';' :: expiryPiece (ms / 1000) =
      "; Expires=".toList ++ CookieDate.write (ms / 1000) := rfl
  rw [happend, String.ofList_append, String.ofList_toList, expiryText]

theorem text_of_isWritable (c : Cookie) {ms : Int} (h : IsWritable ms) :
    { c with expiration := some ms }.toSetCookie.text =
      { c with expiration := none }.toSetCookie.text ++ ';' :: expiryPiece (ms / 1000) := by
  have hsecs : (some ms).bind writtenExpiry = some (ms / 1000) := writtenExpiry_of_isWritable h
  have hexpires : { c with expiration := some ms }.toSetCookie.expires = some (ms / 1000) := hsecs
  rw [SetCookie.text_expires, hexpires, Option.map_some, SetCookie.attributeText_expires]
  rfl

theorem raw_of_isWritable (c : Cookie) {ms : Int} (h : IsWritable ms) :
    raw { c with expiration := some ms } .full =
      raw { c with expiration := none } .full ++ expiryText ms := by
  rw [raw, raw, text_of_isWritable c h, String.ofList_append, ofList_expiryPiece]

theorem raw_of_unwritable (c : Cookie) {e : Option Int} (h : e.bind writtenExpiry = none) :
    raw { c with expiration := e } .full = raw { c with expiration := none } .full := by
  rw [raw, raw, toSetCookie, toSetCookie, h]
  rfl

theorem isSession_ofSetCookie_iff :
    (ofSetCookie now sc).isSession = true ↔ sc.maxAge = none ∧ sc.expires = none := by
  rw [isSession, Option.isNone_iff_eq_none, ofSetCookie, expiryOf]
  split <;> simp_all

/-- The line of a cookie without expiration. -/
abbrev sessionLine (c : Cookie) : SetCookie := { c with expiration := none }.toSetCookie

theorem not_mem_sessionLine {a : Char} (ha : SetCookie.isMark a) (hpath : a ∉ c.path.toList)
    (hdomain : a ∉ c.domain.toList) : ∀ piece ∈ c.sessionLine.attributes, a ∉ piece :=
  SetCookie.not_mem_attributes ha (not_mem_nonempty hpath)
    (not_mem_bareDomain (not_mem_nonempty hdomain)) rfl rfl

theorem HasReadablePair.unmarked (h : c.HasReadablePair) :
    SetCookie.Unmarked c.sessionLine.pairText := by
  obtain ⟨-, -, hname, hvalue⟩ := h.kept
  rw [SetCookie.pairText, List.append_cons]
  exact (hname.unmarked.append (by decide)).append hvalue.unmarked

theorem HasReadablePair.lineFeed_text (h : c.HasReadablePair) (hpath : '\n' ∉ c.path.toList)
    (hdomain : '\n' ∉ c.domain.toList) : '\n' ∉ c.sessionLine.text := by
  rw [SetCookie.text_eq, List.mem_append, List.mem_flatMap]
  rintro (hpair | ⟨piece, hpiece, hmem⟩)
  · exact h.unmarked.lineFeed hpair
  · rcases List.mem_cons.mp hmem with hsemicolon | hmem
    · cases hsemicolon
    · exact not_mem_sessionLine rfl hpath hdomain piece hpiece hmem

theorem HasReadablePair.exists_parse (h : c.HasReadablePair) :
    ∃ sc, SetCookie.parse c.sessionLine.text = .ok sc := by
  obtain ⟨hne, hequals, hname, -⟩ := h.kept
  exact SetCookie.exists_parse_text h.unmarked.semicolon hequals (hname.trimmed.symm ▸ hne)

/-- Attributes that are not split hold no age and no date but those of the cookie. -/
theorem HasReadablePair.session (h : c.HasReadablePair) (hpath : ';' ∉ c.path.toList)
    (hdomain : ';' ∉ c.domain.toList) (hsc : SetCookie.parse c.sessionLine.text = .ok sc) :
    sc.maxAge = none ∧ sc.expires = none := by
  obtain ⟨hne, hequals, hname, -⟩ := h.kept
  rw [SetCookie.parse_text_of_unsplit h.unmarked.semicolon
    (not_mem_sessionLine rfl hpath hdomain) hequals (hname.trimmed.symm ▸ hne) rfl
    (by rintro s ⟨⟩)] at hsc
  cases hsc
  exact ⟨rfl, rfl⟩

theorem HasReadablePair.exists_parse_written (h : c.HasReadablePair)
    (hpath : '\n' ∉ c.path.toList) (hdomain : '\n' ∉ c.domain.toList) {ms : Int}
    (hms : IsWritable ms) (hsc : SetCookie.parse c.sessionLine.text = .ok sc) (now : Int) :
    ∃ d, parse now (Utf8.encode (raw { c with expiration := some ms } .full)) = [d] ∧
      d.isSession = false := by
  obtain ⟨read, hread⟩ := exists_read?_of_written (writtenExpiry_of_isWritable hms)
  have hpiece := SetCookie.unmarked_expiryPiece (ms / 1000)
  have hline : SetCookie.parse { c with expiration := some ms }.toSetCookie.text =
      .ok { sc with expires := some read } := by
    rw [text_of_isWritable c hms, SetCookie.parse_append hpiece.semicolon, hsc]
    exact congrArg Except.ok (SetCookie.readAttribute_expiryPiece sc hread)
  refine ⟨ofSetCookie now { sc with expires := some read }, ?_, ?_⟩
  · rw [raw]
    refine parse_untrimmed_line ?_ hline now
    rw [text_of_isWritable c hms, List.mem_append, List.mem_cons, not_or, not_or]
    exact ⟨h.lineFeed_text hpath hdomain, by decide, hpiece.lineFeed⟩
  · rw [← Bool.not_eq_true, isSession_ofSetCookie_iff]
    rintro ⟨-, ⟨⟩⟩

/-- An expiration is written, and read back as one, exactly if it is an instant of the years that a
date can name; every other is dropped, and the cookie is read back as it is without expiration. That
is a session cookie unless the path or the domain ends its own attribute and begins another. -/
theorem expires_iff_writable {c s d : Cookie} (hs : change? (.setExpiration none) c = some s)
    {e : Option Int} (hd : change? (.setExpiration e) c = some d) :
    (∀ ms ∈ e, IsWritable ms → d.raw .full = s.raw .full ++ expiryText ms) ∧
    ((∀ ms ∈ e, ¬ IsWritable ms) → d.raw .full = s.raw .full) ∧
    (c.HasReadablePair → '\n' ∉ c.path.toList → '\n' ∉ c.domain.toList → ∀ now, ∃ s' d',
      parse now (Utf8.encode (s.raw .full)) = [s'] ∧
      parse now (Utf8.encode (d.raw .full)) = [d'] ∧
      (d'.isSession = true ↔ s'.isSession = true ∧ ∀ ms ∈ e, ¬ IsWritable ms) ∧
      (';' ∉ c.path.toList → ';' ∉ c.domain.toList → s'.isSession = true)) := by
  cases hs
  cases hd
  have hdropped (h : ∀ ms ∈ e, ¬ IsWritable ms) :
      raw { c with expiration := e } .full = raw { c with expiration := none } .full := by
    apply raw_of_unwritable
    cases e with
    | none => rfl
    | some ms => exact writtenExpiry_eq_none_iff.mpr (h ms rfl)
  refine ⟨fun ms hms hwritable => ?_, hdropped, fun h hpath hdomain now => ?_⟩
  · cases hms
    exact raw_of_isWritable c hwritable
  · obtain ⟨sc, hsc⟩ := h.exists_parse
    have hsession : parse now (Utf8.encode (raw { c with expiration := none } .full)) =
        [ofSetCookie now sc] := parse_untrimmed_line (h.lineFeed_text hpath hdomain) hsc now
    have hunsplit (hpath : ';' ∉ c.path.toList) (hdomain : ';' ∉ c.domain.toList) :
        (ofSetCookie now sc).isSession = true :=
      isSession_ofSetCookie_iff.mpr (h.session hpath hdomain hsc)
    by_cases hwritable : ∃ ms ∈ e, IsWritable ms
    · obtain ⟨ms, hms, hwritable⟩ := hwritable
      cases hms
      obtain ⟨d, hd, hexpires⟩ := h.exists_parse_written hpath hdomain hwritable hsc now
      refine ⟨_, d, hsession, hd, ?_, hunsplit⟩
      rw [hexpires]
      exact iff_of_false Bool.false_ne_true fun hnot => hnot.2 ms rfl hwritable
    · have hnone : ∀ ms ∈ e, ¬ IsWritable ms := fun ms hms hw => hwritable ⟨ms, hms, hw⟩
      have hwritten : parse now (Utf8.encode (raw { c with expiration := e } .full)) =
          [ofSetCookie now sc] := by
        rw [hdropped hnone]
        exact hsession
      exact ⟨_, _, hsession, hwritten, (and_iff_left hnone).symm, hunsplit⟩

def plainPair : Cookie := { name := [0x61], value := [0x62] }

theorem hasReadablePair_plainPair : plainPair.HasReadablePair := by
  have hparse : parse 0 (Utf8.encode (plainPair.raw .nameAndValueOnly)) = [plainPair] := by
    decide +kernel
  exact ⟨0, plainPair, hparse ▸ List.mem_singleton_self _, rfl, rfl⟩

/-- The last millisecond that can be written, and the next one. -/
theorem expires_until_last :
    ∃ s d e, change? (.setExpiration none) plainPair = some s ∧
      change? (.setExpiration (some 253402300799999)) plainPair = some d ∧
      change? (.setExpiration (some 253402300800000)) plainPair = some e ∧
      d.raw .full = "a=b; Expires=Fri, 31 Dec 9999 23:59:59 GMT" ∧ e.raw .full = "a=b" ∧
      ∀ now, ∃ d' e', parse now (Utf8.encode (d.raw .full)) = [d'] ∧ d'.isSession = false ∧
        parse now (Utf8.encode (e.raw .full)) = [e'] ∧ e'.isSession = true := by
  let s : Cookie := { plainPair with expiration := none }
  have hlast : IsWritable 253402300799999 := by decide
  have hnext : ∀ ms ∈ some (253402300800000 : Int), ¬ IsWritable ms := by
    rintro ms ⟨⟩
    decide
  obtain ⟨hwritten, -, hread⟩ := expires_iff_writable (c := plainPair) (s := s) rfl
    (e := some 253402300799999) rfl
  obtain ⟨-, hdropped, hreread⟩ := expires_iff_writable (c := plainPair) (s := s) rfl
    (e := some 253402300800000) rfl
  have hplain : s.raw .full = "a=b" := by decide +kernel
  refine ⟨s, _, _, rfl, rfl, rfl, ?_, (hdropped hnext).trans hplain, fun now => ?_⟩
  · rw [hwritten _ rfl hlast, hplain]
    decide +kernel
  · obtain ⟨_, d', -, hd', hiff, -⟩ :=
      hread hasReadablePair_plainPair (by decide) (by decide) now
    obtain ⟨s', e', -, he', hiff', hs'⟩ :=
      hreread hasReadablePair_plainPair (by decide) (by decide) now
    refine ⟨d', e', hd', ?_, he', hiff'.mpr ⟨hs' (by decide) (by decide), hnext⟩⟩
    exact Bool.eq_false_iff.mpr fun h => (hiff.mp h).2 _ rfl hlast

/-- After a line feed in the path the date belongs to another cookie. -/
example : (parse 0 (Utf8.encode (raw { plainPair with path := "/\nc=d", expiration := some 0 }
    .full))).map isSession = [true, false] := by
  decide +kernel

/-- After a semicolon in the path there may be an age. -/
example : (parse 0 (Utf8.encode (raw { plainPair with path := "/; Max-Age=1" } .full))).map
    isSession = [false] := by
  decide +kernel

/-- The instant after the last that can be written is one of a cookie that is no session cookie, and
is not written. -/
theorem late_instant_is_dropped :
    ¬ ∀ (c d : Cookie) (ms : Int), c.HasReadablePair → -2 ^ 63 ≤ ms → ms < 2 ^ 63 →
      change? (.setExpiration (some ms)) c = some d →
      ∀ now, ∀ d' ∈ parse now (Utf8.encode (d.raw .full)), d'.isSession = false := by
  intro h
  have hparse : parse 0 (Utf8.encode
      (raw { plainPair with expiration := some 253402300800000 } .full)) = [plainPair] := by
    decide +kernel
  have hsession := h plainPair _ 253402300800000 hasReadablePair_plainPair (by decide) (by decide)
    rfl 0 plainPair (hparse ▸ List.mem_singleton_self _)
  cases hsession

end NetKit.Cookie
