import NetKit.Cookie.Date
import NetKit.Proofs.Calendar.Days
import NetKit.Proofs.Text.Number

/-!
# Written dates are read back

Each part of a date reads what was written for it and leaves the rest, so a date is read back part
by part where no digits follow a year.
-/

namespace NetKit.CookieDate

open Text

/-- No digit comes next. -/
def DigitsEnd (rest : List Char) : Prop := ∀ c, rest.head? = some c → c.isDigit = false

/-! ## Numbers and names -/

theorem readDigits_append {least most n : Nat} {digits rest : List Char}
    (hdigits : ∀ c ∈ digits, c.isDigit = true) (hleast : least ≤ digits.length)
    (hmost : digits.length ≤ most) (hrest : digits.length = most ∨ DigitsEnd rest)
    (hn : natOfDigits? 10 digits = some n) :
    readDigits least most (digits ++ rest) = some (n, rest) := by
  have htake : ((digits ++ rest).take most).takeWhile Char.isDigit = digits := by
    rw [List.take_append, List.take_of_length_le hmost, List.takeWhile_append_of_pos hdigits]
    suffices hend : (rest.take (most - digits.length)).takeWhile Char.isDigit = [] by
      rw [hend, List.append_nil]
    rcases hrest with hfull | hrest
    · rw [hfull, Nat.sub_self, List.take_zero, List.takeWhile_nil]
    · cases rest with
      | nil => rw [List.take_nil, List.takeWhile_nil]
      | cons c rest => cases most - digits.length <;> simp [hrest c rfl]
  simp only [readDigits, htake, if_neg (Nat.not_lt.mpr hleast), hn, Option.map_some, List.drop_left]

theorem readDigits_padded {n width : Nat} (hwidth : 0 < width) (h : n < 10 ^ width)
    (rest : List Char) :
    readDigits width width (padded width n ++ rest) = some (n, rest) := by
  have hlength := length_padded hwidth h
  exact readDigits_append (fun c => isDigit_of_mem_padded) (Nat.le_of_eq hlength.symm)
    (Nat.le_of_eq hlength) (.inl hlength) (natOfDigits?_padded width n)

theorem readDigits_decimal {n least most : Nat} (hleast : least ≤ (decimal n).length)
    (hpos : 0 < most) (hmost : n < 10 ^ most) {rest : List Char}
    (hrest : (decimal n).length = most ∨ DigitsEnd rest) :
    readDigits least most (decimal n ++ rest) = some (n, rest) :=
  readDigits_append (fun _ => isDigit_of_mem_decimal) hleast
    ((length_decimal_le_iff hpos).mpr hmost) hrest (natOfDigits?_decimal n)

/-- A number does not begin with another character than a digit. -/
theorem exists_decimal (n : Nat) (rest : List Char) :
    ∃ c cs, decimal n ++ rest = c :: cs ∧ c.isDigit = true := by
  obtain ⟨c, cs, hdecimal⟩ := List.exists_cons_of_ne_nil (decimal_ne_nil n)
  refine ⟨c, cs ++ rest, by rw [hdecimal, List.cons_append], isDigit_of_mem_decimal (n := n) ?_⟩
  rw [hdecimal]
  exact List.mem_cons_self

theorem readYear_signed {y : Int} (h : y.natAbs < 10000) {rest : List Char}
    (hrest : DigitsEnd rest) : readYear ((signed y).toList ++ rest) = some (y, rest) := by
  have hdigits : readDigits 1 4 (decimal y.natAbs ++ rest) = some (y.natAbs, rest) :=
    readDigits_decimal (List.length_pos_iff.mpr (decimal_ne_nil _)) (by decide) h (.inr hrest)
  rw [signed]
  split
  · rename_i hneg
    simp only [String.toList_ofList, List.cons_append, readYear, hdigits, Option.map_some]
    rw [show -(y.natAbs : Int) = y by omega]
  · rename_i hpos
    obtain ⟨c, cs, hdecimal, hc⟩ := exists_decimal y.natAbs rest
    rw [hdecimal] at hdigits
    have hy : (y.natAbs : Int) = y := by omega
    rw [String.toList_ofList, hdecimal, readYear, hdigits, Option.map_some]
    simp only [hy]
    all_goals
      rintro rest' heq
      cases heq
      cases hc

theorem readDaySpace_day {n : Nat} (h : n < 100) (rest : List Char) :
    readDaySpace ((if n < 10 then ' ' :: decimal n else decimal n) ++ rest) = some (n, rest) := by
  have hone : (decimal n).length ≤ 1 ↔ n < 10 := length_decimal_le_iff (by decide)
  have htwo : (decimal n).length ≤ 2 := (length_decimal_le_iff (by decide)).mpr h
  have hpos : 1 ≤ (decimal n).length := List.length_pos_iff.mpr (decimal_ne_nil n)
  split
  · rename_i hn
    rw [List.cons_append, readDaySpace]
    exact readDigits_decimal hpos (by decide) hn (.inl (by omega))
  · rename_i hn
    obtain ⟨c, cs, hdecimal, hc⟩ := exists_decimal n rest
    have hdigits : readDigits 2 2 (decimal n ++ rest) = some (n, rest) :=
      readDigits_decimal (by omega) (by decide) h (.inl (by omega))
    rw [hdecimal] at hdigits ⊢
    rw [readDaySpace, hdigits]
    rintro rest' heq
    cases heq
    cases hc

theorem readName_weekday {i : Nat} (h : i < 7) (rest : List Char) :
    readName mailForm.weekdays ((mailForm.weekdays.getD i "").toList ++ rest) = some (i, rest) := by
  interval_cases i <;> rfl

theorem readName_month {i : Nat} (h : i < 12) (rest : List Char) :
    readName (shortNames Date.monthNames)
      (((shortNames Date.monthNames).getD i "").toList ++ rest) = some (i, rest) := by
  interval_cases i <;> rfl

/-! ## Parts -/

/-- A year that is read as it is written. Years of one or two digits are taken for others. -/
def IsFull (y : Int) : Prop := y < 0 ∨ 100 ≤ y

/-- A time whose year has four digits at most. -/
structure Writable (c : CivilTime) : Prop where
  date : c.date.isValid
  time : c.time.isValid
  year_lt : c.date.year.natAbs < 10000

/-- A time whose written form says it all. -/
structure Readable (c : CivilTime) : Prop extends Writable c where
  year_full : IsFull c.date.year

/-- What a part says of a time. -/
def say (c : CivilTime) (f : Fields) : Part → Fields
  | .literal _ => f
  | .day | .daySpace => { f with day := c.date.day }
  | .month => { f with month := c.date.month }
  | .year | .yearShort => { f with year := c.date.year }
  | .hour => { f with hour := c.time.hour }
  | .minute => { f with minute := c.time.minute }
  | .second => { f with second := c.time.second }

theorem Writable.day_lt {c : CivilTime} (h : Writable c) : c.date.day < 100 := by
  have hdays := Date.daysInMonth_le c.date.year c.date.month
  obtain ⟨-, -, hday⟩ := Date.isValid_iff.mp h.date
  omega

theorem readPart_writePart {c : CivilTime} (h : Writable c) (f : Fields) {p : Part}
    (hp : p ≠ .yearShort) {rest : List Char} (hrest : p = .year → DigitsEnd rest) :
    readPart f (writePart c p ++ rest) p = some (say c f p, rest) := by
  obtain ⟨hhour, hminute, hsecond⟩ := h.time
  cases p with
  | literal a => simp [readPart, writePart, say]
  | day =>
      rw [readPart, writePart, readDigits_padded (by decide) h.day_lt]
      rfl
  | daySpace =>
      rw [readPart, writePart, readDaySpace_day h.day_lt]
      rfl
  | month =>
      obtain ⟨⟨hmonth, hmonth'⟩, -⟩ := Date.isValid_iff.mp h.date
      rw [readPart, writePart, readName_month (by omega), Option.map_some]
      simp only [say, Nat.sub_add_cancel hmonth]
  | year =>
      rw [readPart, writePart, readYear_signed h.year_lt (hrest rfl)]
      rfl
  | yearShort => exact absurd rfl hp
  | hour =>
      rw [readPart, writePart, readDigits_padded (by decide) (by omega)]
      rfl
  | minute =>
      rw [readPart, writePart, readDigits_padded (by decide) (by omega)]
      rfl
  | second =>
      rw [readPart, writePart, readDigits_padded (by decide) (by omega)]
      rfl

def endsYear : List Part → Bool
  | [] => true
  | .literal c :: _ => !c.isDigit
  | _ => false

/-- What is written for each part is read by it. -/
def fits : List Part → Bool
  | [] => true
  | .yearShort :: _ => false
  | .year :: ps => endsYear ps && fits ps
  | _ :: ps => fits ps

theorem digitsEnd_of_endsYear {ps : List Part} (h : endsYear ps) (c : CivilTime) :
    DigitsEnd (ps.flatMap (writePart c)) := by
  intro d hd
  match ps, h with
  | [], _ => cases hd
  | .literal c :: _, h =>
    cases hd
    simpa [endsYear] using h

theorem readParts_flatMap {c : CivilTime} (h : Writable c) (f : Fields) {ps : List Part}
    (hps : fits ps) :
    readParts f (ps.flatMap (writePart c)) ps = some (ps.foldl (say c) f, []) := by
  induction ps generalizing f with
  | nil => rfl
  | cons p ps ih =>
    have hp : p ≠ .yearShort := by
      rintro rfl
      cases hps
    have hfits : fits ps := by
      cases p <;> simp_all [fits]
    have hrest : p = .year → DigitsEnd (ps.flatMap (writePart c)) := by
      rintro rfl
      exact digitsEnd_of_endsYear (Bool.and_eq_true_iff.mp hps).1 c
    rw [List.flatMap_cons, readParts, readPart_writePart h f hp hrest, Option.bind_some]
    exact ih _ hfits

/-! ## Dates -/

theorem fullYear_eq {y : Int} (h : IsFull y) : fullYear y = y := by
  rw [IsFull] at h
  rw [fullYear, if_neg (by omega), if_neg (by omega)]

/-- Years of two digits are taken for years of the same length. -/
theorem isLeap_fullYear (y : Int) : Date.isLeap (fullYear y) = Date.isLeap y := by
  rw [Bool.eq_iff_iff, Date.isLeap_iff, Date.isLeap_iff, fullYear]
  split
  · omega
  · split <;> omega

theorem daysInMonth_fullYear (y : Int) (month : Nat) :
    Date.daysInMonth (fullYear y) month = Date.daysInMonth y month := by
  unfold Date.daysInMonth
  rw [isLeap_fullYear]

theorem isValid_fullYear {d : Date} (h : d.isValid) :
    Date.isValid { d with year := fullYear d.year } := by
  rw [Date.isValid_iff] at h ⊢
  rwa [daysInMonth_fullYear]

/-- A written time is read, with the year that its digits are taken for. -/
theorem readForm_writeForm {c : CivilTime} (h : Writable c) :
    readForm (writeForm mailForm c) mailForm =
      some { c with date := { c.date with year := fullYear c.date.year } } := by
  have hweekday : c.date.weekday < 7 := by
    rw [Date.weekday]
    omega
  have hdrop (rest : List Char) : dropWeekday mailForm
      ((mailForm.weekdays.getD c.date.weekday "").toList ++ mailForm.afterWeekday.toList ++ rest) =
        rest := by
    rw [dropWeekday, List.append_assoc, readName_weekday hweekday]
    rfl
  have hparts := readParts_flatMap h {} (show fits mailForm.parts by decide)
  have hsaid : mailForm.parts.foldl (say c) {} = ⟨c.date.year, c.date.month, c.date.day,
      c.time.hour, c.time.minute, c.time.second⟩ := rfl
  obtain ⟨hhour, hminute, hsecond⟩ := h.time
  simp only [readForm, writeForm, hdrop, hparts, hsaid, toCivil?, isValid_fullYear h.date,
    hhour, hminute, hsecond, decide_true, Bool.and_true, if_true]

theorem readForm_mailForm {c : CivilTime} (h : Readable c) :
    readForm (writeForm mailForm c) mailForm = some c := by
  rw [readForm_writeForm h.toWritable, fullYear_eq h.year_full]

theorem exists_read?_write {secs : Int} (h : Writable (CivilTime.ofUnix secs)) :
    ∃ read, read? (write secs) = some read := by
  rw [read?, write, readForms, List.findSome?_cons, readForm_writeForm h]
  exact ⟨_, rfl⟩

theorem read?_write {secs : Int} (h : Readable (CivilTime.ofUnix secs)) :
    read? (write secs) = some secs := by
  rw [read?, write, readForms, List.findSome?_cons, readForm_mailForm h]
  exact congrArg some (CivilTime.toUnix_ofUnix secs)

/-- A year with two digits is not read as it was written: 50 becomes 2050. -/
example : read? (write (-60589296000)) = some 2524608000 := by decide +kernel

/-! ## What is read -/

theorem isFull_fullYear (y : Int) : IsFull (fullYear y) := by
  simp only [IsFull, fullYear]
  split
  · omega
  · split <;> omega

theorem of_toCivil? {f : Fields} {c : CivilTime} (h : toCivil? f = some c) :
    c.date.isValid ∧ c.time.isValid ∧ c.date.year = fullYear f.year := by
  simp only [toCivil?] at h
  split at h
  · rename_i hvalid
    cases h
    simp only [Bool.and_eq_true, decide_eq_true_eq, and_assoc] at hvalid
    exact ⟨hvalid.1, hvalid.2, rfl⟩
  · cases h

theorem isFull_of_read? {cs : List Char} {secs : Int} (h : read? cs = some secs) :
    IsFull (CivilTime.ofUnix secs).date.year := by
  obtain ⟨c, hc, rfl⟩ := Option.map_eq_some_iff.mp h
  obtain ⟨form, -, hform⟩ := List.exists_of_findSome?_eq_some hc
  simp only [readForm] at hform
  split at hform
  · rename_i f _
    obtain ⟨hdate, htime, hyear⟩ := of_toCivil? hform
    rw [CivilTime.ofUnix_toUnix hdate htime, hyear]
    exact isFull_fullYear f.year
  · cases hform

end NetKit.CookieDate
