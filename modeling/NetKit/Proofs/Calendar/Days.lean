import Mathlib.Tactic.IntervalCases
import NetKit.Calendar

/-!
# Days and dates

Every day has one date and every date has one day. Years begin in March here, so that a leap day is
the last day of its year.
-/

namespace NetKit

namespace Date

/-! ## The days of an era -/

/-- The day of an era that is a day of a year from March on. -/
structure IsDay (n year day : Nat) : Prop where
  year_lt : year < 400
  day_le : day ≤ 365
  leap : day = 365 → (year + 1) % 4 = 0 ∧ ((year + 1) % 100 = 0 → year = 399)
  eq : n = 365 * year + year / 4 - year / 100 + day

variable {n year day : Nat}

theorem exists_isDay (h : n < 146097) : ∃ year day, IsDay n year day := by
  let century := min (n / 36524) 3
  let inCentury := n - 36524 * century
  let cycle := inCentury / 1461
  let inCycle := inCentury - 1461 * cycle
  let year := min (inCycle / 365) 3
  have hyear : year ≤ 3 := by omega
  have hcycle : cycle ≤ 24 := by omega
  have hfours : (100 * century + 4 * cycle + year) / 4 = 25 * century + cycle := by omega
  have hhundreds : (100 * century + 4 * cycle + year) / 100 = century := by omega
  refine ⟨100 * century + 4 * cycle + year, inCycle - 365 * year, by omega, by omega, ?_, ?_⟩
  · omega
  · rw [hfours, hhundreds]
    omega

theorem IsDay.lt (h : IsDay n year day) : n < 146097 := by
  obtain ⟨hyear, hday, hleap, hn⟩ := h
  omega

/-- The estimate of the year takes away the leap days before the day. -/
theorem IsDay.yearOfEra_eq (h : IsDay n year day) :
    (n - n / 1460 + n / 36524 - n / 146096) / 365 = year := by
  obtain ⟨hyear, hday, hleap, hn⟩ := h
  obtain ⟨century, cycle, part, hcentury, hcycle, hpart, rfl⟩ : ∃ century cycle part,
      century ≤ 3 ∧ cycle ≤ 24 ∧ part ≤ 3 ∧ year = 100 * century + 4 * cycle + part :=
    ⟨year / 100, year % 100 / 4, year % 4, by omega, by omega, by omega, by omega⟩
  have hfours : (100 * century + 4 * cycle + part) / 4 = 25 * century + cycle := by omega
  have hhundreds : (100 * century + 4 * cycle + part) / 100 = century := by omega
  rw [hfours, hhundreds] at hn
  have hleap' : day = 365 → part = 3 ∧ (cycle = 24 → century = 3) := by omega
  have hcycles : n / 1460 = 25 * century + cycle +
      (if 1460 ≤ 24 * century + cycle + 365 * part + day then 1 else 0) := by
    split <;> omega
  have hcenturies : n / 36524 = century + (if n = 146096 then 1 else 0) := by
    split <;> omega
  have heras : n / 146096 = (if n = 146096 then 1 else 0) := by
    split <;> omega
  clear hleap hfours hhundreds
  rw [hcycles, hcenturies, heras]
  split <;> split <;> omega

/-! ## Both ways -/

/-- The date of a day of a year from March on. -/
def ofDayOfYear (year : Int) (day : Nat) : Date :=
  let monthFromMarch := (5 * day + 2) / 153
  let month := if monthFromMarch < 10 then monthFromMarch + 3 else monthFromMarch - 9
  ⟨if month ≤ 2 then year + 1 else year, month, day - (153 * monthFromMarch + 2) / 5 + 1⟩

theorem IsDay.ofDays_eq (h : IsDay n year day) (era : Int) :
    ofDays (era * 146097 + n - 719468) = ofDayOfYear (era * 400 + year) day := by
  have hlt := h.lt
  have hera : (era * 146097 + n - 719468 + 719468) / 146097 = era := by omega
  have hday : ((era * 146097 + n - 719468 + 719468) % 146097).toNat = n := by omega
  have hrest : n - (365 * year + year / 4 - year / 100) = day := by
    have := h.eq
    omega
  simp only [ofDays, hera, hday, h.yearOfEra_eq, hrest, ofDayOfYear]

/-- The months from March on, of which January and February are in the next year. -/
theorem ofDayOfYear_eq (year : Int) {day : Nat} (h : day ≤ 365) :
    ∃ m ≤ 11, (153 * m + 2) / 5 ≤ day ∧ day < (153 * (m + 1) + 2) / 5 ∧
      ofDayOfYear year day =
        ⟨if m < 10 then year else year + 1, if m < 10 then m + 3 else m - 9,
          day - (153 * m + 2) / 5 + 1⟩ := by
  obtain ⟨m, hm⟩ : ∃ m, (5 * day + 2) / 153 = m := ⟨_, rfl⟩
  refine ⟨m, by omega, by omega, by omega, ?_⟩
  simp only [ofDayOfYear, hm]
  split
  · rw [if_neg (by omega)]
  · rw [if_pos (by omega)]

/-- Days before the first of March of a year. -/
def daysToMarch (year : Int) : Int := 365 * year + year / 4 - year / 100 + year / 400

theorem daysToMarch_mono {y y' : Int} (h : y ≤ y') :
    daysToMarch y + 365 * (y' - y) ≤ daysToMarch y' := by
  have hfours : y / 4 - y / 100 ≤ y' / 4 - y' / 100 := by omega
  simp only [daysToMarch]
  omega

theorem toDays_ofDayOfYear (year : Int) {day : Nat} (h : day ≤ 365) :
    toDays (ofDayOfYear year day) = daysToMarch year + day - 719468 := by
  obtain ⟨m, hm, hle, -, heq⟩ := ofDayOfYear_eq year h
  rw [heq]
  simp only [toDays, daysToMarch]
  split
  · rename_i hearly
    have hmonth : (m + 3 + 9) % 12 = m := by omega
    rw [if_neg (by omega), hmonth]
    omega
  · rename_i hlate
    have hmonth : (m - 9 + 9) % 12 = m := by omega
    rw [if_pos (by omega), hmonth, Int.add_sub_cancel]
    omega

theorem IsDay.toDays_eq (h : IsDay n year day) (era : Int) :
    toDays (ofDayOfYear (era * 400 + year) day) = era * 146097 + n - 719468 := by
  obtain ⟨hyear, hday, -, hn⟩ := h
  rw [toDays_ofDayOfYear _ hday, daysToMarch]
  omega

theorem isValid_iff {d : Date} : d.isValid = true ↔
    (1 ≤ d.month ∧ d.month ≤ 12) ∧ 1 ≤ d.day ∧ d.day ≤ daysInMonth d.year d.month := by
  simp only [isValid, Bool.and_eq_true, decide_eq_true_eq, and_assoc]

/-- From March to January the lengths of the months follow one rule. -/
theorem daysInMonth_fromMarch (year : Int) {m : Nat} (h : m ≤ 10) :
    daysInMonth year (if m < 10 then m + 3 else m - 9) =
      (153 * (m + 1) + 2) / 5 - (153 * m + 2) / 5 := by
  interval_cases m <;> rfl

theorem daysInMonth_february (year : Int) :
    daysInMonth year 2 = if isLeap year then 29 else 28 := rfl

theorem daysInMonth_le (year : Int) (month : Nat) : daysInMonth year month ≤ 31 := by
  unfold daysInMonth
  split
  · split <;> decide
  all_goals decide

theorem isValid_ofDayOfYear {year : Int} {day : Nat} (h : day ≤ 365)
    (hleap : day = 365 → isLeap (year + 1)) : (ofDayOfYear year day).isValid := by
  obtain ⟨m, hm, hle, hlt, heq⟩ := ofDayOfYear_eq year h
  rw [heq, isValid_iff]
  dsimp only
  refine ⟨by split <;> omega, Nat.le_add_left 1 _, ?_⟩
  by_cases hfebruary : m = 11
  · subst hfebruary
    simp only [Nat.reduceLT, if_false, Nat.reduceSub, daysInMonth_february]
    split
    · omega
    · rename_i hcommon
      have hday : day ≠ 365 := fun hday => hcommon (hleap hday)
      omega
  · rw [daysInMonth_fromMarch _ (by omega)]
    omega

/-- The day of its year of a date that there is. -/
theorem exists_ofDayOfYear {d : Date} (h : d.isValid) : ∃ (year : Int) (day : Nat), day ≤ 365 ∧
    (day = 365 → isLeap (year + 1)) ∧ d = ofDayOfYear year day := by
  obtain ⟨year, month, day⟩ := d
  obtain ⟨⟨hmonth, hmonth'⟩, hday, hday'⟩ := isValid_iff.mp h
  dsimp only at hmonth hmonth' hday hday'
  obtain ⟨m, hm, rfl⟩ : ∃ m ≤ 11, month = if m < 10 then m + 3 else m - 9 :=
    ⟨(month + 9) % 12, by omega, by split <;> omega⟩
  have hlast : (153 * m + 2) / 5 + day ≤ (if m = 11 then 337 + daysInMonth year 2 else
      (153 * (m + 1) + 2) / 5) := by
    split
    · rename_i hfebruary
      subst hfebruary
      exact Nat.add_le_add_left hday' _
    · rw [daysInMonth_fromMarch _ (by omega)] at hday'
      omega
  have hfebruary : daysInMonth year 2 ≤ 29 ∧ (daysInMonth year 2 = 29 → isLeap year) := by
    rw [daysInMonth_february]
    split <;> simp_all
  have hle : (153 * m + 2) / 5 + (day - 1) ≤ 365 := by
    split at hlast <;> omega
  refine ⟨if m < 10 then year else year - 1, (153 * m + 2) / 5 + (day - 1), hle, ?_, ?_⟩
  · intro hleap
    have hm' : m = 11 := by split at hlast <;> omega
    rw [if_pos hm'] at hlast
    rw [if_neg (by omega), Int.sub_add_cancel]
    exact hfebruary.2 (by omega)
  · obtain ⟨m', hm', hfirst, hlast', heq⟩ :=
      ofDayOfYear_eq (if m < 10 then year else year - 1) hle
    obtain rfl : m' = m := by split at hlast <;> omega
    rw [heq]
    split <;> simp <;> omega

theorem isLeap_iff {year : Int} :
    isLeap year = true ↔ year % 4 = 0 ∧ (year % 100 = 0 → year % 400 = 0) := by
  simp [isLeap, imp_iff_not_or]

theorem isDay_of_year (year : Int) {day : Nat} (h : day ≤ 365)
    (hleap : day = 365 → isLeap (year + 1)) :
    IsDay ((year % 400).toNat * 365 + (year % 400).toNat / 4 - (year % 400).toNat / 100 + day)
      (year % 400).toNat day := by
  refine ⟨by omega, h, fun hday => ?_, by omega⟩
  have := isLeap_iff.mp (hleap hday)
  omega

theorem ofDays_toDays {d : Date} (h : d.isValid) : ofDays d.toDays = d := by
  obtain ⟨year, day, hday, hleap, rfl⟩ := exists_ofDayOfYear h
  have hisDay := isDay_of_year year hday hleap
  have hyear : year = year / 400 * 400 + ((year % 400).toNat : Nat) := by omega
  rw [hyear, hisDay.toDays_eq, hisDay.ofDays_eq]

theorem exists_isDay_of_days (n : Int) : ∃ (era : Int) (dayOfEra year day : Nat),
    IsDay dayOfEra year day ∧ n = era * 146097 + dayOfEra - 719468 := by
  obtain ⟨year, day, h⟩ :=
    exists_isDay (show ((n + 719468) % 146097).toNat < 146097 by omega)
  exact ⟨(n + 719468) / 146097, _, year, day, h, by omega⟩

theorem toDays_ofDays (n : Int) : (ofDays n).toDays = n := by
  obtain ⟨era, dayOfEra, year, day, h, rfl⟩ := exists_isDay_of_days n
  rw [h.ofDays_eq, h.toDays_eq]

theorem isValid_ofDays (n : Int) : (ofDays n).isValid := by
  obtain ⟨era, dayOfEra, year, day, h, rfl⟩ := exists_isDay_of_days n
  rw [h.ofDays_eq]
  refine isValid_ofDayOfYear h.day_le fun hday => isLeap_iff.mpr ?_
  have := h.leap hday
  have := h.year_lt
  omega

/-- The dates before a year are the days before its first. -/
theorem year_lt_iff {d : Date} (h : d.isValid) (y : Int) :
    d.year < y ↔ d.toDays < toDays ⟨y, 1, 1⟩ := by
  have hfirst : toDays ⟨y, 1, 1⟩ = daysToMarch (y - 1) + 306 - 719468 := by
    simp only [toDays, daysToMarch]
    omega
  obtain ⟨year, day, hday, -, rfl⟩ := exists_ofDayOfYear h
  obtain ⟨m, hm, hle, hlt, heq⟩ := ofDayOfYear_eq year hday
  rw [toDays_ofDayOfYear year hday, heq, hfirst]
  dsimp only
  constructor
  · intro hyear
    have hmono := @daysToMarch_mono (if m < 10 then year else year + 1) (y - 1) (by omega)
    have hnext := @daysToMarch_mono year (year + 1) (by omega)
    split at hmono <;> omega
  · contrapose!
    intro hyear
    have hmono := @daysToMarch_mono (y - 1) (if m < 10 then year - 1 else year) (by split <;> omega)
    have hnext := @daysToMarch_mono (year - 1) year (by omega)
    split at hmono <;> omega

end Date

namespace TimeOfDay

def isValid (t : TimeOfDay) : Prop := t.hour < 24 ∧ t.minute < 60 ∧ t.second < 60

theorem ofSeconds_toSeconds {t : TimeOfDay} (h : t.isValid) : ofSeconds t.toSeconds = t := by
  obtain ⟨hour, minute, second⟩ := t
  obtain ⟨hhour, hminute, hsecond⟩ := h
  dsimp only at hhour hminute hsecond
  simp only [ofSeconds, toSeconds, TimeOfDay.mk.injEq]
  omega

theorem toSeconds_ofSeconds (n : Nat) : (ofSeconds n).toSeconds = n := by
  simp only [ofSeconds, toSeconds]
  omega

theorem isValid_ofSeconds {n : Nat} (h : n < 86400) : (ofSeconds n).isValid := by
  simp only [isValid, ofSeconds]
  omega

theorem toSeconds_lt {t : TimeOfDay} (h : t.isValid) : t.toSeconds < 86400 := by
  obtain ⟨hhour, hminute, hsecond⟩ := h
  rw [toSeconds]
  omega

end TimeOfDay

namespace CivilTime

theorem toUnix_ofUnix (secs : Int) : (ofUnix secs).toUnix = secs := by
  simp only [ofUnix, toUnix, Date.toDays_ofDays, TimeOfDay.toSeconds_ofSeconds]
  omega

theorem ofUnix_toUnix {c : CivilTime} (hdate : c.date.isValid) (htime : c.time.isValid) :
    ofUnix c.toUnix = c := by
  have hlt := TimeOfDay.toSeconds_lt htime
  have hday : c.toUnix / 86400 = c.date.toDays := by
    rw [toUnix]
    omega
  have hsecond : (c.toUnix % 86400).toNat = c.time.toSeconds := by
    rw [toUnix]
    omega
  rw [ofUnix, hday, hsecond, Date.ofDays_toDays hdate, TimeOfDay.ofSeconds_toSeconds htime]

/-- The times before a year are the seconds before its first. -/
theorem year_ofUnix_lt_iff (secs y : Int) :
    (ofUnix secs).date.year < y ↔ secs < Date.toDays ⟨y, 1, 1⟩ * 86400 := by
  rw [ofUnix, Date.year_lt_iff (Date.isValid_ofDays _), Date.toDays_ofDays]
  omega

end CivilTime
end NetKit
