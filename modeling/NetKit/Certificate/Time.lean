import NetKit.Calendar
import NetKit.Der

/-!
Times of validity: digits for year, month, day, hour, minute and second, and a zone.
-/
namespace NetKit.Certificate.Time

def digit? (b : UInt8) : Option Nat := if 0x30 ≤ b ∧ b ≤ 0x39 then some (b.toNat - 0x30) else none

/-- Two decimal digits at the front. -/
def pair? : Bytes → Option (Nat × Bytes)
  | a :: b :: rest => do return ((← digit? a) * 10 + (← digit? b), rest)
  | _ => none

def dot : UInt8 := 0x2E
def comma : UInt8 := 0x2C
def zulu : UInt8 := 0x5A
def plus : UInt8 := 0x2B
def minus : UInt8 := 0x2D

/-- Seconds of a day and a time of day on it; none when there is no such day or time. -/
def unix? (year : Int) (month day : Nat) (t : TimeOfDay) : Option Int :=
  if (Date.mk year month day).isValid ∧ t.hour ≤ 23 ∧ t.minute ≤ 59 ∧ t.second ≤ 59
  then some (CivilTime.toUnix ⟨⟨year, month, day⟩, t⟩)
  else none

/-- The largest number of hours that a zone is ahead or behind. -/
def maxZoneHours : Nat := 25

/-- Seconds by which a zone is ahead. The sign is that of the hours: minutes alone are ahead. -/
def zone? : Bytes → Option Int
  | [] => none
  | sign :: rest =>
    if rest = [] ∧ sign = zulu then some 0
    else if sign = plus ∨ sign = minus then do
      let (hours, rest) ← pair? rest
      let (minutes, rest) ← pair? rest
      if rest ≠ [] ∨ maxZoneHours < hours ∨ 59 < minutes then none
      else
        let ahead : Int := hours * 3600 + minutes * 60
        return if sign = minus ∧ hours ≠ 0 then -ahead else ahead
    else none

/-- Two digits of a year stand for 1950 to 2049. -/
def fullYear (n : Nat) : Nat := if n < 50 then 2000 + n else 1900 + n

/-- A time with a year of two digits. The seconds may be missing in front of a Z. -/
def short? (bs : Bytes) : Option Int := do
  let (year, rest) ← pair? bs
  let (month, rest) ← pair? rest
  let (day, rest) ← pair? rest
  let (hour, rest) ← pair? rest
  let (minute, rest) ← pair? rest
  let (second, rest) ← if rest.length < 2 then pure (0, rest) else pair? rest
  let zone ← zone? rest
  return (← unix? (fullYear year) month day ⟨hour, minute, second⟩) - zone

/-- Without a point and one to three digits. -/
def dropFraction : Bytes → Option Bytes
  | [] => some []
  | b :: rest =>
    if b = dot then
      let digits := (rest.take 3).takeWhile fun d => (digit? d).isSome
      if digits.isEmpty then none else some (rest.drop digits.length)
    else some (b :: rest)

/-- A time with a year of four digits, with seconds, maybe a fraction, and a Z. -/
def long? (bs : Bytes) : Option Int := do
  if bs.length < 15 ∨ bs.contains comma then none
  let (century, rest) ← pair? bs
  let (year, rest) ← pair? rest
  let (month, rest) ← pair? rest
  let (day, rest) ← pair? rest
  let (hour, rest) ← pair? rest
  let (minute, rest) ← pair? rest
  let (second, rest) ← pair? rest
  if (← dropFraction rest) ≠ [zulu] then none
  unix? (century * 100 + year) month day ⟨hour, minute, second⟩

/-- Seconds since 1970-01-01 of a time element. -/
def ofElement? (e : Der.Element) : Option Int :=
  if e.tag = Der.Tag.utcTime then short? e.content
  else if e.tag = Der.Tag.generalizedTime then long? e.content
  else none

end NetKit.Certificate.Time
