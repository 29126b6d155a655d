import NetKit.Calendar
import NetKit.Text.Blank
import NetKit.Text.Number

/-!
Instants of time within the years that the calendar covers, and their text.
-/
namespace NetKit

/-- Seconds since 1970-01-01 and nanoseconds after them. A leap second is written as nanoseconds of
a second too many. -/
structure Instant where
  secs : Int
  nanos : Nat := 0
deriving DecidableEq, Repr, Inhabited

namespace Instant

/-- The first second of year -262143. -/
def minSecs : Int := -8334601228800

/-- The last second of year 262142. -/
def maxSecs : Int := 8210266876799

def nanosPerSecond : Nat := 1000000000

def ofUnix? (secs : Int) : Option Instant :=
  if minSecs ≤ secs ∧ secs ≤ maxSecs then some ⟨secs, 0⟩ else none

def millis (t : Instant) : Int := t.secs * 1000 + t.nanos / 1000000

/-! ## Writing -/

/-- Years of four digits are without a sign. -/
def yearText (y : Int) : List Char :=
  if 0 ≤ y ∧ y ≤ 9999 then Text.padded 4 y.toNat
  else (if y < 0 then '-' else '+') :: Text.padded 4 y.natAbs

/-- Three, six or nine digits after a point, as few as are exact. -/
def fractionText (nanos : Nat) : List Char :=
  if nanos = 0 then []
  else if nanos % 1000000 = 0 then '.' :: Text.padded 3 (nanos / 1000000)
  else if nanos % 1000 = 0 then '.' :: Text.padded 6 (nanos / 1000)
  else '.' :: Text.padded 9 nanos

def localText (t : Instant) : String :=
  let c := CivilTime.ofUnix t.secs
  let second := if nanosPerSecond ≤ t.nanos then c.time.second + 1 else c.time.second
  let two := Text.padded 2
  String.ofList (yearText c.date.year ++ '-' :: two c.date.month ++ '-' :: two c.date.day ++
    'T' :: two c.time.hour ++ ':' :: two c.time.minute ++ ':' :: two second ++
    fractionText (t.nanos % nanosPerSecond))

def text (t : Instant) : String := t.localText ++ "Z"

/-- The text with a numeric zone. -/
def textWithZone (t : Instant) : String := t.localText ++ "+00:00"

/-! ## Reading -/

def skipBlanks (cs : List Char) : List Char := cs.dropWhile Text.isBlank

/-- One to `most` digits at the front. -/
def digits? (most : Nat) (cs : List Char) : Option (Nat × List Char) :=
  let ds := (cs.take most).takeWhile Char.isDigit
  (Text.natOfDigits? 10 ds).map fun n => (n, cs.drop ds.length)

/-- A number of at most two digits with blanks before it. -/
def pair? (cs : List Char) : Option (Nat × List Char) := digits? 2 (skipBlanks cs)

/-- A year of up to four digits, or of any number of them after a sign. -/
def year? (cs : List Char) : Option (Int × List Char) :=
  match skipBlanks cs with
  | '-' :: rest => (digits? rest.length rest).map fun (n, rest) => (-(n : Int), rest)
  | '+' :: rest => (digits? rest.length rest).map fun (n, rest) => ((n : Int), rest)
  | rest => (digits? 4 rest).map fun (n, rest) => ((n : Int), rest)

/-- A character with blanks before it. -/
def mark? (c : Char) (cs : List Char) : Option (List Char) :=
  match skipBlanks cs with
  | d :: rest => if c = d then some rest else none
  | [] => none

/-- Nanoseconds from the digits after a point; digits after the ninth are passed over. -/
def fraction? : List Char → Option (Nat × List Char)
  | '.' :: rest =>
    let ds := (rest.take 9).takeWhile Char.isDigit
    (Text.natOfDigits? 10 ds).map fun n =>
      (n * Nat.pow 10 (9 - ds.length), rest.dropWhile Char.isDigit)
  | rest => some (0, rest)

def isPairDigit (a b : Char) : Bool := a.isDigit && b.isDigit

/-- Seconds by which a zone is ahead: a name of the zero zone, or a sign, hours and minutes. -/
def zone? (cs : List Char) : Option (Int × List Char) :=
  if (cs.take 3).map Char.toLower = "utc".toList then some (0, cs.drop 3)
  else match cs with
  | 'Z' :: rest | 'z' :: rest => some (0, rest)
  | sign :: a :: b :: rest =>
    if [plusSign, '-', minusSign].contains sign && isPairDigit a b then
      match rest.dropWhile fun c => c == ':' || Text.isBlank c with
      | c :: d :: rest =>
        if isPairDigit c d && c < '6' then
          let hours := (a.toNat - 48) * 10 + (b.toNat - 48)
          let minutes := (c.toNat - 48) * 10 + (d.toNat - 48)
          let ahead : Int := hours * 3600 + minutes * 60
          some (if sign = plusSign then ahead else -ahead, rest)
        else none
      | _ => none
    else none
  | _ => none
where
  plusSign : Char := '+'
  minusSign : Char := '\u2212'

/-- Reads a date, a time of day and a zone. Blanks may stand between the parts, and numbers may
have fewer digits. -/
def parse? (cs : List Char) : Option Instant := do
  let (year, cs) ← year? cs
  let (month, cs) ← pair? (← mark? '-' cs)
  let (day, cs) ← pair? (← mark? '-' cs)
  let cs ← match cs with
    | 'T' :: rest | 't' :: rest | ' ' :: rest => pure rest
    | _ => none
  let (hour, cs) ← pair? cs
  let (minute, cs) ← pair? (← mark? ':' cs)
  let (second, cs) ← pair? (← mark? ':' cs)
  let (nanos, cs) ← fraction? cs
  let (ahead, cs) ← zone? (skipBlanks cs)
  let date : Date := ⟨year, month, day⟩
  if skipBlanks cs ≠ [] ∨ !date.isValid ∨ 23 < hour ∨ 59 < minute ∨ 60 < second
    ∨ 86400 ≤ ahead.natAbs then none
  else
    let unix := CivilTime.toUnix ⟨date, ⟨hour, minute, min second 59⟩⟩
    if unix < minSecs ∨ maxSecs < unix then none
    else
      let t ← ofUnix? (unix - ahead)
      return { t with nanos := if second = 60 then nanos + nanosPerSecond else nanos }

end Instant
end NetKit
