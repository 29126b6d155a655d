import NetKit.Calendar
import NetKit.Text.Number

/-!
The dates of cookies: four ways of writing one that are read, and the one that is written. The
name of the weekday is not checked against the date and may be missing.
-/
namespace NetKit.CookieDate
open Text

/-- A part of a written date. -/
inductive Part where
  | literal (c : Char)
  /-- Two digits. -/
  | day
  /-- Two columns, the first of which may be a space. -/
  | daySpace
  | month
  /-- One to four digits, with an optional sign. -/
  | year
  | yearShort
  | hour
  | minute
  | second
deriving DecidableEq, Repr

/-- A way of writing a date. -/
structure Form where
  weekdays : List String
  /-- What stands between the weekday and the rest. -/
  afterWeekday : String
  parts : List Part

def shortNames (names : List String) : List String :=
  names.map fun n => String.ofList (n.toList.take 3)

def spaced (day month year : List Part) (between : Char) (last : List Part) : List Part :=
  day ++ .literal between :: month ++ .literal between :: year ++ .literal ' ' ::
    [.hour, .literal ':', .minute, .literal ':', .second] ++ last

def zone : List Part := " GMT".toList.map .literal

/-- `Wed, 21 Oct 2015 07:28:00 GMT`. -/
def mailForm : Form :=
  ⟨shortNames Date.weekdayNames, ", ", spaced [.day] [.month] [.year] ' ' zone⟩

/-- `Wednesday, 21-Oct-15 07:28:00 GMT`. -/
def newsForm : Form :=
  ⟨Date.weekdayNames, ", ", spaced [.day] [.month] [.yearShort] '-' zone⟩

/-- `Wed Oct 21 07:28:00 2015`. -/
def clockForm : Form :=
  ⟨shortNames Date.weekdayNames, " ",
    [.month, .literal ' ', .daySpace, .literal ' ', .hour, .literal ':', .minute, .literal ':',
      .second, .literal ' ', .year]⟩

/-- `Wed, 21-Oct-2015 07:28:00 GMT`. -/
def dashedForm : Form :=
  ⟨shortNames Date.weekdayNames, ", ", spaced [.day] [.month] [.year] '-' zone⟩

def readForms : List Form := [mailForm, newsForm, clockForm, dashedForm]

/-! ## Reading -/

/-- The fields read so far. -/
structure Fields where
  year : Int := 0
  month : Nat := 0
  day : Nat := 0
  hour : Nat := 0
  minute : Nat := 0
  second : Nat := 0
deriving DecidableEq, Repr

def readDigits (least most : Nat) (cs : List Char) : Option (Nat × List Char) :=
  let digits := (cs.take most).takeWhile Char.isDigit
  if digits.length < least then none
  else (natOfDigits? 10 digits).map fun n => (n, cs.drop digits.length)

/-- The position of the first name with which a text starts. -/
def readName (names : List String) (cs : List Char) : Option (Nat × List Char) :=
  (names.findIdx? fun n => n.toList.isPrefixOf cs).map fun i =>
    (i, cs.drop (names.getD i "").length)

def readYear (cs : List Char) : Option (Int × List Char) :=
  match cs with
  | '-' :: rest => (readDigits 1 4 rest).map fun (n, rest) => (-n, rest)
  | '+' :: rest => (readDigits 1 4 rest).map fun (n, rest) => (n, rest)
  | _ => (readDigits 1 4 cs).map fun (n, rest) => (n, rest)

def readDaySpace : List Char → Option (Nat × List Char)
  | ' ' :: rest => readDigits 1 1 rest
  | cs => readDigits 2 2 cs

def readPart (f : Fields) (cs : List Char) : Part → Option (Fields × List Char)
  | .literal c => match cs with
    | d :: rest => if d = c then some (f, rest) else none
    | [] => none
  | .day => (readDigits 2 2 cs).map fun (n, rest) => ({ f with day := n }, rest)
  | .daySpace => (readDaySpace cs).map fun (n, rest) => ({ f with day := n }, rest)
  | .month => (readName (shortNames Date.monthNames) cs).map fun (i, rest) =>
    ({ f with month := i + 1 }, rest)
  | .year => (readYear cs).map fun (y, rest) => ({ f with year := y }, rest)
  | .yearShort => (readDigits 2 2 cs).map fun (n, rest) => ({ f with year := n }, rest)
  | .hour => (readDigits 2 2 cs).map fun (n, rest) => ({ f with hour := n }, rest)
  | .minute => (readDigits 2 2 cs).map fun (n, rest) => ({ f with minute := n }, rest)
  | .second => (readDigits 2 2 cs).map fun (n, rest) => ({ f with second := n }, rest)

def readParts (f : Fields) (cs : List Char) : List Part → Option (Fields × List Char)
  | [] => some (f, cs)
  | p :: ps => (readPart f cs p).bind fun (f, cs) => readParts f cs ps

def dropWeekday (form : Form) (cs : List Char) : List Char :=
  match readName form.weekdays cs with
  | some (_, rest) =>
    if form.afterWeekday.toList.isPrefixOf rest then rest.drop form.afterWeekday.length else cs
  | none => cs

/-- Years below 70 are of this century, other years below 100 of the last. -/
def fullYear (y : Int) : Int :=
  if 0 ≤ y ∧ y ≤ 69 then y + 2000 else if 70 ≤ y ∧ y ≤ 99 then y + 1900 else y

def toCivil? (f : Fields) : Option CivilTime :=
  let date : Date := ⟨fullYear f.year, f.month, f.day⟩
  if date.isValid && f.hour < 24 && f.minute < 60 && f.second < 60 then
    some ⟨date, ⟨f.hour, f.minute, f.second⟩⟩
  else none

def readForm (cs : List Char) (form : Form) : Option CivilTime :=
  match readParts {} (dropWeekday form cs) form.parts with
  | some (f, []) => toCivil? f
  | _ => none

/-- Seconds since 1970-01-01 of a written date. -/
def read? (cs : List Char) : Option Int := (readForms.findSome? (readForm cs)).map CivilTime.toUnix

/-! ## Writing -/

def writePart (c : CivilTime) : Part → List Char
  | .literal ch => [ch]
  | .day => padded 2 c.date.day
  | .daySpace => if c.date.day < 10 then ' ' :: decimal c.date.day else decimal c.date.day
  | .month => ((shortNames Date.monthNames).getD (c.date.month - 1) "").toList
  | .year => (signed c.date.year).toList
  | .yearShort => padded 2 (c.date.year.natAbs % 100)
  | .hour => padded 2 c.time.hour
  | .minute => padded 2 c.time.minute
  | .second => padded 2 c.time.second

def writeForm (form : Form) (c : CivilTime) : List Char :=
  (form.weekdays.getD c.date.weekday "").toList ++ form.afterWeekday.toList ++
    form.parts.flatMap (writePart c)

/-- The written form of an instant in seconds since 1970-01-01. -/
def write (secs : Int) : List Char := writeForm mailForm (CivilTime.ofUnix secs)

end NetKit.CookieDate
