import NetKit.Text.Number
import NetKit.Text.Units

/-!
JSON values and their text.
-/
namespace NetKit

/-- A number as it is written: digits, a power of ten, and a sign that zero can have too. -/
structure Json.Number where
  negative : Bool := false
  digits : Nat
  exponent : Int := 0
  /-- Written without a point and without an exponent. -/
  whole : Bool := true
deriving DecidableEq, Repr

inductive Json where
  | null
  | bool (b : Bool)
  | num (n : Json.Number)
  | str (s : String)
  /-- A string with half of a surrogate pair, which is no text. -/
  | unpaired
  | arr (items : List Json)
  | obj (fields : List (String × Json))
deriving Inhabited

namespace Json

def ofInt (i : Int) : Json := .num { negative := i < 0, digits := i.natAbs }

def ofNat (n : Nat) : Json := .num { digits := n }

def ofOption {α : Type} (f : α → Json) : Option α → Json
  | none => .null
  | some a => f a

def ofList {α : Type} (f : α → Json) (l : List α) : Json := .arr (l.map f)

/-! ## Parts -/

/-- The integers that 64 bits hold, signed or not. Minus zero is no integer. -/
def Number.int? (n : Number) : Option Int :=
  if !n.whole then none
  else if n.negative then if n.digits = 0 ∨ 0x8000000000000000 < n.digits then none else some (-n.digits)
  else if n.digits < UInt64.size then some n.digits else none

def int? : Json → Option Int
  | .num n => n.int?
  | _ => none

/-- The nearest floating-point number. -/
def Number.float (n : Number) : Float :=
  let x := Float.ofScientific n.digits (n.exponent < 0) n.exponent.natAbs
  if n.negative then -x else x

/-- An integer below 2^64 that is not negative. -/
def nat? (j : Json) : Option Nat := j.int?.bind fun i => if 0 ≤ i then some i.toNat else none

def bool? : Json → Option Bool
  | .bool b => some b
  | _ => none

def str? : Json → Option String
  | .str s => some s
  | _ => none

def arr? : Json → Option (List Json)
  | .arr items => some items
  | _ => none

/-- The value of the last field of a name. -/
def field? (name : String) : Json → Option Json
  | .obj fields => (fields.reverse.find? fun f => f.1 == name).map (·.2)
  | _ => none

/-! ## Text -/

def hexDigit (n : Nat) : Char := Nat.digitChar n

/-- An escaped unit of sixteen bits. -/
def escapeUnit (u : Nat) : List Char :=
  ['\\', 'u', hexDigit (u / 4096 % 16), hexDigit (u / 256 % 16), hexDigit (u / 16 % 16),
    hexDigit (u % 16)]

/-- Everything but the printable characters of ASCII is escaped. -/
def escapeChar (c : Char) : List Char :=
  if c = '"' ∨ c = '\\' then ['\\', c]
  else if ' ' ≤ c ∧ c ≤ '~' then [c]
  else (Text.unitsOfChar c).flatMap escapeUnit

def quote (s : String) : String := String.ofList ('"' :: s.toList.flatMap escapeChar ++ ['"'])

def Number.text (n : Number) : String :=
  let sign := if n.negative then "-" else ""
  let power := if n.whole then "" else "e" ++ toString n.exponent
  sign ++ toString n.digits ++ power

mutual
def text : Json → String
  | .null => "null"
  | .bool b => if b then "true" else "false"
  | .num n => n.text
  | .str s => quote s
  | .unpaired => quote "\uFFFD"
  | .arr items => "[" ++ ",".intercalate (itemTexts items) ++ "]"
  | .obj fields => "\x7b" ++ ",".intercalate (fieldTexts fields) ++ "\x7d"

def itemTexts : List Json → List String
  | [] => []
  | j :: rest => text j :: itemTexts rest

def fieldTexts : List (String × Json) → List String
  | [] => []
  | (name, j) :: rest => (quote name ++ ":" ++ text j) :: fieldTexts rest
end

end Json
end NetKit
