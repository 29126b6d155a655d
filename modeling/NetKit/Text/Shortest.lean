import NetKit.Text.Number

/-!
The shortest decimal that reads back as a binary number. Of the decimals with the fewest digits it
is the nearest one, and of two that are equally near the greater.
-/
namespace NetKit.Text.Shortest

/-- A fraction of two natural numbers. -/
structure Fraction where
  num : Nat
  den : Nat
deriving Repr

/-- The number n times 2 to the power q. -/
def Fraction.binary (n : Nat) (q : Int) : Fraction :=
  if 0 ≤ q then ⟨n * Nat.pow 2 q.toNat, 1⟩ else ⟨n, Nat.pow 2 (-q).toNat⟩

/-- The number divided by 10 to the power e. -/
def Fraction.shift (x : Fraction) (e : Int) : Fraction :=
  if 0 ≤ e then ⟨x.num, x.den * Nat.pow 10 e.toNat⟩ else ⟨x.num * Nat.pow 10 (-e).toNat, x.den⟩

/-- How many tens make a number below one reach one. -/
def tensBelowOne : Nat → Fraction → Nat
  | 0, _ => 0
  | fuel + 1, x => if x.den ≤ x.num then 0 else tensBelowOne fuel ⟨x.num * 10, x.den⟩ + 1

/-- No positive number of 64 bits needs more. -/
def maxTens : Nat := 400

/-- The power of ten of the first digit. -/
def magnitude (x : Fraction) : Int :=
  let whole := x.num / x.den
  if whole = 0 then -(tensBelowOne maxTens x : Int) else (decimal whole).length - 1

/-- A number with the ends of the interval of all that rounds to it. -/
structure Rounded where
  value : Fraction
  low : Fraction
  high : Fraction
  /-- Whether the ends round to the number too. -/
  closed : Bool

/-- Digits and a power of ten. -/
structure Decimal where
  digits : Nat
  exponent : Int
deriving DecidableEq, Repr

/-- Whether a number of units of 10 to the power e rounds to the number. -/
def Rounded.contains (r : Rounded) (c : Nat) (e : Int) : Bool :=
  let low := r.low.shift e
  let high := r.high.shift e
  if r.closed then low.num ≤ c * low.den && c * high.den ≤ high.num
  else low.num < c * low.den && c * high.den < high.num

/-- The decimal of so many digits that rounds to the number, if there is one. -/
def Rounded.withDigits? (r : Rounded) (count : Nat) : Option Decimal :=
  let e := magnitude r.value - count + 1
  let x := r.value.shift e
  let below := x.num / x.den
  let above := below + 1
  let nearer := if 2 * (x.num - below * x.den) < x.den then [below, above] else [above, below]
  (nearer.find? fun c => r.contains c e).map fun c => ⟨c, e⟩

/-- Seventeen digits are always enough for 64 bits. -/
def Rounded.shortest (r : Rounded) : Decimal :=
  ((List.range 17).findSome? fun i => r.withDigits? (i + 1)).getD ⟨0, 0⟩

/-- The leading bit, which the fraction part leaves out. -/
def implicitBit : Nat := 0x10000000000000

/-- The positive number m times 2 to the power q, with a fraction part of 52 bits. -/
def Rounded.ofBinary (m : Nat) (q : Int) : Rounded :=
  -- Below a power of two the neighbour is half as far away.
  let below := if m = implicitBit ∧ q ≠ -1074 then 1 else 2
  ⟨.binary (4 * m) (q - 2), .binary (4 * m - below) (q - 2), .binary (4 * m + 2) (q - 2),
    m % 2 == 0⟩

/-- Digits with a point where it belongs, and neither an exponent nor a zero too many. -/
def Decimal.text (d : Decimal) : List Char :=
  let all := decimal d.digits
  let kept := (all.reverse.dropWhile (· == '0')).reverse
  let e : Int := d.exponent + (all.length - kept.length : Nat)
  let point := kept.length + e
  if 0 ≤ e then kept ++ List.replicate e.toNat '0'
  else if 0 < point then kept.take point.toNat ++ '.' :: kept.drop point.toNat
  else '0' :: '.' :: List.replicate (-point).toNat '0' ++ kept

end NetKit.Text.Shortest

namespace NetKit.Text
open Shortest

/-- The text of a number of 64 bits. -/
def float (x : Float) : String :=
  let bits := x.toBits.toNat
  let sign := if 0x8000000000000000 ≤ bits then "-" else ""
  let exponent : Nat := bits / implicitBit % 2048
  let fraction := bits % implicitBit
  if exponent = 2047 then (if fraction = 0 then sign ++ "inf" else "NaN")
  else if exponent = 0 ∧ fraction = 0 then sign ++ "0"
  else
    let r := if exponent = 0 then Rounded.ofBinary fraction (-1074)
      else Rounded.ofBinary (implicitBit + fraction) ((exponent : Int) - 1075)
    sign ++ String.ofList r.shortest.text

end NetKit.Text
