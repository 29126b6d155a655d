/-!
Numbers in text: digits of a base, decimal readers with a bound, and padded or signed output.
-/
namespace NetKit.Text

/-- The value of a digit in bases up to sixteen, in either case. -/
def digitValue (base : Nat) (c : Char) : Option Nat :=
  let v :=
    if '0' ≤ c ∧ c ≤ '9' then c.toNat - 48
    else if 'a' ≤ c ∧ c ≤ 'z' then c.toNat - 87
    else if 'A' ≤ c ∧ c ≤ 'Z' then c.toNat - 55
    else base
  if v < base then some v else none

/-- The number written by all of the digits; none when there is no digit or a stranger among them. -/
def natOfDigits? (base : Nat) : List Char → Option Nat
  | [] => none
  | cs => cs.foldl (fun acc c => do return (← acc) * base + (← digitValue base c)) (some 0)

/-- A decimal number below `bound`, with an optional plus sign. -/
def boundedNat? (bound : Nat) (cs : List Char) : Option Nat :=
  let digits := match cs with
    | '+' :: rest => rest
    | _ => cs
  (natOfDigits? 10 digits).filter (· < bound)

def decimal (n : Nat) : List Char := Nat.toDigits 10 n

/-- Digits filled with zeros on the left up to `width`. -/
def padded (width n : Nat) : List Char :=
  let ds := decimal n
  List.replicate (width - ds.length) '0' ++ ds

/-- The decimal form of an integer. -/
def signed (i : Int) : String :=
  if i < 0 then String.ofList ('-' :: decimal i.natAbs) else String.ofList (decimal i.natAbs)

end NetKit.Text
