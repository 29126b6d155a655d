import NetKit.Bytes
import NetKit.Der
import NetKit.Text.Blank
import NetKit.Text.Number

/-!
Object identifiers: numbers in base 128, the first two of them joined in one.
-/
namespace NetKit.Der

/-- An identifier as it is encoded. -/
abbrev Oid := Bytes

namespace Oid

/-- Numbers in base 128; the last digit of each is without its high bit. -/
def arcs : Nat → Bytes → List Nat
  | _, [] => []
  | acc, b :: rest =>
    let acc := acc * 128 + b.toNat % 128
    if b < 0x80 then acc :: arcs 0 rest else
      match rest with
      | [] => [acc]
      | _ => arcs acc rest

/-- The numbers of an identifier; the first octet holds two. -/
def numbers : Oid → List Nat
  | [] => []
  | [0] => [0]
  | b :: rest => b.toNat / 40 :: b.toNat % 40 :: arcs 0 rest

/-- The most octets of a number that is sure to have room in 64 bits. -/
def longestArc : Nat := 9

/-- Whether some number has too many octets; one that breaks off does not count. -/
def isLong (o : Oid) : Bool :=
  (Text.splitBy (· < 0x80) o.tail).dropLast.any fun arc => longestArc ≤ arc.length

/-- Octets in hexadecimal digits with blanks between. -/
def octetText (o : Oid) : String := " ".intercalate (o.map fun b => Bytes.hex [b])

/-- The numbers in 64 bits; none when a number is too long. -/
def shown? (o : Oid) : Option (List Nat) :=
  if o.isLong then none else some (o.numbers.map (· % UInt64.size))

/-- The numbers with dots between, or the octets when a number is too long. -/
def text (o : Oid) : String :=
  match o.shown? with
  | none => o.octetText
  | some ns => ".".intercalate (ns.map fun n => String.ofList (Text.decimal n))

end Oid

/-- An object identifier, of whatever tag. -/
def oid : Reader Fault Oid := do
  let e ← element
  if e.header.constructed then throw .constructUnexpected else return e.content

end NetKit.Der
