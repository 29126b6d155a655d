import NetKit.Text.Utf8

/-!
Base 64: three octets as four characters, with equals signs where the last group is short.
-/
namespace NetKit.Base64

/-- The character of a number below 64. -/
def symbol (n : Nat) : Char :=
  if n < 26 then Char.ofNat (65 + n)
  else if n < 52 then Char.ofNat (71 + n)
  else if n < 62 then Char.ofNat (n - 4)
  else if n = 62 then '+'
  else '/'

def value? (c : Char) : Option Nat :=
  if 'A' ≤ c ∧ c ≤ 'Z' then some (c.toNat - 65)
  else if 'a' ≤ c ∧ c ≤ 'z' then some (c.toNat - 71)
  else if '0' ≤ c ∧ c ≤ '9' then some (c.toNat + 4)
  else if c = '+' then some 62
  else if c = '/' then some 63
  else none

def encode : Bytes → List Char
  | [] => []
  | [a] => [symbol (a.toNat / 4), symbol (a.toNat % 4 * 16), '=', '=']
  | [a, b] =>
    [symbol (a.toNat / 4), symbol (a.toNat % 4 * 16 + b.toNat / 16), symbol (b.toNat % 16 * 4), '=']
  | a :: b :: c :: rest =>
    symbol (a.toNat / 4) :: symbol (a.toNat % 4 * 16 + b.toNat / 16) ::
      symbol (b.toNat % 16 * 4 + c.toNat / 64) :: symbol (c.toNat % 64) :: encode rest

def octet (n : Nat) : UInt8 := UInt8.ofNat n

/-- Accepts what `encode` writes and nothing else: short groups are filled up, and the bits that
they leave over are zero. -/
def decode? : List Char → Option Bytes
  | [] => some []
  | [x, y, '=', '='] => do
    let a ← value? x
    let b ← value? y
    if b % 16 = 0 then some [octet (a * 4 + b / 16)] else none
  | [x, y, z, '='] => do
    let a ← value? x
    let b ← value? y
    let c ← value? z
    if c % 4 = 0 then some [octet (a * 4 + b / 16), octet (b % 16 * 16 + c / 4)] else none
  | x :: y :: z :: w :: rest => do
    let a ← value? x
    let b ← value? y
    let c ← value? z
    let d ← value? w
    let bs ← decode? rest
    return octet (a * 4 + b / 16) :: octet (b % 16 * 16 + c / 4) :: octet (c % 4 * 64 + d) :: bs
  | _ => none

end NetKit.Base64
