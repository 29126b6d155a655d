import NetKit.Address.Ip
import NetKit.Text.Number

/-!
Reading IPv4 and IPv6 literals.
-/
namespace NetKit.Literal
open Text

/-- A number of at most `limit` digits, with what follows it. -/
def readNumber (base limit : Nat) (leadingZeros : Bool) (cs : List Char) :
    Option (Nat × List Char) :=
  let isDigit := fun c => (digitValue base c).isSome
  let digits := cs.takeWhile isDigit
  if limit < digits.length then none
  else if !leadingZeros && digits.head? == some '0' && 1 < digits.length then none
  else (natOfDigits? base digits).map fun n => (n, cs.dropWhile isDigit)

/-- One octet of the dotted form. -/
def readOctet (cs : List Char) : Option (Nat × List Char) :=
  (readNumber 10 3 false cs).filter fun r => r.1 < 256

def readChar (c : Char) : List Char → Option (List Char)
  | [] => none
  | d :: rest => if d = c then some rest else none

def readIpv4 (cs : List Char) : Option (Ipv4 × List Char) := do
  let (a, cs) ← readOctet cs
  let (b, cs) ← readOctet (← readChar '.' cs)
  let (c, cs) ← readOctet (← readChar '.' cs)
  let (d, cs) ← readOctet (← readChar '.' cs)
  return (Ipv4.ofOctets a b c d, cs)

/-- What a run of groups holds: the groups, whether the last two of them were written as an IPv4
address, and what follows. -/
structure Groups where
  segments : List Nat
  dotted : Bool
  rest : List Char

/-- At most that many groups with colons between them. -/
def readGroups : Nat → Bool → List Char → Groups
  | 0, _, cs => ⟨[], false, cs⟩
  | n + 1, isFirst, cs =>
    match if isFirst then some cs else readChar ':' cs with
    | none => ⟨[], false, cs⟩
    | some body =>
      match if 1 ≤ n then readIpv4 body else none with
      | some (v4, rest) => ⟨[v4.toNat / 65536, v4.toNat % 65536], true, rest⟩
      | none =>
        match readNumber 16 4 true body with
        | none => ⟨[], false, cs⟩
        | some (s, rest) =>
          let more := readGroups n false rest
          { more with segments := s :: more.segments }

def readIpv6 (cs : List Char) : Option (Ipv6 × List Char) := do
  let front := readGroups 8 true cs
  if front.segments.length = 8 then return (Ipv6.ofSegments front.segments, front.rest)
  if front.dotted then failure
  let cs ← readChar ':' (← readChar ':' front.rest)
  let back := readGroups (7 - front.segments.length) true cs
  let zeros := List.replicate (8 - front.segments.length - back.segments.length) 0
  return (Ipv6.ofSegments (front.segments ++ zeros ++ back.segments), back.rest)

/-- What a reader finds when it uses up the whole text. -/
def whole {α : Type} (r : Option (α × List Char)) : Option α :=
  r.bind fun (a, rest) => if rest.isEmpty then some a else none

def ipv4? (cs : List Char) : Option Ipv4 := whole (readIpv4 cs)

def ipv6? (cs : List Char) : Option Ipv6 := whole (readIpv6 cs)

def ip? (cs : List Char) : Option Ip :=
  match ipv4? cs with
  | some ip => some (.v4 ip)
  | none => (ipv6? cs).map .v6

end NetKit.Literal
