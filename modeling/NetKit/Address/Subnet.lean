import NetKit.Address

/-!
Subnets: the addresses that share their leading bits with a base.
-/
namespace NetKit

/-! ## Leading bits -/

/-- An octet with `n` leading ones, of one to seven. -/
def leadingMask (n : Nat) : UInt8 := 0xFF <<< UInt8.ofNat (8 - n)

/-- Octets with zeros after their first `n` bits. -/
def clearBits (n : Nat) (bs : List UInt8) : List UInt8 :=
  bs.mapIdx fun i b =>
    if n ≤ 8 * i then 0
    else if n - 8 * i < 8 then b &&& leadingMask (n - 8 * i)
    else b

/-- Whether octets agree in their first `n` bits: whole octets first, then the leading bits of one
more. None when there are too few octets. -/
def sharesBits? (xs ys : List UInt8) (n : Nat) : Option Bool :=
  let whole := n / 8
  let rest := n % 8
  if xs.length < whole ∨ ys.length < whole then none
  else if xs.take whole ≠ ys.take whole then some false
  else if rest = 0 then some true
  else do
    let x ← xs[whole]?
    let y ← ys[whole]?
    return x &&& leadingMask rest == y &&& leadingMask rest

/-- The word with its leading `n` bits alone. -/
def clearHostBits {w : Nat} (x : BitVec w) (n : Nat) : BitVec w :=
  wordOf (clearBits n (octetsOf x))

/-- How many bits stand in front of the first zero. -/
def leadingOnesCount {w : Nat} (x : BitVec w) : Nat :=
  ((List.range w).takeWhile fun i => x.getMsbD i).length

/-- The count of leading ones, when only zeros follow them. -/
def contiguous? {w : Nat} (x : BitVec w) : Option Nat :=
  let n := leadingOnesCount x
  if x <<< n = 0 then some n else none

/-! ## Subnets -/

/-- A base address and the number of leading bits that its members share. -/
structure Subnet where
  base : Address
  length : Nat
deriving DecidableEq, Repr

namespace Subnet

/-- Whether an address shares so many leading bits with the base. None when an octet is missing. -/
def contains? (base : Address) (length : Int) (a : Address) : Option Bool :=
  if length < 0 then some false
  else match a.host, base.host with
    | .v4 x, .v4 y =>
      if length ≤ 32 then sharesBits? (octetsOf x) (octetsOf y) length.toNat else some false
    | .v6 x, .v6 y =>
      if length ≤ 128 then sharesBits? (octetsOf x) (octetsOf y) length.toNat else some false
    | _, _ => some false

def contains (base : Address) (length : Int) (a : Address) : Bool :=
  (contains? base length a).getD false

/-- The length that a text gives for addresses of `w` bits. -/
def readLength? (w : Nat) (mask : List Char) : Option Nat := do
  (← Text.boundedNat? UInt32.size mask) |> fun n => if n ≤ w then some n else none

/-- The length that a text gives for IPv4 addresses, as a number or as a netmask. -/
def readLength4? (mask : List Char) : Option Nat :=
  match Text.boundedNat? UInt32.size mask with
  | some n => if n ≤ 32 then some n else none
  | none => (Literal.ipv4? mask).bind contiguous?

/-- What stands before and after the first slash of a text. -/
def split (text : String) : List Char × Option (List Char) :=
  let cs := Text.trim text.toList
  match Text.splitOnce (· == '/') cs with
  | some (ip, mask) => (ip, some (Text.trim mask))
  | none => (cs, none)

/-- The part of a text that gives the base address. -/
def baseText (text : String) : List Char := (split text).1

/-- An address, a slash, and a length or netmask. Without these the subnet is the address alone. -/
def parse? (text : String) : Option Subnet :=
  let (ip, mask) := split text
  match (Address.parse (String.ofList ip)).host, mask with
  | .v4 x, none => some ⟨.ofIpv4 x, 32⟩
  | .v6 x, none => some ⟨.ofIpv6 x, 128⟩
  | .v4 x, some mask => (readLength4? mask).map fun n => ⟨.ofIpv4 (clearHostBits x n), n⟩
  | .v6 x, some mask => (readLength? 128 mask).map fun n => ⟨.ofIpv6 (clearHostBits x n), n⟩
  | _, _ => none

end Subnet
end NetKit
