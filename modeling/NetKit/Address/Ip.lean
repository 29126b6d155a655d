import NetKit.Text.Number

/-!
IPv4 and IPv6 addresses as 32 and 128 bits, and their written forms.
-/
namespace NetKit

abbrev Ipv4 := BitVec 32

abbrev Ipv6 := BitVec 128

/-- The octets of a word, most significant first. -/
def octetsOf {w : Nat} (x : BitVec w) : List UInt8 :=
  (List.range (w / 8)).map fun i => UInt8.ofNat (x.toNat >>> (w - 8 * (i + 1)))

/-- The word that has these octets, the most significant first. -/
def wordOf {w : Nat} (bs : List UInt8) : BitVec w :=
  BitVec.ofNat w (bs.foldl (fun n b => n * 256 + b.toNat) 0)

namespace Ipv4

def ofOctets (a b c d : Nat) : Ipv4 := BitVec.ofNat 32 (((a * 256 + b) * 256 + c) * 256 + d)

/-- The `i`th octet, the most significant first. -/
def octet (ip : Ipv4) (i : Nat) : Nat := (ip.toNat >>> (24 - 8 * i)) % 256

def broadcast : Ipv4 := BitVec.allOnes 32

def localhost : Ipv4 := ofOctets 127 0 0 1

/-- Four decimal numbers with dots between. -/
def text (ip : Ipv4) : String :=
  String.intercalate "." ((List.range 4).map fun i => String.ofList (Text.decimal (ip.octet i)))

end Ipv4

namespace Ipv6

def ofSegments (segments : List Nat) : Ipv6 :=
  BitVec.ofNat 128 (segments.foldl (fun acc s => acc * 65536 + s) 0)

/-- The `i`th group of sixteen bits, the most significant first. -/
def segment (ip : Ipv6) (i : Nat) : Nat := (ip.toNat >>> (112 - 16 * i)) % 65536

def segments (ip : Ipv6) : List Nat := (List.range 8).map ip.segment

def localhost : Ipv6 := 1

/-- The form `::ffff:a.b.c.d` of an IPv4 address. -/
def ofIpv4 (ip : Ipv4) : Ipv6 := BitVec.ofNat 128 (0xFFFF00000000 + ip.toNat)

/-- The IPv4 address of which this is the mapped form. -/
def toIpv4? (ip : Ipv6) : Option Ipv4 :=
  if ip.toNat / 0x100000000 = 0xFFFF then some (BitVec.ofNat 32 ip.toNat) else none

/-- How many zeros a list starts with. -/
def zeroRun (segments : List Nat) : Nat := (segments.takeWhile (· == 0)).length

/-- Start and length of the longest run of zeros, the first one among equals. -/
def longestZeros : Nat → List Nat → Nat × Nat
  | _, [] => (0, 0)
  | i, s :: rest =>
    let here := zeroRun (s :: rest)
    let later := longestZeros (i + 1) rest
    if later.2 ≤ here then (i, here) else later

def groupsText (segments : List Nat) : String :=
  String.intercalate ":" (segments.map fun s => String.ofList (Nat.toDigits 16 s))

/-- Groups in base sixteen; the longest run of at least two zero groups is left out. -/
def text (ip : Ipv6) : String :=
  match ip.toIpv4? with
  | some v4 => "::ffff:" ++ v4.text
  | none =>
    let (start, length) := longestZeros 0 ip.segments
    if 1 < length then
      groupsText (ip.segments.take start) ++ "::" ++ groupsText (ip.segments.drop (start + length))
    else groupsText ip.segments

end Ipv6

/-- An address of either family. -/
inductive Ip where
  | v4 (ip : Ipv4)
  | v6 (ip : Ipv6)
deriving DecidableEq, Repr

def Ip.text : Ip → String
  | .v4 ip => ip.text
  | .v6 ip => ip.text

end NetKit
