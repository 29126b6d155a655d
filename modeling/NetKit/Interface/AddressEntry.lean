import NetKit.Address.Subnet

/-!
An address of an interface: the address, its broadcast address, and how many leading bits name the
network.
-/
namespace NetKit

structure AddressEntry where
  ip : Address := .null
  broadcast : Address := .null
  /-- None while unknown. -/
  length : Option Nat := none
deriving DecidableEq, Repr, Inhabited

namespace AddressEntry

/-- The number of bits of an address of one family. -/
def width? (a : Address) : Option Nat :=
  match a.host with
  | .v4 _ => some 32
  | .v6 _ => some 128
  | .null | .any => none

/-- The address whose bits are one where the network is named, null while that is unknown. There
is none when the length was set for a wider address than the present one. -/
def netmask? (e : AddressEntry) : Option Address :=
  match e.length, e.ip.host with
  | some n, .v4 _ => if n ≤ 32 then some (.ofIpv4 (BitVec.allOnes 32 <<< (32 - n))) else none
  | some n, .v6 _ => if n ≤ 128 then some (.ofIpv6 (BitVec.allOnes 128 <<< (128 - n))) else none
  | _, _ => some .null

/-- The length of a netmask, looked for in 128 bits whatever its family. -/
def maskLength? (mask : Address) : Option Nat :=
  match mask.host with
  | .v4 m => (contiguous? (m.setWidth 128 <<< 96)).filter (· ≤ 32)
  | .v6 m => (contiguous? m).filter (· ≤ 128)
  | .null | .any => none

/-- A netmask of the other family, or one with a zero before a one, leaves the length unknown. -/
def setNetmask (e : AddressEntry) (mask : Address) : AddressEntry :=
  { e with
    length := match width? e.ip, width? mask with
      | some own, some other => if own = other then maskLength? mask else none
      | _, _ => none }

def setLength (e : AddressEntry) (n : Int) : AddressEntry :=
  { e with
    length := (width? e.ip).bind fun w => if 0 ≤ n ∧ n ≤ w then some n.toNat else none }

def setIp (e : AddressEntry) (ip : Address) : AddressEntry := { e with ip }

def setBroadcast (e : AddressEntry) (broadcast : Address) : AddressEntry := { e with broadcast }

inductive Edit where
  | setIp (a : Address)
  | setNetmask (a : Address)
  | setBroadcast (a : Address)
  | setLength (n : Int)
deriving DecidableEq, Repr

instance : Editable AddressEntry Edit where
  change?
    | .setIp a, e => some (e.setIp a)
    | .setNetmask a, e => some (e.setNetmask a)
    | .setBroadcast a, e => some (e.setBroadcast a)
    | .setLength n, e => some (e.setLength n)

/-- The length as a number, minus one while unknown. -/
def lengthCode (e : AddressEntry) : Int :=
  match e.length with
  | some n => n
  | none => -1

/-- Lifetimes are not reported, so every entry stays. -/
def isPermanent (_ : AddressEntry) : Bool := true

def isLifetimeKnown (_ : AddressEntry) : Bool := false

def text (e : AddressEntry) : String :=
  s!"NetworkAddressEntry \x7b ip: {e.ip.debugText}, prefix_length: {e.lengthCode}, " ++
    s!"broadcast: {e.broadcast.debugText} \x7d"

end AddressEntry
end NetKit
