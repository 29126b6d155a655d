import NetKit.Address

/-!
What an address is for. IPv4-mapped addresses are classed as the IPv4 addresses they stand for;
private, unique-local and site-local addresses count as global.
-/
namespace NetKit

inductive AddressClass where
  | unspecified
  | loopback
  | linkLocal
  | multicast (isGlobal : Bool)
  | broadcast
  | reserved
  | siteLocal
  | uniqueLocal
  | privateUse
  | global
deriving DecidableEq, Repr

namespace Ipv4

def isPrivate (ip : Ipv4) : Bool :=
  ip.octet 0 == 10 || (ip.octet 0 == 172 && ip.octet 1 / 16 == 1) ||
    (ip.octet 0 == 192 && ip.octet 1 == 168)

def addressClass (ip : Ipv4) : AddressClass :=
  let a := ip.octet 0
  let b := ip.octet 1
  if ip = 0 then .unspecified
  else if ip = broadcast then .broadcast
  else if a = 127 then .loopback
  else if a = 169 ∧ b = 254 then .linkLocal
  else if 224 ≤ a ∧ a < 240 then .multicast (!(a == 224 && b == 0 && ip.octet 2 == 0))
  else if 240 ≤ a then .reserved
  else if ip.isPrivate then .privateUse
  else .global

end Ipv4

namespace Ipv6

def addressClass (ip : Ipv6) : AddressClass :=
  match ip.toIpv4? with
  | some v4 => v4.addressClass
  | none =>
    let s := ip.segment 0
    if ip = 0 then .unspecified
    else if ip = localhost then .loopback
    else if s &&& 0xFF00 = 0xFF00 then .multicast (s &&& 0x000F == 0x000E)
    else if s &&& 0xFFC0 = 0xFE80 then .linkLocal
    else if s &&& 0xFFC0 = 0xFEC0 then .siteLocal
    else if s &&& 0xFE00 = 0xFC00 then .uniqueLocal
    else .global

end Ipv6

namespace Address

def class? (a : Address) : Option AddressClass :=
  match a.host with
  | .null => none
  | .any => some .unspecified
  | .v4 ip => some ip.addressClass
  | .v6 ip => some ip.addressClass

def isLoopback (a : Address) : Bool := a.class? == some .loopback

def isBroadcast (a : Address) : Bool := a.class? == some .broadcast

def isMulticast (a : Address) : Bool :=
  match a.class? with
  | some (.multicast _) => true
  | _ => false

def isLinkLocal (a : Address) : Bool := a.class? == some .linkLocal

def isSiteLocal (a : Address) : Bool := a.class? == some .siteLocal

def isUniqueLocal (a : Address) : Bool := a.class? == some .uniqueLocal

def isPrivateUse (a : Address) : Bool :=
  match a.class? with
  | some .uniqueLocal | some .privateUse => true
  | _ => false

def isGlobal (a : Address) : Bool :=
  match a.class? with
  | some .global | some .siteLocal | some .uniqueLocal | some .privateUse
  | some (.multicast true) => true
  | _ => false

/-- Names more than one host. -/
def isNonUnicast (a : Address) : Bool := a.isBroadcast || a.isMulticast

/-- The classes an address belongs to, by name. -/
def classNames (a : Address) : List String :=
  [("loopback", a.isLoopback), ("broadcast", a.isBroadcast), ("multicast", a.isMulticast),
    ("link_local", a.isLinkLocal), ("site_local", a.isSiteLocal),
    ("unique_local", a.isUniqueLocal), ("private_use", a.isPrivateUse),
    ("global", a.isGlobal)].filterMap fun (name, holds) => if holds then some name else none

end Address
end NetKit
