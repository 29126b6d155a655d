import NetKit.Address.Literal
import NetKit.Coded
import NetKit.Handles
import NetKit.Text.Blank

/-!
Host addresses: an IPv4 or IPv6 address, the address of every interface, or no address. An IPv6
address may carry the scope in which it holds.
-/
namespace NetKit

inductive SpecialAddress where
  | null
  | broadcast
  | localHost
  | localHostIpv6
  | any
  | anyIpv6
  | anyIpv4
deriving DecidableEq, Repr

instance : Coded SpecialAddress where
  kind := "SpecialAddress"
  all := [.null, .broadcast, .localHost, .localHostIpv6, .any, .anyIpv6, .anyIpv4]
  code
    | .null => 0
    | .broadcast => 1
    | .localHost => 2
    | .localHostIpv6 => 3
    | .any => 4
    | .anyIpv6 => 5
    | .anyIpv4 => 6
  name
    | .null => "Null"
    | .broadcast => "Broadcast"
    | .localHost => "LocalHost"
    | .localHostIpv6 => "LocalHostIPv6"
    | .any => "Any"
    | .anyIpv6 => "AnyIPv6"
    | .anyIpv4 => "AnyIPv4"

inductive Protocol where
  | ipv4
  | ipv6
  | anyIp
  | unknown
deriving DecidableEq, Repr

instance : Coded Protocol where
  kind := "NetworkLayerProtocol"
  all := [.ipv4, .ipv6, .anyIp, .unknown]
  code
    | .ipv4 => 0
    | .ipv6 => 1
    | .anyIp => 2
    | .unknown => -1
  name
    | .ipv4 => "IPv4Protocol"
    | .ipv6 => "IPv6Protocol"
    | .anyIp => "AnyIPProtocol"
    | .unknown => "UnknownNetworkLayerProtocol"

inductive Host where
  | null
  | v4 (ip : Ipv4)
  | v6 (ip : Ipv6)
  /-- Every interface, of both families. -/
  | any
deriving DecidableEq, Repr, Inhabited

structure Address where
  host : Host := .null
  scope : String := ""
deriving DecidableEq, Repr, Inhabited

namespace Address

def null : Address := {}

def isNull (a : Address) : Bool := a.host == .null

def ofIp : Ip → Address
  | .v4 ip => { host := .v4 ip }
  | .v6 ip => { host := .v6 ip }

def ofIpv4 (ip : Ipv4) : Address := { host := .v4 ip }

def ofIpv6 (ip : Ipv6) : Address := { host := .v6 ip }

def ofSpecial : SpecialAddress → Address
  | .null => null
  | .broadcast => ofIpv4 Ipv4.broadcast
  | .localHost => ofIpv4 Ipv4.localhost
  | .localHostIpv6 => ofIpv6 Ipv6.localhost
  | .any => { host := .any }
  | .anyIpv6 => ofIpv6 0
  | .anyIpv4 => ofIpv4 0

/-- An address or a scoped address without the blanks around it; opening brackets before the
address and closing ones after it are passed over. -/
def read? (text : List Char) : Option Address :=
  let (ip, scope) := (Text.splitOnce (· == '%') text).getD (text, [])
  let ip := Text.dropWhileEnd (· == ']') (ip.dropWhile (· == '['))
  match Literal.ipv4? ip with
  | some v4 => if scope.isEmpty then some (ofIpv4 v4) else none
  | none => (Literal.ipv6? ip).map fun v6 => { host := .v6 v6, scope := String.ofList scope }

def parse? (text : String) : Option Address := read? (Text.trim text.toList)

/-- The address that a text denotes; the null address when it denotes none. -/
def parse (text : String) : Address := (parse? text).getD null

def text (a : Address) : String :=
  let full := fun ip => if a.scope.isEmpty then ip else ip ++ "%" ++ a.scope
  match a.host with
  | .null => ""
  | .any => full "::"
  | .v4 ip => full ip.text
  | .v6 ip => full ip.text

def debugText (a : Address) : String := s!"HostAddress({a.text})"

def protocol (a : Address) : Protocol :=
  match a.host with
  | .null => .unknown
  | .v4 _ => .ipv4
  | .v6 _ => .ipv6
  | .any => .anyIp

def toIpv4? (a : Address) : Option Ipv4 :=
  match a.host with
  | .v4 ip => some ip
  | .v6 ip => ip.toIpv4?
  | .any => some 0
  | .null => none

def toIpv6 (a : Address) : Ipv6 :=
  match a.host with
  | .v4 ip => Ipv6.ofIpv4 ip
  | .v6 ip => ip
  | .any | .null => 0

/-- The address of one family. -/
def toIp? (a : Address) : Option Ip :=
  match a.host with
  | .v4 ip => some (.v4 ip)
  | .v6 ip => some (.v6 ip)
  | .any | .null => none

/-- Only IPv6 addresses take a scope. -/
def takesScope (a : Address) : Bool :=
  match a.host with
  | .v6 _ => true
  | _ => false

def setScope (a : Address) (scope : String) : Address :=
  if a.takesScope then { a with scope } else a

/-! ## Changes -/

inductive Edit where
  /-- Becomes the address that a text denotes. -/
  | set (text : String)
  | setScope (scope : String)
  | clear
deriving DecidableEq, Repr

/-- A scope is given to an IPv6 address only; others are not opened. -/
instance : Editable Address Edit where
  change?
    | .set text, _ => some (parse text)
    | .setScope scope, a => some (a.setScope scope)
    | .clear, _ => some null
  opens
    | .setScope _, a => a.takesScope
    | _, _ => true

end Address
end NetKit
