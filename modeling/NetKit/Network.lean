import NetKit.Address
import NetKit.SystemError
import NetKit.Text.Utf8

/-!
What sockets ask of a system that has a network. As with files, a law that holds for every instance
holds whatever the system answers.
-/
namespace NetKit

/-- An address of a machine and a port on it. -/
structure Endpoint where
  ip : Ip
  port : UInt16
deriving DecidableEq, Repr

namespace Ip

def isIpv6 : Ip → Bool
  | .v4 _ => false
  | .v6 _ => true

/-- The address of every interface of one family. -/
def unspecified (ipv6 : Bool) : Ip := if ipv6 then .v6 0 else .v4 0

/-- Mapped addresses as the IPv4 addresses they stand for. -/
def canonical : Ip → Ip
  | .v4 ip => .v4 ip
  | .v6 ip => (ip.toIpv4?.map Ip.v4).getD (.v6 ip)

end Ip

namespace Endpoint

def text (e : Endpoint) : String :=
  match e.ip with
  | .v4 ip => ip.text ++ ":" ++ toString e.port.toNat
  | .v6 ip => "[" ++ ip.text ++ "]:" ++ toString e.port.toNat

def canonical (e : Endpoint) : Endpoint := { e with ip := e.ip.canonical }

/-- An IPv4 endpoint in its mapped form. -/
def mapped (e : Endpoint) : Endpoint :=
  match e.ip with
  | .v4 ip => { e with ip := .v6 (Ipv6.ofIpv4 ip) }
  | .v6 _ => e

/-- The address at one end, null when there is no end. -/
def address (e : Option Endpoint) : Address := (e.map fun e => Address.ofIp e.ip).getD .null

def portNumber (e : Option Endpoint) : Nat := (e.map fun e => e.port.toNat).getD 0

/-- The endpoint at an address. The address of every interface is that of IPv6. -/
def ofAddress? (a : Address) (port : UInt16) : Option Endpoint :=
  match a.host with
  | .null => none
  | .any => some ⟨.v6 0, port⟩
  | .v4 ip => some ⟨.v4 ip, port⟩
  | .v6 ip => some ⟨.v6 ip, port⟩

/-- Where a server or a socket is bound: the null address stands for every interface. -/
def ofBinding (a : Address) (port : UInt16) : Endpoint := (ofAddress? a port).getD ⟨.v6 0, port⟩

end Endpoint

/-- Descriptors are numbers that the system gives out for sockets. -/
abbrev SocketId := Nat

/-- A time limit in milliseconds; none waits for ever. -/
abbrev TimeLimit := Option Nat

class Network (σ : Type) where
  /-- The endpoints that a host name and a port stand for. -/
  resolve : (host : String) → UInt16 → σ → Except SystemError (List Endpoint)
  localEnd : SocketId → σ → Option Endpoint
  peerEnd : SocketId → σ → Option Endpoint
  /-- Whether something can be taken before the time is over. -/
  waitReadable : SocketId → TimeLimit → σ → Except SystemError Bool × σ
  release : SocketId → σ → σ
  listen : Endpoint → σ → Except SystemError SocketId × σ
  /-- The client that has waited longest; none when no client waits. -/
  accept : SocketId → σ → Except SystemError (Option SocketId) × σ
  connect : Endpoint → TimeLimit → σ → Except SystemError SocketId × σ
  receive : SocketId → Nat → σ → Except SystemError Bytes × σ
  send : SocketId → Bytes → σ → Except SystemError Unit × σ
  bind : Endpoint → σ → Except SystemError SocketId × σ
  /-- Fixes the other end of a socket for datagrams. -/
  connectTo : SocketId → Endpoint → σ → Except SystemError Unit × σ
  sendTo : SocketId → Bytes → Endpoint → σ → Except SystemError Nat × σ
  /-- The size of the next datagram. -/
  pendingSize : SocketId → σ → Option Nat
  /-- At most so many octets of the next datagram; none when there is none. -/
  receiveFrom : SocketId → Nat → σ → Except SystemError (Option (Bytes × Endpoint)) × σ
  hopLimit : SocketId → σ → Option Nat
  setHopLimit : SocketId → Nat → σ → Except SystemError Unit × σ
  joinGroup : SocketId → Ip → σ → Except SystemError Unit × σ
  leaveGroup : SocketId → Ip → σ → Except SystemError Unit × σ

end NetKit
