import NetKit.Address.Class
import NetKit.Address.Literal
import NetKit.Network

/-!
The network inside one machine. While its loopback interface is down the machine knows no address:
every address can be bound then, and none can be reached.
-/
namespace NetKit

inductive Socket where
  /-- Takes clients, who wait in the order in which they came. -/
  | listener (bound : Endpoint) (backlog : List SocketId)
  | stream (bound far : Endpoint) (other : SocketId) (received : Bytes)
  /-- Takes datagrams, only from the fixed peer if there is one. -/
  | datagrams (bound : Endpoint) (far : Option Endpoint) (hopLimit : Nat)
      (received : List (Endpoint × Bytes))
deriving DecidableEq, Repr

namespace Socket

def bound : Socket → Endpoint
  | .listener e _ | .stream e _ _ _ | .datagrams e _ _ _ => e

def isListener : Socket → Bool
  | .listener .. => true
  | _ => false

def takesDatagrams : Socket → Bool
  | .datagrams .. => true
  | _ => false

def isReadable : Socket → Bool
  | .listener _ backlog => !backlog.isEmpty
  | .stream _ _ _ received => !received.isEmpty
  | .datagrams _ _ _ received => !received.isEmpty

end Socket

structure Machine where
  loopback : Bool := false
  sockets : List (SocketId × Socket) := []
  /-- Larger than every number in use. -/
  fresh : Nat := 3
deriving Repr

namespace Machine

def maxPayload : Nat := 65535

def defaultHopLimit : Nat := 64

/-- Ports from here on are given to sockets that ask for none. -/
def firstFreePort : Nat := 49152

def socket? (m : Machine) (id : SocketId) : Option Socket := List.lookup id m.sockets

def setSocket (m : Machine) (id : SocketId) (s : Socket) : Machine :=
  { m with sockets := m.sockets.map fun e => if e.1 == id then (id, s) else e }

def add (m : Machine) (s : Socket) : SocketId × Machine :=
  (m.fresh, { m with sockets := m.sockets ++ [(m.fresh, s)], fresh := m.fresh + 1 })

def release (id : SocketId) (m : Machine) : Machine :=
  { m with sockets := m.sockets.filter fun e => e.1 != id }

/-! ## Binding -/

def isUnspecified (ip : Ip) : Bool := ip == .v4 0 || ip == .v6 0

/-- Whether a socket bound to one endpoint takes what is sent to another. -/
def covers (bound target : Endpoint) : Bool :=
  bound.port == target.port && (bound.ip == target.ip || isUnspecified bound.ip)

def clash (a b : Endpoint) : Bool := covers a b || covers b a

/-- Whether a socket of one kind is bound to an endpoint already. -/
def taken (m : Machine) (kind : Socket → Bool) (e : Endpoint) : Bool :=
  m.sockets.any fun s => kind s.2 && clash s.2.bound e

/-- The endpoint with a port of its own. Of as many ports as there are sockets and one more, one is
free. -/
def settle (m : Machine) (kind : Socket → Bool) (e : Endpoint) : Except SystemError Endpoint :=
  if e.port ≠ 0 then if m.taken kind e then .error .addressInUse else .ok e
  else
    let candidates := (List.range (m.sockets.length + 1)).map fun i =>
      { e with port := UInt16.ofNat (firstFreePort + i) }
    match candidates.find? fun c => !m.taken kind c with
    | some c => .ok c
    | none => .error .addressInUse

def isOwn : Ip → Bool
  | .v4 ip => ip == 0 || ip.octet 0 == 127
  | .v6 ip => ip == 0 || ip == Ipv6.localhost

def place (m : Machine) (kind : Socket → Bool) (e : Endpoint) (make : Endpoint → Socket) :
    Except SystemError SocketId × Machine :=
  if m.loopback && !isOwn e.ip then (.error .addressNotAvailable, m)
  else match m.settle kind e with
    | .error e => (.error e, m)
    | .ok e =>
      let (id, m) := m.add (make e)
      (.ok id, m)

def listen (e : Endpoint) (m : Machine) : Except SystemError SocketId × Machine :=
  m.place Socket.isListener e fun e => .listener e []

def bind (e : Endpoint) (m : Machine) : Except SystemError SocketId × Machine :=
  m.place Socket.takesDatagrams e fun e => .datagrams e none defaultHopLimit []

/-! ## Streams -/

/-- A client comes to a listener; the answer is the client's end. -/
def arrive (m : Machine) (listener : SocketId) (target : Endpoint) (bound : Endpoint)
    (backlog : List SocketId) : SocketId × Machine :=
  let near : Endpoint := { target with port := UInt16.ofNat (firstFreePort + m.fresh) }
  let (client, m) := m.add (.stream near target (m.fresh + 1) [])
  let (server, m) := m.add (.stream target near client [])
  (client, m.setSocket listener (.listener bound (backlog ++ [server])))

def connect (target : Endpoint) (_ : TimeLimit) (m : Machine) :
    Except SystemError SocketId × Machine :=
  if !m.loopback then (.error .unreachable, m)
  else match m.sockets.find? fun s => s.2.isListener && covers s.2.bound target with
    | some (listener, .listener bound backlog) =>
      let (client, m) := m.arrive listener target bound backlog
      (.ok client, m)
    | _ => (.error .refused, m)

def accept (id : SocketId) (m : Machine) : Except SystemError (Option SocketId) × Machine :=
  match m.socket? id with
  | some (.listener e (client :: backlog)) =>
    (.ok (some client), m.setSocket id (.listener e backlog))
  | _ => (.ok none, m)

/-- A stream whose other end is gone has ended, and so has one on which nothing can come while its
only reader waits. -/
def receive (id : SocketId) (count : Nat) (m : Machine) : Except SystemError Bytes × Machine :=
  match m.socket? id with
  | some (.stream e far other received) =>
    (.ok (received.take count), m.setSocket id (.stream e far other (received.drop count)))
  | _ => (.error .invalid, m)

def send (id : SocketId) (bs : Bytes) (m : Machine) : Except SystemError Unit × Machine :=
  match m.socket? id with
  | some (.stream _ _ other _) =>
    match m.socket? other with
    | some (.stream e far back received) =>
      (.ok (), m.setSocket other (.stream e far back (received ++ bs)))
    | _ => (.ok (), m)
  | _ => (.error .invalid, m)

/-! ## Datagrams -/

def connectTo (id : SocketId) (target : Endpoint) (m : Machine) :
    Except SystemError Unit × Machine :=
  if !m.loopback then (.error .unreachable, m)
  else match m.socket? id with
    | some (.datagrams e _ hops received) =>
      (.ok (), m.setSocket id (.datagrams e (some target) hops received))
    | _ => (.error .invalid, m)

/-- Puts a datagram into the queue of the socket that takes it, if there is one. -/
def deliver (m : Machine) (source target : Endpoint) (bs : Bytes) : Machine :=
  let takes (s : Socket) : Bool :=
    match s with
    | .datagrams bound far _ _ => covers bound target && (far == none || far == some source)
    | _ => false
  match m.sockets.find? fun s => takes s.2 with
  | some (id, .datagrams e far hops received) =>
    m.setSocket id (.datagrams e far hops (received ++ [(source, bs)]))
  | _ => m

/-- The address that a datagram shows as its source. -/
def sourceOf (bound target : Endpoint) : Endpoint :=
  if isUnspecified bound.ip then { bound with ip := target.ip } else bound

def sendTo (id : SocketId) (bs : Bytes) (target : Endpoint) (m : Machine) :
    Except SystemError Nat × Machine :=
  if maxPayload < bs.length then (.error .messageTooLong, m)
  else if target.port = 0 then (.error .invalid, m)
  else if !m.loopback then (.error .unreachable, m)
  else match m.socket? id with
    | some (.datagrams bound _ _ _) =>
      (.ok bs.length, m.deliver (sourceOf bound target) target bs)
    | _ => (.error .invalid, m)

def receiveFrom (id : SocketId) (count : Nat) (m : Machine) :
    Except SystemError (Option (Bytes × Endpoint)) × Machine :=
  match m.socket? id with
  | some (.datagrams e far hops ((source, bs) :: received)) =>
    (.ok (some (bs.take count, source)), m.setSocket id (.datagrams e far hops received))
  | _ => (.ok none, m)

def pendingSize (id : SocketId) (m : Machine) : Option Nat :=
  match m.socket? id with
  | some (.datagrams _ _ _ ((_, bs) :: _)) => some bs.length
  | _ => none

def hopLimit (id : SocketId) (m : Machine) : Option Nat :=
  match m.socket? id with
  | some (.datagrams _ _ hops _) => some hops
  | _ => none

/-- Limits are one octet, and zero is none. -/
def setHopLimit (id : SocketId) (hops : Nat) (m : Machine) : Except SystemError Unit × Machine :=
  match m.socket? id with
  | some (.datagrams e far _ received) =>
    if hops = 0 ∨ 255 < hops then (.error .invalid, m)
    else (.ok (), m.setSocket id (.datagrams e far hops received))
  | _ => (.error .invalid, m)

/-- Groups of another family than the socket's are no option of the socket. -/
def familyOf (m : Machine) (id : SocketId) : Bool :=
  ((m.socket? id).map fun s => s.bound.ip.isIpv6).getD false

def joinGroup (id : SocketId) (group : Ip) (m : Machine) : Except SystemError Unit × Machine :=
  if group.isIpv6 && !m.familyOf id then (.error .noProtocolOption, m)
  else if !(Address.ofIp group).isMulticast then (.error .invalid, m)
  else if m.loopback then (.ok (), m) else (.error .noDevice, m)

def leaveGroup (id : SocketId) (group : Ip) (m : Machine) : Except SystemError Unit × Machine :=
  if group.isIpv6 && !m.familyOf id then (.error .noProtocolOption, m)
  else if m.loopback then (.error .addressNotAvailable, m) else (.error .noDevice, m)

/-- Host names that are addresses need no look-up; no other name is known. -/
def resolve (host : String) (port : UInt16) (_ : Machine) : Except SystemError (List Endpoint) :=
  match Literal.ipv4? host.toList, Literal.ipv6? host.toList with
  | some ip, _ => .ok [⟨.v4 ip, port⟩]
  | none, some ip => .ok [⟨.v6 ip, port⟩]
  | none, none => if '\x00' ∈ host.toList then .error .zeroInName else .error .unknownHost

/-- Only what has arrived already can be taken: nothing arrives while the machine waits. -/
def waitReadable (id : SocketId) (_ : TimeLimit) (m : Machine) :
    Except SystemError Bool × Machine :=
  (.ok (((m.socket? id).map Socket.isReadable).getD false), m)

def peerEnd (id : SocketId) (m : Machine) : Option Endpoint :=
  match m.socket? id with
  | some (.stream _ far _ _) => some far
  | some (.datagrams _ far _ _) => far
  | _ => none

instance : Network Machine where
  resolve := resolve
  localEnd id m := (m.socket? id).map Socket.bound
  peerEnd := peerEnd
  waitReadable := waitReadable
  release := release
  listen := listen
  accept := accept
  connect := connect
  receive := receive
  send := send
  bind := bind
  connectTo := connectTo
  sendTo := sendTo
  pendingSize := pendingSize
  receiveFrom := receiveFrom
  hopLimit := hopLimit
  setHopLimit := setHopLimit
  joinGroup := joinGroup
  leaveGroup := leaveGroup

end Machine
end NetKit
