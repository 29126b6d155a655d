import NetKit.Datagram
import NetKit.Network

/-!
Sockets for datagrams. A socket that is not bound is bound to a free port by the first thing it
sends.
-/
namespace NetKit
namespace UdpSocket

/-- Why a socket for datagrams fails. -/
inductive Error where
  | alreadyBound
  | notBound
  | hostNotFound
  | noDatagram
  | timedOut
  | noDestination
  | invalidDestination
  | invalidGroup
  | system (e : SystemError)
deriving DecidableEq, Repr

def Error.message : Error → String
  | .alreadyBound => "The socket is already bound"
  | .notBound => "The socket is not bound"
  | .hostNotFound => "Host not found"
  | .noDatagram => "No datagram available"
  | .timedOut => "Socket operation timed out"
  | .noDestination => "The datagram has no destination"
  | .invalidDestination => "Invalid destination address"
  | .invalidGroup => "Invalid multicast group"
  | .system e => e.message

inductive Remark where
  | failed (e : Error)
  | bound (at? : Option Endpoint)
  | connected (target : Endpoint)
  | hopLimitRefused (e : SystemError) (hops : Nat)
deriving DecidableEq, Repr

end UdpSocket

structure UdpSocket where
  socket : Option SocketId := none
  /-- Where datagrams without a destination go, and the only sender that is heard. -/
  peer : Option Endpoint := none
  /-- The last failure; none when nothing failed yet. -/
  error : Option UdpSocket.Error := none
deriving DecidableEq, Repr

namespace UdpSocket

/-- What an operation answers, and what became of the socket and the system. -/
structure Result (σ α : Type) where
  answer : Except Error α
  socket : UdpSocket
  system : σ
  remarks : List Remark := []

/-- The largest payload of a datagram. -/
def maxPayload : Nat := 65535

variable {σ : Type}

def errorText (u : UdpSocket) : String := (u.error.map Error.message).getD "Unknown error"

def isBound (u : UdpSocket) : Bool := u.socket.isSome

def fail {α : Type} (u : UdpSocket) (e : Error) (s : σ) (remarks : List Remark := []) :
    Result σ α :=
  ⟨.error e, { u with error := some e }, s, remarks ++ [.failed e]⟩

variable [Network σ]

def localEnd (u : UdpSocket) (s : σ) : Option Endpoint :=
  u.socket.bind fun id => Network.localEnd id s

def bindTo (u : UdpSocket) (e : Endpoint) (s : σ) : Result σ SocketId :=
  match Network.bind e s with
  | (.error e, s) => u.fail (.system e) s
  | (.ok id, s) => ⟨.ok id, { u with socket := some id }, s, [.bound (Network.localEnd id s)]⟩

def bind (u : UdpSocket) (a : Address) (port : UInt16) (s : σ) : Result σ Unit :=
  if u.isBound then u.fail .alreadyBound s
  else
    let r := u.bindTo (Endpoint.ofBinding a port) s
    { r with answer := r.answer.map fun _ => () }

/-- The system's socket, bound to a free port first if there is none. -/
def ensureBound (u : UdpSocket) (target : Endpoint) (s : σ) : Result σ SocketId :=
  match u.socket with
  | some id => ⟨.ok id, u, s, []⟩
  | none => u.bindTo ⟨Ip.unspecified target.ip.isIpv6, 0⟩ s

/-- The target in the address family of the socket. -/
def routable (id : SocketId) (target : Endpoint) (s : σ) : Endpoint :=
  match Network.localEnd id s with
  | some e => if e.ip.isIpv6 then target.mapped else target
  | none => target

def connectToHost (u : UdpSocket) (host : String) (port : UInt16) (s : σ) : Result σ Unit :=
  match Network.resolve host port s with
  | .error e => u.fail (.system e) s
  | .ok [] => u.fail .hostNotFound s
  | .ok (target :: _) =>
    let r := u.ensureBound target s
    match r.answer with
    | .error e => { r with answer := .error e }
    | .ok id =>
      let target := routable id target r.system
      match Network.connectTo id target r.system with
      | (.error e, s) => r.socket.fail (.system e) s r.remarks
      | (.ok (), s) =>
        ⟨.ok (), { r.socket with peer := some target }, s, r.remarks ++ [.connected target]⟩

/-! ## Receiving -/

def pendingSize (u : UdpSocket) (s : σ) : Option Nat :=
  u.socket.bind fun id => Network.pendingSize id s

/-- Whether something can be read now. -/
def hasPending (u : UdpSocket) (s : σ) : Bool :=
  match u.socket with
  | none => false
  | some id => (Network.waitReadable id (some 0) s).1.toOption.getD false

def waitReadable (u : UdpSocket) (time : TimeLimit) (s : σ) : Result σ Unit :=
  match u.socket with
  | none => u.fail .notBound s
  | some id =>
    match Network.waitReadable id time s with
    | (.error e, s) => u.fail (.system e) s
    | (.ok false, s) => u.fail .timedOut s
    | (.ok true, s) => ⟨.ok (), u, s, []⟩

/-- The next datagram and its sender. What is longer than `count` is cut off and lost. -/
def read (u : UdpSocket) (count : Nat) (s : σ) : Result σ (Bytes × Endpoint) :=
  match u.socket with
  | none => u.fail .notBound s
  | some id =>
    match Network.receiveFrom id count s with
    | (.error e, s) => u.fail (.system e) s
    | (.ok none, s) => u.fail .noDatagram s
    | (.ok (some (bs, sender)), s) => ⟨.ok (bs, sender.canonical), u, s, []⟩

/-- The next datagram with its addresses; it went to where the socket is bound. -/
def receive (u : UdpSocket) (count : Option Nat) (s : σ) : Result σ Datagram :=
  let r := u.read (min (count.getD maxPayload) maxPayload) s
  let near := (u.localEnd r.system).map Endpoint.canonical
  { r with
    answer := r.answer.map fun (data, sender) =>
      { data
        sender := Address.ofIp sender.ip
        senderPort := some sender.port
        destination := Endpoint.address near
        destinationPort := near.map (·.port) } }

/-! ## Sending -/

/-- Sends with a hop limit of its own and gives the system's limit back afterwards. -/
def sendLimited (id : SocketId) (bs : Bytes) (target : Endpoint) (hops : Option Nat) (s : σ) :
    Except SystemError Nat × σ × List Remark :=
  match if target.ip.isIpv6 then none else hops with
  | none =>
    let (r, s) := Network.sendTo id bs target s
    (r, s, [])
  | some hops =>
    let before := Network.hopLimit id s
    let (set, s) := Network.setHopLimit id hops s
    let remarks := match set with
      | .error e => [Remark.hopLimitRefused e hops]
      | .ok () => []
    let (r, s) := Network.sendTo id bs target s
    match before with
    | none => (r, s, remarks)
    | some h => (r, (Network.setHopLimit id h s).2, remarks)

/-- Sends to a target, or to the peer when there is none. -/
def send (u : UdpSocket) (bs : Bytes) (target : Option Endpoint) (hops : Option Nat) (s : σ) :
    Result σ Nat :=
  match target.orElse fun _ => u.peer with
  | none => u.fail .noDestination s
  | some target =>
    let r := u.ensureBound target s
    match r.answer with
    | .error e => { r with answer := .error e }
    | .ok id =>
      let target := routable id target r.system
      let (sent, s, remarks) := sendLimited id bs target hops r.system
      let remarks := r.remarks ++ remarks
      match sent with
      | .error e => r.socket.fail (.system e) s remarks
      | .ok n => ⟨.ok n, r.socket, s, remarks⟩

/-- Sends to the peer. -/
def write (u : UdpSocket) (bs : Bytes) (s : σ) : Result σ Nat := u.send bs none none s

def writeTo (u : UdpSocket) (bs : Bytes) (a : Address) (port : UInt16) (s : σ) : Result σ Nat :=
  match Endpoint.ofAddress? a port with
  | none => u.fail .invalidDestination s
  | some target => u.send bs (some target) none s

/-- Sends a datagram to its destination, or to the peer when it has none. -/
def sendDatagram (u : UdpSocket) (d : Datagram) (s : σ) : Result σ Nat :=
  let target := d.destinationPort.bind (Endpoint.ofAddress? d.destination)
  u.send d.data target d.hopLimit s

/-! ## Groups -/

def withGroup (u : UdpSocket) (a : Address) (s : σ)
    (change : SocketId → Ip → σ → Except SystemError Unit × σ) : Result σ Unit :=
  match Endpoint.ofAddress? a 0 with
  | none => u.fail .invalidGroup s
  | some group =>
    match u.socket with
    | none => u.fail .notBound s
    | some id =>
      match change id group.ip s with
      | (.error e, s) => u.fail (.system e) s
      | (.ok (), s) => ⟨.ok (), u, s, []⟩

def join (u : UdpSocket) (a : Address) (s : σ) : Result σ Unit :=
  u.withGroup a s Network.joinGroup

def leave (u : UdpSocket) (a : Address) (s : σ) : Result σ Unit :=
  u.withGroup a s Network.leaveGroup

def close (u : UdpSocket) (s : σ) : UdpSocket × σ :=
  ({ u with socket := none, peer := none },
    (u.socket.map fun id => Network.release id s).getD s)

end UdpSocket
end NetKit
