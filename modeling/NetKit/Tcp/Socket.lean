import NetKit.Network

/-!
Sockets for streams: connected to a peer, or about to be.
-/
namespace NetKit
namespace TcpSocket

/-- Why a socket for streams fails. -/
inductive Error where
  | notConnected
  | noHost
  | hostNotFound
  | timedOut
  | invalidDescriptor
  | system (e : SystemError)
deriving DecidableEq, Repr

def Error.message : Error → String
  | .notConnected => "The socket is not connected"
  | .noHost => "No host to connect to"
  | .hostNotFound => "Host not found"
  | .timedOut => "Socket operation timed out"
  | .invalidDescriptor => "Invalid socket descriptor"
  | .system e => e.message

inductive Remark where
  | failed (e : Error)
  | connected (target : Endpoint)
deriving DecidableEq, Repr

end TcpSocket

structure TcpSocket where
  stream : Option SocketId := none
  /-- Where the next attempt to connect goes. -/
  targets : List Endpoint := []
  /-- The last failure; none when nothing failed yet. -/
  error : Option TcpSocket.Error := none
deriving DecidableEq, Repr

namespace TcpSocket

/-- What an operation answers, and what became of the socket and the system. -/
structure Result (σ α : Type) where
  answer : Except Error α
  socket : TcpSocket
  system : σ
  remarks : List Remark := []

variable {σ : Type}

def errorText (t : TcpSocket) : String := (t.error.map Error.message).getD "Unknown error"

def isConnected (t : TcpSocket) : Bool := t.stream.isSome

def fail {α : Type} (t : TcpSocket) (e : Error) (s : σ) : Result σ α :=
  ⟨.error e, { t with error := some e }, s, [.failed e]⟩

/-- Takes over a descriptor that is connected already. -/
def adopt (t : TcpSocket) (descriptor : Int) (s : σ) : Result σ Unit :=
  if descriptor < 0 then t.fail .invalidDescriptor s
  else ⟨.ok (), { t with stream := some descriptor.toNat }, s, []⟩

variable [Network σ]

/-- Finds out where to connect to; the connection itself is made by waiting for it. -/
def connectToHost (t : TcpSocket) (host : String) (port : UInt16) (s : σ) : Result σ Unit :=
  match Network.resolve host port s with
  | .error e => t.fail (.system e) s
  | .ok [] => { t with targets := [] }.fail .hostNotFound s
  | .ok targets => ⟨.ok (), { t with targets }, s, []⟩

/-- Tries one target after the other; the failure of the last one counts. -/
def attempt (time : TimeLimit) : List Endpoint → Error → σ →
    Except Error (SocketId × Endpoint) × σ
  | [], e, s => (.error e, s)
  | target :: rest, _, s =>
    match Network.connect target time s with
    | (.ok id, s) => (.ok (id, target), s)
    | (.error e, s) => attempt time rest (.system e) s

/-- Connects to one of the targets, which are used up by that. -/
def waitConnected (t : TcpSocket) (time : TimeLimit) (s : σ) : Result σ Unit :=
  if t.isConnected then ⟨.ok (), t, s, []⟩
  else
    let (r, s) := attempt time t.targets .noHost s
    let t := { t with targets := [] }
    match r with
    | .error e => t.fail e s
    | .ok (id, target) => ⟨.ok (), { t with stream := some id }, s, [.connected target]⟩

def waitReadable (t : TcpSocket) (time : TimeLimit) (s : σ) : Result σ Unit :=
  match t.stream with
  | none => t.fail .notConnected s
  | some id =>
    match Network.waitReadable id time s with
    | (.error e, s) => t.fail (.system e) s
    | (.ok false, s) => t.fail .timedOut s
    | (.ok true, s) => ⟨.ok (), t, s, []⟩

/-- Some octets, at most as many as asked for; none when the peer has closed. -/
def read (t : TcpSocket) (count : Nat) (s : σ) : Result σ Bytes :=
  match t.stream with
  | none => t.fail .notConnected s
  | some id =>
    match Network.receive id count s with
    | (.error e, s) => t.fail (.system e) s
    | (.ok bs, s) => ⟨.ok bs, t, s, []⟩

/-- Reads until `missing` octets have come or the peer has closed. -/
def gather : Nat → Nat → TcpSocket → σ → Result σ Bytes
  | 0, _, t, s => ⟨.ok [], t, s, []⟩
  | _, 0, t, s => ⟨.ok [], t, s, []⟩
  | fuel + 1, missing, t, s =>
    let r := t.read missing s
    match r.answer with
    | .error _ | .ok [] => r
    | .ok bs =>
      let more := gather fuel (missing - bs.length) r.socket r.system
      { more with
        answer := more.answer.map (bs ++ ·)
        remarks := r.remarks ++ more.remarks }

/-- Exactly so many octets; none in the answer when the peer closes before they have come. -/
def readExact (t : TcpSocket) (count : Nat) (s : σ) : Result σ (Option Bytes) :=
  let r := gather count count t s
  { r with answer := r.answer.map fun bs => if bs.length = count then some bs else none }

def write (t : TcpSocket) (bs : Bytes) (s : σ) : Result σ Nat :=
  match t.stream with
  | none => t.fail .notConnected s
  | some id =>
    match Network.send id bs s with
    | (.error e, s) => t.fail (.system e) s
    | (.ok (), s) => ⟨.ok bs.length, t, s, []⟩

def close (t : TcpSocket) (s : σ) : TcpSocket × σ :=
  ({ t with stream := none, targets := [] },
    (t.stream.map fun id => Network.release id s).getD s)

def localEnd (t : TcpSocket) (s : σ) : Option Endpoint :=
  t.stream.bind fun id => Network.localEnd id s

def peerEnd (t : TcpSocket) (s : σ) : Option Endpoint :=
  t.stream.bind fun id => Network.peerEnd id s

end TcpSocket
end NetKit
