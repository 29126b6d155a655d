import NetKit.Network

/-!
Servers: listening sockets with a queue of clients that were accepted and not yet picked up. Clients
for whom the queue has no room wait in the system.
-/
namespace NetKit
namespace TcpServer

/-- Why a server fails. -/
inductive Error where
  | alreadyListening
  | notListening
  | tooManyPending
  | system (e : SystemError)
deriving DecidableEq, Repr

def Error.message : Error → String
  | .alreadyListening => "The server is already listening"
  | .notListening => "The server is not listening"
  | .tooManyPending => "Too many pending connections"
  | .system e => e.message

/-- What a server has to say about its work. -/
inductive Remark where
  | failed (e : Error)
  | listening (at? : Option Endpoint)
  | accepted (peer : Option Endpoint)
  | full (limit : Nat)
deriving DecidableEq, Repr

end TcpServer

structure TcpServer where
  listener : Option SocketId := none
  /-- Clients that were accepted and not yet picked up, in order. -/
  pending : List SocketId := []
  maxPending : Int := 30
  /-- The last failure. -/
  error : Option TcpServer.Error := none
deriving DecidableEq, Repr

namespace TcpServer

/-- What an operation answers, and what became of the server and the system. -/
structure Result (σ α : Type) where
  answer : α
  server : TcpServer
  system : σ
  remarks : List Remark := []

/-- Why no more clients are accepted. -/
inductive Stop where
  | noRoom
  | noClient
  | failed (e : SystemError)
deriving DecidableEq, Repr

variable {σ : Type}

def errorText (t : TcpServer) : String := (t.error.map Error.message).getD ""

/-- How many clients may be pending; negative limits count as zero. -/
def limit (t : TcpServer) : Nat := t.maxPending.toNat

def isListening (t : TcpServer) : Bool := t.listener.isSome

def fail {α : Type} (t : TcpServer) (e : Error) (answer : α) (s : σ)
    (remarks : List Remark := []) : Result σ α :=
  ⟨answer, { t with error := some e }, s, remarks ++ [.failed e]⟩

variable [Network σ]

def listen (t : TcpServer) (a : Address) (port : UInt16) (s : σ) : Result σ Bool :=
  if t.isListening then t.fail .alreadyListening false s
  else match Network.listen (Endpoint.ofBinding a port) s with
    | (.error e, s) => t.fail (.system e) false s
    | (.ok id, s) => ⟨true, { t with listener := some id }, s, [.listening (Network.localEnd id s)]⟩

/-- Stops listening, and drops the clients that nobody picked up. -/
def close (t : TcpServer) (s : σ) : TcpServer × σ :=
  ({ t with listener := none, pending := [] },
    (t.listener.toList ++ t.pending).foldl (fun s id => Network.release id s) s)

/-- Accepts clients while there is room for them. -/
def acceptUpTo (listener : SocketId) : Nat → σ → List SocketId × Stop × σ
  | 0, s => ([], .noRoom, s)
  | room + 1, s =>
    match Network.accept listener s with
    | (.error e, s) => ([], .failed e, s)
    | (.ok none, s) => ([], .noClient, s)
    | (.ok (some id), s) =>
      let (ids, stop, s) := acceptUpTo listener room s
      (id :: ids, stop, s)

/-- Moves clients that wait in the system into the queue; the answer is whether that went well. -/
def acceptReady (t : TcpServer) (s : σ) : Result σ Bool :=
  match t.listener with
  | none => ⟨true, t, s, []⟩
  | some id =>
    let (ids, stop, s) := acceptUpTo id (t.limit - t.pending.length) s
    let t := { t with pending := t.pending ++ ids }
    let accepted := ids.map fun id => Remark.accepted (Network.peerEnd id s)
    match stop with
    | .noRoom => ⟨true, t, s, accepted ++ [.full t.limit]⟩
    | .noClient => ⟨true, t, s, accepted⟩
    | .failed e => t.fail (.system e) false s accepted

def hasPending (t : TcpServer) (s : σ) : Result σ Bool :=
  let r := t.acceptReady s
  { r with answer := !r.server.pending.isEmpty }

/-- How a wait for a client ends. -/
inductive Wait where
  | ready
  | timedOut
  | failed
deriving DecidableEq, Repr

/-- Waits until a client is pending. A full queue is a failure, and not a reason to wait. -/
def wait (t : TcpServer) (time : TimeLimit) (s : σ) : Result σ Wait :=
  let first := t.acceptReady s
  let t := first.server
  let s := first.system
  if !first.answer then { first with answer := .failed }
  else if !t.pending.isEmpty then { first with answer := .ready }
  else match t.listener with
    | none => t.fail .notListening .failed s first.remarks
    | some id =>
      if t.limit ≤ t.pending.length then t.fail .tooManyPending .failed s first.remarks
      else match Network.waitReadable id time s with
        | (.error e, s) => t.fail (.system e) .failed s first.remarks
        | (.ok false, s) => ⟨.timedOut, t, s, first.remarks⟩
        | (.ok true, s) =>
          let again := t.acceptReady s
          { again with
            answer := if again.answer && !again.server.pending.isEmpty then .ready else .failed
            remarks := first.remarks ++ again.remarks }

/-- The client that was accepted first. -/
def next? (t : TcpServer) : Option (SocketId × TcpServer) :=
  match t.pending with
  | [] => none
  | id :: rest => some (id, { t with pending := rest })

def localEnd (t : TcpServer) (s : σ) : Option Endpoint :=
  t.listener.bind fun id => Network.localEnd id s

end TcpServer
end NetKit
