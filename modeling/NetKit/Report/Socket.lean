import NetKit.Report.Values
import NetKit.Tcp.Server
import NetKit.Tcp.Socket
import NetKit.Udp

/-!
Reports of servers and sockets.
-/
namespace NetKit.Report
variable {σ : Type} [Network σ]

/-- A descriptor, which is valid unless it is negative. -/
def descriptor (fd : Int) : Json :=
  .obj [("valid", decide (0 ≤ fd)), ("fd", some fd |>.filter (0 ≤ ·)),
    ("debug", s!"SocketDescriptor \x7b fd: {fd} \x7d"), ("default", fd == -1)]

/-- One end of a connection, with whether it has a port. -/
def endFields (side : String) (e : Option Endpoint) : List (String × Json) :=
  [(side, (Endpoint.address e).text), ("has_" ++ side ++ "_port", Endpoint.portNumber e != 0)]

def server (t : TcpServer) (s : σ) : Json :=
  let near := t.localEnd s
  .obj [("listening", t.isListening), ("address", (Endpoint.address near).text),
    ("has_port", Endpoint.portNumber near != 0), ("descriptor", t.isListening),
    ("max", t.maxPending), ("error", t.errorText)]

def stream (t : TcpSocket) (s : σ) : Json :=
  .obj ([("connected", report t.isConnected), ("descriptor", t.isConnected),
    ("error", t.errorText)] ++ endFields "local" (t.localEnd s) ++ endFields "peer" (t.peerEnd s))

def datagramSocketFields (u : UdpSocket) (s : σ) : List (String × Json) :=
  [("bound", report u.isBound), ("descriptor", u.isBound), ("peer", (Endpoint.address u.peer).text),
    ("peer_port", Endpoint.portNumber u.peer), ("pending", u.hasPending s),
    ("size", u.pendingSize s), ("error", u.errorText)] ++ endFields "local" (u.localEnd s)

end NetKit.Report
