import NetKit.Log.Note
import NetKit.Tcp.Server
import NetKit.Tcp.Socket
import NetKit.Udp

/-!
What servers and sockets note about their work.
-/
namespace NetKit.Journal
open Log (Note)

def boundText : Option Endpoint → String
  | none => "None"
  | some e => "Some(" ++ e.text ++ ")"

def streamNote (level : Log.Level) (message : String) (fields : List (String × String)) : Note :=
  ⟨level, "bridge_native::socket", message, fields⟩

def serverRemark : TcpServer.Remark → Note
  | .failed e => streamNote .warn "TCP server error" [("error", e.message)]
  | .listening e => streamNote .debug "TCP server listening" [("addr", boundText e)]
  | .accepted e =>
    streamNote .debug "Accepted connection" [("peer", (e.map Endpoint.text).getD "")]
  | .full limit =>
    streamNote .debug "Pending connection limit reached" [("limit", toString limit)]

def streamRemark : TcpSocket.Remark → Note
  | .failed e => streamNote .debug "TCP socket error" [("error", e.message)]
  | .connected target => streamNote .debug "Connected" [("target", target.text)]

def datagramNote (level : Log.Level) (message : String) (fields : List (String × String)) : Note :=
  ⟨level, "bridge_native::udp", message, fields⟩

def datagramRemark : UdpSocket.Remark → Note
  | .failed e => datagramNote .debug "UDP socket error" [("error", e.message)]
  | .bound e => datagramNote .debug "UDP socket bound" [("addr", boundText e)]
  | .connected target => datagramNote .debug "UDP socket connected" [("target", target.text)]
  | .hopLimitRefused e hops =>
    datagramNote .warn "Could not apply hop limit"
      [("error", e.message), ("hop_limit", toString hops)]

def closingStream (port : Nat) : Note :=
  ⟨.debug, "core_io::net::socket", "Closing TCP socket", [("peer_port", toString port)]⟩

def closingDatagrams (port : Nat) : Note :=
  ⟨.debug, "core_io::net::udp", "Closing UDP socket", [("local_port", toString port)]⟩

end NetKit.Journal
