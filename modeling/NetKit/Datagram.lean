import NetKit.Address.Class
import NetKit.Text.Utf8

/-!
Datagrams: a payload with the addresses and ports between which it travels.
-/
namespace NetKit

structure Datagram where
  data : Bytes := []
  sender : Address := .null
  senderPort : Option UInt16 := none
  destination : Address := .null
  destinationPort : Option UInt16 := none
  /-- None for the system's own limit. -/
  hopLimit : Option Nat := none
  /-- None for no particular interface. -/
  interface : Option Nat := none
deriving DecidableEq, Repr, Inhabited

namespace Datagram

def ofData (data : Bytes) : Datagram := { data }

def addressed (data : Bytes) (destination : Address) (port : UInt16) : Datagram :=
  { data, destination, destinationPort := some port }

/-- Has an address at either end. -/
def isValid (d : Datagram) : Bool := !d.sender.isNull || !d.destination.isNull

def isNull (d : Datagram) : Bool := !d.isValid

def setData (d : Datagram) (data : Bytes) : Datagram := { d with data }

def setSender (d : Datagram) (a : Address) (port : UInt16) : Datagram :=
  { d with sender := a, senderPort := some port }

def setDestination (d : Datagram) (a : Address) (port : UInt16) : Datagram :=
  { d with destination := a, destinationPort := some port }

/-- Negative limits ask for the system's own. -/
def setHopLimit (d : Datagram) (n : Option Int) : Datagram :=
  { d with hopLimit := n.bind fun n => if n < 0 then none else some n.toNat }

/-- Index zero is no interface. -/
def setInterface (d : Datagram) (n : Option Nat) : Datagram :=
  { d with interface := n.filter (· != 0) }

/-- A datagram back to the sender. Its own sender is where the first one went, unless that names
more than one host. -/
def reply (d : Datagram) (data : Bytes) : Datagram where
  data := data
  sender := if d.destination.isNonUnicast then .null else d.destination
  senderPort := d.destinationPort
  destination := d.sender
  destinationPort := d.senderPort
  hopLimit := none
  interface := d.interface

inductive Edit where
  | clear
  | setData (data : Bytes)
  | setSender (a : Address) (port : UInt16)
  | setDestination (a : Address) (port : UInt16)
  | setHopLimit (n : Option Int)
  | setInterface (n : Option Nat)
deriving DecidableEq, Repr

instance : Editable Datagram Edit where
  change?
    | .clear, _ => some {}
    | .setData data, d => some (d.setData data)
    | .setSender a port, d => some (d.setSender a port)
    | .setDestination a port, d => some (d.setDestination a port)
    | .setHopLimit n, d => some (d.setHopLimit n)
    | .setInterface n, d => some (d.setInterface n)

def addressText (a : Address) : String :=
  if a.isNull then "None" else s!"Some({a.debugText})"

def portText : Option UInt16 → String
  | none => "None"
  | some p => s!"Some({p.toNat})"

def text (d : Datagram) : String :=
  s!"NetworkDatagram \x7b len: {d.data.length}, sender: {addressText d.sender}, " ++
    s!"sender_port: {portText d.senderPort}, destination: {addressText d.destination}, " ++
    s!"destination_port: {portText d.destinationPort}, .. \x7d"

end Datagram
end NetKit
