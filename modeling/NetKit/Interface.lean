import NetKit.Flags
import NetKit.Interface.AddressEntry
import NetKit.Text.Quoted

/-!
Network interfaces, and looking them up among those of a machine.
-/
namespace NetKit

inductive InterfaceType where
  | unknown
  | loopback
  | virtual
  | ethernet
  | slip
  | canBus
  | ppp
  | fddi
  | wifi
  | phonet
  | ieee802154
  | sixLoWpan
  | ieee80216
  | ieee1394
deriving DecidableEq, Repr, Inhabited

instance : Coded InterfaceType where
  kind := "InterfaceType"
  all := [.unknown, .loopback, .virtual, .ethernet, .slip, .canBus, .ppp, .fddi, .wifi, .phonet,
    .ieee802154, .sixLoWpan, .ieee80216, .ieee1394]
  code
    | .unknown => 0
    | .loopback => 1
    | .virtual => 2
    | .ethernet => 3
    | .slip => 4
    | .canBus => 5
    | .ppp => 6
    | .fddi => 7
    | .wifi => 8
    | .phonet => 9
    | .ieee802154 => 10
    | .sixLoWpan => 11
    | .ieee80216 => 12
    | .ieee1394 => 13
  name
    | .unknown => "Unknown"
    | .loopback => "Loopback"
    | .virtual => "Virtual"
    | .ethernet => "Ethernet"
    | .slip => "Slip"
    | .canBus => "CanBus"
    | .ppp => "Ppp"
    | .fddi => "Fddi"
    | .wifi => "Wifi"
    | .phonet => "Phonet"
    | .ieee802154 => "Ieee802154"
    | .sixLoWpan => "SixLoWPAN"
    | .ieee80216 => "Ieee80216"
    | .ieee1394 => "Ieee1394"

def interfaceFlagNames : FlagNames := [
  ("IS_UP", 0x1), ("IS_RUNNING", 0x2), ("CAN_BROADCAST", 0x4), ("IS_LOOP_BACK", 0x8),
  ("IS_POINT_TO_POINT", 0x10), ("CAN_MULTICAST", 0x20)]

abbrev InterfaceFlags := Flags interfaceFlagNames

structure Interface where
  index : Int := 0
  name : String := ""
  flags : InterfaceFlags := ⟨0⟩
  hardware : String := ""
  type : InterfaceType := .unknown
  mtu : Int := 0
  entries : List AddressEntry := []
deriving DecidableEq, Repr, Inhabited

namespace Interface

def isValid (i : Interface) : Bool := !i.name.isEmpty

/-- Interfaces have no separate display name. -/
def humanName (i : Interface) : String := i.name

def text (i : Interface) : String :=
  s!"NetworkInterface \x7b index: {i.index}, name: {Text.quoted i.name}, " ++
    s!"flags: {i.flags.text}, type: {Coded.name i.type}, .. \x7d"

/-- The interfaces of a machine. -/
abbrev Listing := List Interface

def byName? (l : Listing) (name : String) : Option Interface := l.find? fun i => i.name == name

def byIndex? (l : Listing) (index : Int) : Option Interface :=
  l.find? fun i => decide (0 < index) && i.index == index

/-- Zero when no interface has the name. -/
def indexOf (l : Listing) (name : String) : Int := ((byName? l name).map (·.index)).getD 0

/-- Empty when no interface has the index; only positive numbers are indexes. -/
def nameOf? (l : Listing) (index : Int) : Option String :=
  if 0 < index then some (((byIndex? l index).map (·.name)).getD "") else none

end Interface
end NetKit
