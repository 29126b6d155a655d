import NetKit.Address.Class
import NetKit.Address.Subnet
import NetKit.Contract
import NetKit.Cookie
import NetKit.Datagram
import NetKit.Deadline
import NetKit.EventLoop
import NetKit.Headers
import NetKit.Instant
import NetKit.Interface
import NetKit.Report

/-!
Reports of the values that networks deal in.
-/
namespace NetKit.Report

instance : Reported Contract where
  report c :=
    .obj [("name", c.name), ("shape", c.shape.text), ("size", c.layout.size),
      ("align", c.layout.align), ("text", c.text)]

def deadlineFields (d : Deadline) : List (String × Json) :=
  [("debug", d.text), ("ms", d.deadlineMillis), ("ns", d.deadlineNanos), ("forever", d.isForever),
    ("type", d.timer)]

def instant (t : Instant) : Json :=
  .obj [("secs", t.secs), ("millis", t.millis), ("text", t.textWithZone)]

instance : Reported Trace where
  report
    | .log text => report ("log", text)
    | .exec code => report ("exec", code)
    | .execTimeout code => report ("exec_timeout", code)
    | .process count => report ("process", count)
    | .execWith code ran => .arr ["exec_with", code, ran]

def addressFields (a : Address) : List (String × Json) :=
  [("text", a.text), ("debug", a.debugText), ("null", a.isNull), ("protocol", a.protocol),
    ("ipv4", a.toIpv4?.map fun ip : Ipv4 => ip.toNat), ("ipv6", hex (octetsOf a.toIpv6)),
    ("ip", a.toIp?.map Ip.text), ("scope", a.scope), ("is", a.classNames)]

instance : Reported Address := ⟨fun a => .obj (addressFields a)⟩

instance : Reported Subnet where
  report s := .obj [("base", s.base.text), ("prefix", s.length), ("scope", s.base.scope)]

instance : Reported Headers := ⟨fun h => report (h.fields.map fun f => (f.name, f.value))⟩

/-- What there is under a name. -/
def headerValues (h : Headers) (name : Bytes) : Json :=
  .obj [("contains", h.contains name), ("value", h.value? name), ("values", h.values name),
    ("combined", h.combined name)]

def cookieFields (c : Cookie) : List (String × Json) :=
  [("name", c.name), ("value", c.value), ("domain", c.domain), ("path", c.path),
    ("secure", c.secure), ("http_only", c.httpOnly), ("same_site", c.sameSite),
    ("expires", c.expiration), ("session", c.isSession), ("raw", c.raw .nameAndValueOnly),
    ("full", c.raw .full)]

instance : Reported Cookie := ⟨fun c => .obj (cookieFields c)⟩

/-- The null address is not told. -/
def addressText? (a : Address) : Option String := if a.isNull then none else some a.text

def datagramFields (d : Datagram) : List (String × Json) :=
  [("data", d.data), ("valid", d.isValid), ("null", d.isNull), ("sender", addressText? d.sender),
    ("sender_port", d.senderPort), ("destination", addressText? d.destination),
    ("destination_port", d.destinationPort), ("hop_limit", d.hopLimit), ("interface", d.interface)]

instance : Reported Datagram := ⟨fun d => .obj (datagramFields d)⟩

/-- There is no report of an entry without a netmask. -/
def entry? (e : AddressEntry) : Option Json :=
  e.netmask?.map fun mask =>
    .obj [("ip", e.ip.text), ("netmask", mask.text), ("broadcast", e.broadcast.text),
      ("prefix", e.lengthCode), ("permanent", e.isPermanent),
      ("lifetime_known", e.isLifetimeKnown)]

instance : Reported Interface where
  report i :=
    .obj [("valid", i.isValid), ("index", i.index), ("name", i.name), ("human", i.humanName),
      ("flags", i.flags.text), ("hardware", i.hardware), ("type", i.type), ("mtu", i.mtu),
      ("entries", i.entries.length), ("debug", i.text)]

end NetKit.Report
