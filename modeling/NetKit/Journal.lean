import NetKit.Address.Subnet
import NetKit.Certificate
import NetKit.Cookie
import NetKit.EventLoop
import NetKit.Failure
import NetKit.Headers
import NetKit.Log.Note
import NetKit.Text.Quoted

/-!
Operations with the notes they make. Each is the plain operation, and says what was refused or
found on the way.
-/
namespace NetKit.Journal
open Log (Note)

/-! ## Addresses -/

def refusedAddress (text : String) : Note where
  level := .debug
  target := "bridge_native::hostaddress"
  message := "Rejected host address"
  fields := [("input", String.ofList (Text.trim text.toList))]

def address (text : String) : Noted Address :=
  match Address.parse? text with
  | some a => pure a
  | none => do
    Noted.note (refusedAddress text)
    return Address.null

/-- The address that a text denotes, for callers that need one. -/
def address? (text : String) : Noted (Option Address) := do
  let a ← address text
  if a.isNull then
    Noted.note ⟨.debug, "core_io::net::hostaddress", "Not a host address", [("input", text)]⟩
    return none
  return some a

/-- The address that a text denotes, or why there is none. -/
def readAddress (text : String) : Noted (Except Failure Address) := do
  match ← address? text with
  | some a => return .ok a
  | none => return .error (.invalidArgument (Text.quoted text ++ " is not a host address"))

def addressEdit : Address.Edit → Noted Unit
  | .set text => do discard (address text)
  | _ => pure ()

def subnet? (text : String) : Noted (Option Subnet) := do
  discard (address (String.ofList (Subnet.baseText text)))
  match Subnet.parse? text with
  | some s => return some s
  | none =>
    Noted.note ⟨.debug, "bridge_native::hostaddress", "Rejected subnet", [("input", text)]⟩
    return none

/-! ## Headers -/

def refusedField (name : Bytes) : Note where
  level := .warn
  target := "bridge_native::headers"
  message := "Rejected invalid HTTP header"
  fields := [("name", Utf8.decodeLossy name)]

def headersEdit (e : Headers.Edit) (h : Headers) : Noted Unit :=
  match e.refusedName? h with
  | some name => Noted.note (refusedField name)
  | none => pure ()

def headersOfFields (fs : List Field) : Noted Headers := do
  for f in fs do
    if f.checked?.isNone then Noted.note (refusedField f.name)
  return Headers.ofFields fs

/-! ## Cookies -/

def cookies (nowNanos : Int) (input : Bytes) : Noted (List Cookie) := do
  match Cookie.parseAll nowNanos input with
  | .ok cs => Noted.note ⟨.debug, "bridge_native::cookie", "Parsed cookies", [("count", toString cs.length)]⟩
  | .error e =>
    Noted.note ⟨.warn, "bridge_native::cookie", "Rejected Set-Cookie line", [("error", e.message)]⟩
  let cs := Cookie.parse nowNanos input
  Noted.note
    ⟨.debug, "core_io::net::cookie", "Parsed Set-Cookie input", [("count", toString cs.length)]⟩
  return cs

def cookieEdit : Cookie.Edit → Noted Unit
  | .normalize url =>
    match Url.parse url with
    | .ok _ => pure ()
    | .error e =>
      Noted.note ⟨.warn, "bridge_native::cookie", "Cannot normalize cookie against invalid URL",
        [("url", url), ("error", e.message)]⟩
  | _ => pure ()

/-! ## Event loops -/

def remark : EventLoop.Remark → Note
  | .alreadyRunning => ⟨.warn, "bridge_native::eventloop", "Event loop is already running", []⟩
  | .dispatched => ⟨.trace, "bridge_native::eventloop", "Dispatching posted event", []⟩
  | .dispatchedOnce => ⟨.trace, "bridge_native::eventloop", "Dispatching one-shot event", []⟩
  | .timedOut millis =>
    ⟨.debug, "bridge_native::eventloop", "Event loop timed out", [("timeout_ms", toString millis)]⟩
  | .closureNotRun code =>
    ⟨.debug, "core_io::eventloop", "Event loop did not run the scoped closure",
      [("code", toString code)]⟩

/-- Runs a program on a new loop. -/
def program (p : Program) : Option (Noted EventLoop) :=
  (EventLoop.run {} p).map fun l => ⟨l, l.remarks.map remark⟩

/-! ## Keys and certificates -/

def keyNote (encoded : Bytes) (algorithm : KeyAlgorithm) (format : EncodingFormat)
    (type : KeyType) : Note :=
  let target := "bridge_native::ssl::key"
  match Key.read encoded algorithm format type with
  | .ok key =>
    ⟨.debug, target, "Parsed key",
      [("algorithm", Coded.name key.algorithm), ("length", toString key.length)]⟩
  | .error f => ⟨.warn, target, "Rejected key", [("error", f.message)]⟩

def key (encoded : Bytes) (algorithm : KeyAlgorithm) (format : EncodingFormat) (type : KeyType) :
    Noted Key := do
  Noted.note (keyNote encoded algorithm format type)
  return Key.ofData encoded algorithm format type

/-- The key that some octets are, for callers that need one. -/
def key? (encoded : Bytes) (algorithm : KeyAlgorithm) (format : EncodingFormat) (type : KeyType) :
    Noted (Option Key) := do
  let k ← key encoded algorithm format type
  if k.isNull then
    Noted.note ⟨.debug, "core_io::ssl::key", "No key in input",
      [("algorithm", Coded.name algorithm), ("key_type", Coded.name type)]⟩
    return none
  return some k

def certificateRemark : Certificate.Remark → Note
  | .duplicateNames =>
    ⟨.warn, "bridge_native::ssl::certificate", "Ignoring malformed subjectAltName",
      [("error", "duplicate extensions")]⟩
  | .unknownKey f =>
    ⟨.debug, "bridge_native::ssl::certificate", "Certificate public key not recognised",
      [("error", f.message)]⟩

def certificateEvent : Certificate.Event → List Note
  | .loaded _ remarks => remarks.map certificateRemark
  | .skippedBlock label =>
    [⟨.debug, "bridge_native::ssl::certificate", "Skipping non-certificate PEM block",
      [("label", label)]⟩]
  | .skipped f =>
    [⟨.warn, "bridge_native::ssl::certificate", "Skipping invalid certificate",
      [("error", "invalid DER: " ++ f.text)]⟩]
  | .stoppedAtBlock f =>
    [⟨.warn, "bridge_native::ssl::certificate", "Stopping at malformed PEM block",
      [("error", f.message)]⟩]
  | .stopped f =>
    [⟨.warn, "bridge_native::ssl::certificate", "Stopping at invalid certificate",
      [("error", "invalid DER: " ++ f.text)]⟩]

/-- The certificates in the octets of a file. -/
def certificateFile (encoded : Bytes) (format : EncodingFormat) : Noted (List Certificate) :=
  ⟨Certificate.ofData encoded format,
    (Certificate.events encoded format).flatMap certificateEvent⟩

def certificates (encoded : Bytes) (format : EncodingFormat) : Noted (List Certificate) := do
  let cs ← certificateFile encoded format
  Noted.note ⟨.debug, "core_io::ssl::certificate", "Loaded certificates",
    [("count", toString cs.length), ("format", Coded.name format)]⟩
  return cs

def unreadableFile (path error : String) : Note where
  level := .warn
  target := "bridge_native::ssl::certificate"
  message := "Cannot read certificate file"
  fields := [("path", path), ("error", error)]

end NetKit.Journal
