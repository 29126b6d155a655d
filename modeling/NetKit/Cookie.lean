import NetKit.Cookie.SetCookie
import NetKit.Handles
import NetKit.Text.Quoted
import NetKit.Text.Utf8
import NetKit.Url

/-!
Cookies. A domain taken from a `Set-Cookie` line starts with a dot, and a cookie expires at one
instant or with its session.
-/
namespace NetKit

/-- How much of a cookie is written. -/
inductive RawForm where
  | nameAndValueOnly
  | full
deriving DecidableEq, Repr

instance : Coded RawForm where
  kind := "CookieRawForm"
  all := [.nameAndValueOnly, .full]
  code
    | .nameAndValueOnly => 0
    | .full => 1
  name
    | .nameAndValueOnly => "NameAndValueOnly"
    | .full => "Full"

structure Cookie where
  name : Bytes := []
  value : Bytes := []
  domain : String := ""
  path : String := ""
  secure : Bool := false
  httpOnly : Bool := false
  sameSite : SameSite := .default
  /-- Milliseconds since 1970-01-01; none for a session cookie. -/
  expiration : Option Int := none
deriving DecidableEq, Repr, Inhabited

namespace Cookie

def isSession (c : Cookie) : Bool := c.expiration.isNone

/-! ## From lines -/

def nanosPerSec : Int := 1000000000

/-- The last instant of the year 9999, in nanoseconds since 1970-01-01. -/
def lastNanos : Int := 253402300799999999999

/-- The instant so many seconds from now, or the last that there is. -/
def expiryAfter (nowNanos : Int) (secs : Nat) : Int :=
  (min lastNanos (nowNanos + secs * nanosPerSec)).tdiv 1000000

/-- An age goes before a date. -/
def expiryOf (nowNanos : Int) (c : SetCookie) : Option Int :=
  match c.maxAge, c.expires with
  | some 0, _ => some 0
  | some age, _ => some (expiryAfter nowNanos age)
  | none, some secs => some (secs * 1000)
  | none, none => none

/-- The domain with a dot in front, empty when there is none. -/
def dottedDomain (c : SetCookie) : String :=
  match c.bareDomain with
  | none | some [] => ""
  | some d => String.ofList ('.' :: d)

def ofSetCookie (nowNanos : Int) (c : SetCookie) : Cookie where
  name := Utf8.encode (String.ofList c.name)
  value := Utf8.encode (String.ofList c.value)
  domain := dottedDomain c
  path := String.ofList (c.path.getD [])
  secure := c.secure
  httpOnly := c.httpOnly
  sameSite := c.sameSite
  expiration := expiryOf nowNanos c

/-- The lines that are not blank, without the blanks around them. -/
def lines (input : Bytes) : List (List Char) :=
  ((Text.splitBy (· == '\n') (Utf8.decodeLossy input).toList).map Text.trim).filter
    (!List.isEmpty ·)

def parseAll (nowNanos : Int) (input : Bytes) : Except SetCookie.Fault (List Cookie) :=
  (lines input).mapM fun line => (SetCookie.parse line).map (ofSetCookie nowNanos)

/-- One cookie for each line; none at all when a line is no cookie. -/
def parse (nowNanos : Int) (input : Bytes) : List Cookie :=
  match parseAll nowNanos input with
  | .ok cookies => cookies
  | .error _ => []

/-! ## To lines -/

/-- Seconds of the first and the last instant that can be written. -/
def firstSecond : Int := -377705116800

def lastSecond : Int := 253402300799

/-- The whole second in which an instant lies, when it can be written. -/
def writtenExpiry (ms : Int) : Option Int :=
  let secs := ms / 1000
  if firstSecond ≤ secs ∧ secs ≤ lastSecond then some secs else none

def nonempty (s : String) : Option (List Char) := if s.isEmpty then none else some s.toList

def toSetCookie (c : Cookie) : SetCookie where
  name := (Utf8.decodeLossy c.name).toList
  value := (Utf8.decodeLossy c.value).toList
  domain := nonempty c.domain
  path := nonempty c.path
  secure := c.secure
  httpOnly := c.httpOnly
  sameSite := c.sameSite
  expires := c.expiration.bind writtenExpiry

def raw (c : Cookie) : RawForm → String
  | .nameAndValueOnly => String.ofList c.toSetCookie.pairText
  | .full => String.ofList c.toSetCookie.text

/-! ## Defaults -/

/-- Whether two cookies replace one another. -/
def sameIdentifier (a b : Cookie) : Bool :=
  a.name == b.name && a.domain == b.domain && a.path == b.path

/-- A path up to its last slash. -/
def folder (path : String) : String :=
  let cs := (path.toList.reverse.dropWhile (· != '/')).reverse
  if cs.isEmpty then "/" else String.ofList cs

def isBracket (c : Char) : Bool := c == '[' || c == ']'

/-- Whether a domain is the text of an IP address, in brackets or not. -/
def isIpDomain (domain : String) : Bool :=
  (Literal.ip? (Text.trimBy isBracket domain.toList)).isSome

/-- A domain holds for the hosts below it too, an address for itself alone. -/
def normalDomain (domain : String) : String :=
  if isIpDomain domain || domain.toList.head? == some '.' then domain else "." ++ domain

/-- Fills in the path and the domain that a cookie from a URL has by default. -/
def normalize (c : Cookie) (url : Url) : Cookie :=
  { c with
    path := if c.path.isEmpty then folder url.path else c.path
    domain := if c.domain.isEmpty then url.host.getD "" else normalDomain c.domain }

/-! ## Changes -/

inductive Edit where
  | setName (name : Bytes)
  | setValue (value : Bytes)
  | setDomain (domain : String)
  | setPath (path : String)
  | setSecure (on : Bool)
  | setHttpOnly (on : Bool)
  | setSameSite (policy : SameSite)
  | setExpiration (ms : Option Int)
  /-- Takes its defaults from the URL that a text denotes. -/
  | normalize (url : String)
deriving DecidableEq, Repr

def change? : Edit → Cookie → Option Cookie
  | .setName name, c => some { c with name }
  | .setValue value, c => some { c with value }
  | .setDomain domain, c => some { c with domain }
  | .setPath path, c => some { c with path }
  | .setSecure on, c => some { c with secure := on }
  | .setHttpOnly on, c => some { c with httpOnly := on }
  | .setSameSite policy, c => some { c with sameSite := policy }
  | .setExpiration ms, c => some { c with expiration := ms }
  | .normalize url, c =>
    match Url.parse url with
    | .ok u => some (c.normalize u)
    | .error _ => none

/-- A text that is no URL leaves the cookie unopened. -/
instance : Editable Cookie Edit where
  change? := change?
  opens e c := (change? e c).isSome

/-! ## Text -/

def optionText : Option Int → String
  | none => "None"
  | some n => s!"Some({n})"

def text (c : Cookie) : String :=
  s!"NetworkCookie \x7b name: {Text.quoted (Utf8.decodeLossy c.name)}, " ++
    s!"domain: {Text.quoted c.domain}, path: {Text.quoted c.path}, secure: {c.secure}, " ++
    s!"http_only: {c.httpOnly}, expiration: {optionText c.expiration}, .. \x7d"

end Cookie
end NetKit
