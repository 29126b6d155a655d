import NetKit.Coded
import NetKit.Cookie.Date
import NetKit.Text.Blank

/-!
One `Set-Cookie` line: a name and a value, and the attributes after them.
-/
namespace NetKit

/-- Which requests from other sites carry a cookie. -/
inductive SameSite where
  | default
  | none
  | lax
  | strict
deriving DecidableEq, Repr, Inhabited

instance : Coded SameSite where
  kind := "SameSite"
  all := [.default, .none, .lax, .strict]
  code
    | .default => 0
    | .none => 1
    | .lax => 2
    | .strict => 3
  name
    | .default => "Default"
    | .none => "None"
    | .lax => "Lax"
    | .strict => "Strict"

structure SetCookie where
  name : List Char
  value : List Char
  domain : Option (List Char) := none
  path : Option (List Char) := none
  secure : Bool := false
  httpOnly : Bool := false
  sameSite : SameSite := .default
  /-- Seconds to live, never negative. -/
  maxAge : Option Nat := none
  /-- Seconds since 1970-01-01. -/
  expires : Option Int := none
deriving DecidableEq, Repr

namespace SetCookie

/-- Why a line is no cookie. -/
inductive Fault where
  | missingPair
  | emptyName
deriving DecidableEq, Repr

def Fault.message : Fault → String
  | .missingPair => "the cookie is missing a name/value pair"
  | .emptyName => "the cookie's name is empty"

def lower (cs : List Char) : List Char := cs.map Char.toLower

/-! ## Reading -/

/-- The most seconds that a cookie can be told to live. -/
def longest : Nat := 9223372036854775807

/-- Digits after an optional minus sign. A negative age is over at once, an age that is no 64-bit
number lasts as long as one can. -/
def readMaxAge? (cs : List Char) : Option Nat :=
  match cs with
  | '-' :: digits => if digits.all Char.isDigit then some 0 else none
  | _ =>
    if cs.all Char.isDigit then
      some (((Text.natOfDigits? 10 cs).filter (· ≤ longest)).getD longest)
    else none

def readSameSite? (cs : List Char) : Option SameSite :=
  let text := String.ofList (lower cs)
  if text = "strict" then some .strict
  else if text = "lax" then some .lax
  else if text = "none" then some .none
  else none

/-- Takes an attribute into account. Unknown attributes and values that cannot be read change
nothing. -/
def withAttribute (c : SetCookie) (key : List Char) (value : Option (List Char)) : SetCookie :=
  match String.ofList (lower key), value with
  | "secure", _ => { c with secure := true }
  | "httponly", _ => { c with httpOnly := true }
  | "max-age", some v => { c with maxAge := readMaxAge? v <|> c.maxAge }
  | "domain", some v => if v.isEmpty then c else { c with domain := some v }
  | "path", some v => { c with path := some v }
  | "samesite", some v => { c with sameSite := (readSameSite? v).getD c.sameSite }
  | "expires", some v => { c with expires := CookieDate.read? v <|> c.expires }
  | _, _ => c

/-- What stands before and after the first equals sign, without the blanks around each. -/
def splitPair (cs : List Char) : List Char × Option (List Char) :=
  match Text.splitOnce (· == '=') cs with
  | some (key, value) => (Text.trim key, some (Text.trim value))
  | none => (Text.trim cs, none)

def readAttribute (c : SetCookie) (cs : List Char) : SetCookie :=
  let (key, value) := splitPair cs
  c.withAttribute key value

def parse (line : List Char) : Except Fault SetCookie :=
  match Text.splitBy (· == ';') line with
  | [] => .error .missingPair
  | pair :: attributes =>
    match splitPair pair with
    | (_, none) => .error .missingPair
    | (name, some value) =>
      if name.isEmpty then .error .emptyName
      else .ok (attributes.foldl readAttribute { name, value })

/-! ## Writing -/

/-- The domain without the dot that it may start with. -/
def bareDomain (c : SetCookie) : Option (List Char) :=
  c.domain.map fun
    | '.' :: rest => rest
    | d => d

def pairText (c : SetCookie) : List Char := c.name ++ '=' :: c.value

/-- The attribute with its name, when there is one. -/
def attributeText (name : String) : Option (List Char) → List Char
  | none => []
  | some v => "; ".toList ++ name.toList ++ '=' :: v

def flagText (name : String) (isSet : Bool) : List Char :=
  if isSet then "; ".toList ++ name.toList else []

def sameSiteText : SameSite → Option (List Char)
  | .default => none
  | s => some (Coded.name s).toList

/-- Cookies for every site are sent over secure connections only. -/
def showsSecure (c : SetCookie) : Bool := c.secure || c.sameSite == .none

def text (c : SetCookie) : List Char :=
  c.pairText ++ flagText "HttpOnly" c.httpOnly ++ attributeText "SameSite" (sameSiteText c.sameSite) ++
    flagText "Secure" c.showsSecure ++ attributeText "Path" c.path ++
    attributeText "Domain" c.bareDomain ++
    attributeText "Max-Age" (c.maxAge.map Text.decimal) ++
    attributeText "Expires" (c.expires.map CookieDate.write)

end SetCookie
end NetKit
