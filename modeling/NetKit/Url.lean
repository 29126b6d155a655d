import NetKit.Address.Literal
import NetKit.Text.Blank
import NetKit.Text.Utf8
import NetKit.Url.Domain

/-!
Absolute URLs, read with the leniency of web browsers: scheme, host and path.
-/
namespace NetKit

structure Url where
  scheme : String
  /-- As written in the URL; IPv6 addresses are in brackets. -/
  host : Option String
  path : String
deriving DecidableEq, Repr

namespace Url

/-- Why a text is no absolute URL. -/
inductive Fault where
  | emptyHost
  | badDomainName
  | badPort
  | badIpv4
  | badIpv6
  | badHostCharacter
  | noScheme
deriving DecidableEq, Repr

def Fault.message : Fault → String
  | .emptyHost => "empty host"
  | .badDomainName => "invalid international domain name"
  | .badPort => "invalid port number"
  | .badIpv4 => "invalid IPv4 address"
  | .badIpv6 => "invalid IPv6 address"
  | .badHostCharacter => "invalid domain character"
  | .noScheme => "relative URL without a base"

/-- How the rest of a URL is read, by its scheme. -/
inductive Kind where
  | file
  | web
  | other
deriving DecidableEq, Repr

def kind (scheme : List Char) : Kind :=
  if scheme = "file".toList then .file
  else if ["http", "https", "ws", "wss", "ftp"].contains (String.ofList scheme) then .web
  else .other

/-- Whether a backslash reads as a slash. -/
def Kind.isSpecial : Kind → Bool
  | .other => false
  | _ => true

/-! ## Percent encoding -/

def percentOctet (b : UInt8) : List Char :=
  let digit := fun n => (Nat.digitChar n).toUpper
  ['%', digit (b.toNat / 16), digit (b.toNat % 16)]

/-- Writes the characters that `keep` refuses as their octets. -/
def percentEncode (keep : Char → Bool) (cs : List Char) : List Char :=
  cs.flatMap fun c => if keep c then [c] else (String.utf8EncodeChar c).flatMap percentOctet

def isVisible (c : Char) : Bool := 0x20 ≤ c.toNat && c.toNat < 0x7F

def isPathChar (c : Char) : Bool := isVisible c && !(" \"<>`#?\x7b\x7d".toList.contains c)

def hexValue? (c : Char) : Option Nat := Text.digitValue 16 c

/-- Octets in which a percent sign and two digits stand for one octet. -/
def percentDecode : List Char → Bytes
  | [] => []
  | '%' :: a :: b :: rest =>
    match hexValue? a, hexValue? b with
    | some x, some y => UInt8.ofNat (x * 16 + y) :: percentDecode rest
    | _, _ => 0x25 :: percentDecode (a :: b :: rest)
  | c :: rest => String.utf8EncodeChar c ++ percentDecode rest

/-! ## Hosts -/

/-- A number in base ten, eight or sixteen, by how it starts; none inside when it is too large. -/
def ipv4Number? (cs : List Char) : Option (Option Nat) :=
  let (base, digits) := match cs with
    | '0' :: 'x' :: rest => (16, rest)
    | '0' :: 'X' :: rest => (16, rest)
    | '0' :: d :: rest => (8, d :: rest)
    | _ => (10, cs)
  if cs.isEmpty then none
  else if digits.isEmpty then some (some 0)
  else (Text.natOfDigits? base digits).map fun n => if n < UInt32.size then some n else none

/-- The pieces between the dots, without an empty last one. -/
def hostParts (host : List Char) : List (List Char) :=
  let parts := Text.splitBy (· == '.') host
  if parts.getLast? == some [] then parts.dropLast else parts

def endsInNumber (host : List Char) : Bool :=
  match (hostParts host).getLast? with
  | none => false
  | some last => (!last.isEmpty && last.all Char.isDigit) || (ipv4Number? last).isSome

/-- Up to four numbers: all but the last are octets, the last fills what is left. -/
def hostIpv4? (host : List Char) : Option Ipv4 := do
  let parts := hostParts host
  if 4 < parts.length then failure
  let numbers ← parts.mapM fun p => (ipv4Number? p).join
  let last ← numbers.getLast?
  let octets := numbers.dropLast
  if 1 <<< (32 - 8 * octets.length) ≤ last then failure
  if octets.any (255 < ·) then failure
  let high := octets.foldl (fun acc n => acc * 256 + n) 0 <<< (32 - 8 * octets.length)
  return BitVec.ofNat 32 (high + last)

/-- Groups alone, without the dotted form. -/
def ipv6HostText (ip : Ipv6) : String :=
  let (start, length) := Ipv6.longestZeros 0 ip.segments
  let groups := if 1 < length then
      Ipv6.groupsText (ip.segments.take start) ++ "::" ++
        Ipv6.groupsText (ip.segments.drop (start + length))
    else Ipv6.groupsText ip.segments
  "[" ++ groups ++ "]"

def bracketed? (host : List Char) : Option (Except Fault String) :=
  match host with
  | '[' :: inner =>
    if inner.getLast? == some ']' then
      match Literal.ipv6? inner.dropLast with
      | some ip => some (.ok (ipv6HostText ip))
      | none => some (.error .badIpv6)
    else some (.error .badIpv6)
  | _ => none

/-- The host of a scheme that knows domain names. -/
def domainHost (host : List Char) : Except Fault String :=
  match bracketed? host with
  | some r => r
  | none =>
    match Domain.toAscii? (Utf8.decodeLossy (percentDecode host)).toList with
    | none => .error .badDomainName
    | some ascii =>
      if ascii.isEmpty then .error .emptyHost
      else if endsInNumber ascii then
        match hostIpv4? ascii with
        | some ip => .ok ip.text
        | none => .error .badIpv4
      else .ok (String.ofList ascii)

/-- Characters that no host can hold, whatever the scheme. -/
def isHostDelimiter (c : Char) : Bool :=
  c.toNat == 0 || "\t\n\r #/:<>?@[\\]^|".toList.contains c

/-- The host of a scheme that leaves its meaning open. -/
def opaqueHost (host : List Char) : Except Fault String :=
  match bracketed? host with
  | some r => r
  | none =>
    if host.any isHostDelimiter then .error .badHostCharacter
    else .ok (String.ofList (percentEncode isVisible host))

/-! ## Paths -/

def isQueryOrFragment (c : Char) : Bool := c == '?' || c == '#'

def isSlash (k : Kind) (c : Char) : Bool := c == '/' || (k.isSpecial && c == '\\')

def isSingleDot (segment : List Char) : Bool :=
  [".", "%2e", "%2E"].contains (String.ofList segment)

def isDoubleDot (segment : List Char) : Bool :=
  ["..", "%2e%2e", "%2e%2E", "%2E%2e", "%2E%2E", "%2e.", "%2E.", ".%2e", ".%2E"].contains
    (String.ofList segment)

def isDriveLetter : List Char → Bool
  | [c, d] => c.isAlpha && (d == ':' || d == '|')
  | _ => false

/-- Takes the last segment off, but never the drive of a file path. -/
def shorten (k : Kind) (segments : List (List Char)) : List (List Char) :=
  match k, segments with
  | .file, [drive] => if isDriveLetter drive then [drive] else []
  | _, _ => segments.dropLast

/-- Adds the segments to a path; dots lead to the same or the parent folder. -/
def addSegments (k : Kind) (done : List (List Char)) : List (List Char) → List (List Char)
  | [] => done
  | s :: rest =>
    let isLast := rest.isEmpty
    if isDoubleDot s then
      let done := shorten k done
      addSegments k (if isLast then done ++ [[]] else done) rest
    else if isSingleDot s then addSegments k (if isLast then done ++ [[]] else done) rest
    else if k = .file ∧ done.isEmpty ∧ isDriveLetter s then
      addSegments k [[s.headD 'c', ':']] rest
    else addSegments k (done ++ [s]) rest

def joinSegments (segments : List (List Char)) : String :=
  String.ofList (segments.flatMap fun s => '/' :: s)

/-- A path after its first slash. -/
def hierarchicalPath (k : Kind) (cs : List Char) : String :=
  let written := (Text.splitBy (isSlash k) (cs.takeWhile (!isQueryOrFragment ·))).map
    (percentEncode isPathChar)
  let segments := addSegments k [] written
  joinSegments (if k = .file then
    let kept := segments.dropWhile List.isEmpty
    if kept.isEmpty then [[]] else kept
  else segments)

/-- What follows a host. -/
def pathAfterHost (k : Kind) (cs : List Char) : String :=
  match cs with
  | [] => if k.isSpecial then "/" else ""
  | c :: rest =>
    if isSlash k c then hierarchicalPath k rest
    else if k.isSpecial then hierarchicalPath k cs
    else if isQueryOrFragment c then ""
    else hierarchicalPath k cs

/-! ## The whole -/

def isAuthorityEnd (k : Kind) (c : Char) : Bool := isSlash k c || isQueryOrFragment c

/-- The authority without the user information, and whether there was any. -/
def dropUserInfo (k : Kind) (cs : List Char) : Except Fault (List Char × Bool) :=
  let authority := cs.takeWhile (!isAuthorityEnd k ·)
  let afterAt := (authority.reverse.takeWhile (· != '@')).reverse
  let rest := cs.drop (authority.length - afterAt.length)
  if afterAt.length = authority.length then .ok (cs, false)
  else if authority.length = afterAt.length + 1 then
    match rest with
    | c :: _ => if isAuthorityEnd k c then .error .emptyHost else .ok (rest, false)
    | [] => .ok (rest, false)
  else .ok (rest, true)

/-- The characters of a host; a colon inside brackets belongs to it. -/
def hostLength (k : Kind) : Bool → List Char → Nat
  | _, [] => 0
  | inside, c :: rest =>
    if (c == ':' && !inside) || isAuthorityEnd k c then 0
    else hostLength k (if c == '[' then true else if c == ']' then false else inside) rest + 1

/-- Checks the digits of a port; gives what follows. -/
def dropPort : Nat → List Char → Except Fault (List Char)
  | _, [] => .ok []
  | port, c :: rest =>
    if c.isDigit then
      let port := port * 10 + (c.toNat - 48)
      if 65535 < port then .error .badPort else dropPort port rest
    else if c == '/' || c == '\\' || isQueryOrFragment c then .ok (c :: rest)
    else .error .badPort

/-- What follows two slashes, for schemes other than `file`. -/
def withAuthority (scheme : List Char) (k : Kind) (cs : List Char) : Except Fault Url := do
  let (cs, hasUser) ← dropUserInfo k cs
  let n := hostLength k false cs
  let host := cs.take n
  let rest := cs.drop n
  if k = .web ∧ host.isEmpty then throw .emptyHost
  let host ← if k.isSpecial then domainHost host else opaqueHost host
  if host.isEmpty ∧ (rest.head? == some ':' ∨ hasUser) then throw .emptyHost
  let rest ← match rest with
    | ':' :: port => dropPort 0 port
    | _ => pure rest
  return ⟨String.ofList scheme, if host.isEmpty then none else some host, pathAfterHost k rest⟩

/-- A file's URL after the colon. -/
def ofFile (scheme cs : List Char) : Except Fault Url :=
  let url := fun host path => (⟨String.ofList scheme, host, path⟩ : Url)
  match cs with
  | a :: b :: rest =>
    if isSlash .file a ∧ isSlash .file b then do
      let authority := rest.takeWhile (!isAuthorityEnd .file ·)
      if isDriveLetter authority then return url none (pathAfterHost .file rest)
      let after := rest.drop authority.length
      if authority.isEmpty then return url none (pathAfterHost .file after)
      let host ← domainHost authority
      let path := pathAfterHost .file after
      -- A path that starts with a drive has no host.
      let drive := ((path.toList.drop 1).takeWhile (· != '/'))
      let isLocal := host == "localhost" || isDriveLetter drive
      return url (if isLocal then none else some host) path
    else return url none (pathAfterHost .file cs)
  | _ => return url none (pathAfterHost .file cs)

/-- The scheme in small letters, and what follows the colon. -/
def scheme? : List Char → Option (List Char × List Char)
  | [] => none
  | c :: rest =>
    let isSchemeChar := fun c => Char.isAlphanum c || c == '+' || c == '-' || c == '.'
    if !c.isAlpha then none
    else match rest.dropWhile isSchemeChar with
      | ':' :: after => some ((c :: rest.takeWhile isSchemeChar).map Char.toLower, after)
      | _ => none

/-- Blanks and controls around a URL, and tabs and line ends inside it, are left out. -/
def cleaned (text : String) : List Char :=
  (Text.trimBy (fun c => c.toNat ≤ 0x20) text.toList).filter
    fun c => c != '\t' && c != '\n' && c != '\r'

def parse (text : String) : Except Fault Url :=
  match scheme? (cleaned text) with
  | none => .error .noScheme
  | some (scheme, rest) =>
    match kind scheme with
    | .file => ofFile scheme rest
    | .web => withAuthority scheme .web (rest.dropWhile (isSlash .web))
    | .other =>
      match rest with
      | '/' :: '/' :: authority => withAuthority scheme .other authority
      | '/' :: path => .ok ⟨String.ofList scheme, none, hierarchicalPath .other path⟩
      | _ =>
        let path := percentEncode isVisible (rest.takeWhile (!isQueryOrFragment ·))
        .ok ⟨String.ofList scheme, none, String.ofList path⟩

end Url
end NetKit
