import NetKit.Bytes
import NetKit.Certificate.Extension
import NetKit.Certificate.Time
import NetKit.Instant
import NetKit.Key

/-!
Certificates. A certificate keeps its encoding and what has been read from it; signatures are not
verified.
-/
namespace NetKit

/-- A certificate, or the null certificate, which has no encoding. -/
structure Certificate where
  encoding : Bytes := []
  version : Nat := 0
  serial : Bytes := []
  subject : DistinguishedName := {}
  issuer : DistinguishedName := {}
  /-- Seconds since 1970-01-01. -/
  notBefore : Int := 0
  notAfter : Int := 0
  selfSigned : Bool := false
  publicKey : Key := {}
  /-- In the order of the certificate. -/
  names : List AlternativeName := []
deriving DecidableEq, Repr, Inhabited

namespace Certificate
open Der (Element Reader)

/-! ## Parts -/

/-- The number in front of a certificate; the first version has none. -/
def versionReader : Reader Fault Nat := fun bs => do
  if bs.isEmpty then return (0, bs)
  let (h, _) ← (Der.readHeader bs).mapError .der
  if h.tagClass ≠ .contextSpecific ∨ h.tag ≠ 0 then return (0, bs)
  let (e, rest) ← (Der.element.run bs).mapError .der
  let (inner, _) ← (Der.element.run e.content).mapError .der
  return (← (Der.nat32 inner).mapError .der, rest)

def serialReader : Reader Fault Bytes := fun bs => do
  let (e, rest) ← (Der.anyElement.run bs).mapError fun _ => .serial
  if e.tag ≠ Der.Tag.integer then throw (.der (.unexpectedTag (some Der.Tag.integer) e.tag))
  return (e.content, rest)

def timeReader : Reader Fault Int := fun bs => do
  let (e, rest) ← (Der.element.run bs).mapError fun _ => .date
  match Time.ofElement? e with
  | some secs => return (secs, rest)
  | none => throw .date

def validityReader : Reader Fault (Int × Int) :=
  Der.within Der.Tag.sequence .der do
    let notBefore ← timeReader
    let notAfter ← timeReader
    return (notBefore, notAfter)

/-- Takes an identifier with a tag that may be missing; if it is there it is a bit string. -/
def skipUniqueId (tag : Nat) (fault : Fault) : Reader Fault Unit := fun bs => do
  if bs.isEmpty then return ((), bs)
  let (e, rest) ← (Der.element.run bs).mapError fun _ => fault
  if !e.isContext tag then return ((), bs)
  if e.header.constructed ∨ (Der.bits e.content).toBool = false then throw fault
  return ((), rest)

/-- What is signed. -/
structure Body where
  version : Nat
  serial : Bytes
  issuer : DistinguishedName
  issuerRaw : Bytes
  notBefore : Int
  notAfter : Int
  subject : DistinguishedName
  subjectRaw : Bytes
  publicKey : PublicKeyInfo
  extensions : List Extension
deriving DecidableEq, Repr

def Body.reader : Reader Fault Body :=
  Der.within Der.Tag.sequence .der do
    let version ← versionReader
    let serial ← serialReader
    discard AlgorithmIdentifier.reader
    let (issuer, issuerRaw) ← DistinguishedName.reader.lift
    let (notBefore, notAfter) ← validityReader
    let (subject, subjectRaw) ← DistinguishedName.reader.lift
    let publicKey ← PublicKeyInfo.reader
    skipUniqueId 1 .issuerId
    skipUniqueId 2 .subjectId
    let extensions ← Extension.readAll (← get)
    return { version, serial, issuer, issuerRaw, notBefore, notAfter, subject, subjectRaw,
             publicKey, extensions }

/-- The body of a certificate, which an algorithm and a signature follow. -/
def reader : Reader Fault Body :=
  Der.within Der.Tag.sequence .der do
    let body ← Body.reader
    discard AlgorithmIdentifier.reader
    discard (Der.bitString.orElse Fault.signature)
    return body

/-! ## Reading -/

/-- What is passed over in a certificate that is read nevertheless. -/
inductive Remark where
  | duplicateNames
  | unknownKey (f : Key.Fault)
deriving DecidableEq, Repr

def remarks (b : Body) : List Remark :=
  (match Extension.namesOf b.extensions with
    | .names _ => []
    | .duplicate => [.duplicateNames]) ++
  (match Key.ofPublicKeyInfo b.publicKey with
    | .ok _ => []
    | .error f => [.unknownKey f])

/-- Versions are counted from one. A key that is not known is the null key. -/
def ofBody (encoding : Bytes) (b : Body) : Certificate where
  encoding := encoding
  version := b.version + 1
  serial := b.serial
  subject := b.subject
  issuer := b.issuer
  notBefore := b.notBefore
  notAfter := b.notAfter
  selfSigned := b.subjectRaw == b.issuerRaw
  publicKey :=
    match Key.ofPublicKeyInfo b.publicKey with
    | .ok key => key
    | .error _ => {}
  names :=
    match Extension.namesOf b.extensions with
    | .names list => list
    | .duplicate => []

/-- What happens while certificates are read. -/
inductive Event where
  | loaded (c : Certificate) (remarks : List Remark)
  | skippedBlock (label : String)
  | skipped (f : Fault)
  | stoppedAtBlock (f : Pem.Fault)
  | stopped (f : Fault)
deriving DecidableEq, Repr

/-- The certificate at the front, and the octets after it. -/
def readOne (bs : Bytes) : Except Fault (Event × Bytes) :=
  (reader.run bs).map fun (b, rest) =>
    (.loaded (ofBody (bs.take (bs.length - rest.length)) b) (remarks b), rest)

/-- Reads certificates one after the other. The first that cannot be read ends it. -/
def readChain : Nat → Bytes → List Event
  | _, [] => []
  | 0, _ => []
  | fuel + 1, bs =>
    match readOne bs with
    | .error f => [.stopped f]
    | .ok (event, rest) => event :: readChain fuel rest

def label : String := "CERTIFICATE"

/-- Reads the blocks of a text. Blocks that hold no certificate are skipped; a block that is not
well formed ends it. -/
def readBlocks : List (Except Pem.Fault Pem.Block) → List Event
  | [] => []
  | .error f :: _ => [.stoppedAtBlock f]
  | .ok b :: rest =>
    let event :=
      if b.label = label then
        match readOne b.contents with
        | .ok (event, _) => event
        | .error f => .skipped f
      else .skippedBlock b.label
    event :: readBlocks rest

def events (encoded : Bytes) : EncodingFormat → List Event
  | .pem => readBlocks (Pem.decode encoded)
  | .der => readChain encoded.length encoded

def Event.certificate? : Event → Option Certificate
  | .loaded c _ => some c
  | _ => none

/-- Every certificate in some data. -/
def ofData (encoded : Bytes) (format : EncodingFormat) : List Certificate :=
  (events encoded format).filterMap Event.certificate?

/-! ## Views -/

def isNull (c : Certificate) : Bool := c.encoding.isEmpty

def pem (c : Certificate) : String := if c.isNull then "" else Pem.encode ⟨label, c.encoding⟩

/-- The encoding in a format. -/
def encode (c : Certificate) : EncodingFormat → Bytes
  | .pem => Utf8.encode c.pem
  | .der => c.encoding

/-- Octets in base sixteen with colons between. -/
def serialText (c : Certificate) : String :=
  ":".intercalate (c.serial.map fun b => Bytes.hex [b])

def versionText (c : Certificate) : String := if c.isNull then "" else toString c.version

def alternativeNames (c : Certificate) : AlternativeNames := .ofList c.names

/-- Whether a time lies in the period of validity, both ends included. -/
def isValidAt (c : Certificate) (secs : Int) : Bool :=
  !c.isNull && c.notBefore ≤ secs && secs ≤ c.notAfter

def nameText (n : AlternativeName) : String :=
  let kind := match n.kind with
    | .email => "email:"
    | .dns => "DNS:"
    | .ip => "IP Address:"
  kind ++ Utf8.decodeLossy n.value

/-- A summary for readers. -/
def summary (c : Certificate) : String :=
  if c.isNull then ""
  else
    let names := ", ".intercalate (c.names.map nameText)
    "Certificate:\n" ++
    s!"    Version: {c.version}\n" ++
    s!"    Serial Number: {c.serialText}\n" ++
    s!"    Issuer: {c.issuer.text}\n" ++
    s!"    Not Before: {c.notBefore}\n" ++
    s!"    Not After: {c.notAfter}\n" ++
    s!"    Subject: {c.subject.text}\n" ++
    s!"    Public Key: {Coded.name c.publicKey.algorithm} ({c.publicKey.length} bit)\n" ++
    (if names.isEmpty then "" else s!"    Subject Alternative Name: {names}\n")

def text (c : Certificate) : String :=
  if c.isNull then "SslCertificate(null)"
  else
    let subject := Text.quoted c.subject.displayName
    let issuer := Text.quoted c.issuer.displayName
    let serial := Text.quoted c.serialText
    let expiry := match Instant.ofUnix? c.notAfter with
      | some t => "Some(" ++ t.text ++ ")"
      | none => "None"
    s!"SslCertificate \x7b subject: {subject}, issuer: {issuer}, serial: {serial}, " ++
      s!"expiry: {expiry} \x7d"

inductive Edit where
  | clear
deriving DecidableEq, Repr

instance : Editable Certificate Edit where
  change?
    | .clear, _ => some {}

end Certificate
end NetKit
