import NetKit.Coded
import NetKit.Der.Object
import NetKit.Encoding
import NetKit.Handles
import NetKit.Key.Identifier
import NetKit.Pem
import NetKit.Text.Search

/-!
Public and private keys. A key is read from a structure that names its algorithm, or from the bare
structure of one algorithm, and tells how many bits it has.
-/
namespace NetKit

inductive KeyAlgorithm where
  | hidden
  | rsa
  | dsa
  | ec
  | dh
deriving DecidableEq, Repr

instance : Coded KeyAlgorithm where
  kind := "KeyAlgorithm"
  all := [.hidden, .rsa, .dsa, .ec, .dh]
  code
    | .hidden => 0
    | .rsa => 1
    | .dsa => 2
    | .ec => 3
    | .dh => 4
  name
    | .hidden => "Opaque"
    | .rsa => "Rsa"
    | .dsa => "Dsa"
    | .ec => "Ec"
    | .dh => "Dh"

inductive KeyType where
  | privateKey
  | publicKey
deriving DecidableEq, Repr

instance : Coded KeyType where
  kind := "KeyType"
  all := [.privateKey, .publicKey]
  code
    | .privateKey => 0
    | .publicKey => 1
  name
    | .privateKey => "PrivateKey"
    | .publicKey => "PublicKey"

/-- A key, or the null key, which has no encoding. -/
structure Key where
  algorithm : KeyAlgorithm := .rsa
  type : KeyType := .privateKey
  /-- Bits of the key, minus one for the null key. -/
  length : Int := -1
  encoding : Bytes := []
  label : String := ""
deriving DecidableEq, Repr, Inhabited

namespace Key
open Der (Element Object Oid)

/-! ## Faults -/

/-- What a key can have that is not known. -/
inductive Stranger where
  | algorithm (oid : Oid)
  | curve (oid : Oid)
  | publicKey (algorithm : KeyAlgorithm)
  | encoding (algorithm : KeyAlgorithm) (type : KeyType)
  | label (text : String)
  | hidden
deriving DecidableEq, Repr

def Stranger.text : Stranger → String
  | .algorithm oid => "key algorithm " ++ oid.text
  | .curve oid => "curve " ++ oid.text
  | .publicKey a => Coded.name a ++ " public key"
  | .encoding a t => s!"{Coded.name a} {Coded.name t} encoding"
  | .label text => "PEM label " ++ text
  | .hidden => "opaque key"

inductive Fault where
  | noBlock
  | block (f : Pem.Fault)
  | element (f : Der.Fault)
  | info (f : Certificate.Fault)
  /-- The bits of a public key do not fit its algorithm. -/
  | publicKey
  | trailing (count : Nat)
  | wrongType
  | truncated
  | missingParameters
  | missingCurve
  | notPrivateKeyInfo
  | notEcPrivateKey
  | encrypted
  | mismatch (expected found : KeyAlgorithm × KeyType)
  | unsupported (what : Stranger)
deriving DecidableEq, Repr

def kindText (k : KeyAlgorithm × KeyType) : String := s!"{Coded.name k.1} {Coded.name k.2}"

def Fault.message : Fault → String
  | .noBlock => "invalid PEM: no PEM block"
  | .block f => "invalid PEM: " ++ f.message
  | .element f => "invalid DER: " ++ f.text
  | .info f => "invalid DER: " ++ f.text
  | .publicKey => "invalid DER: invalid X.509 Subject Public Key Info"
  | .trailing n => s!"invalid DER: {n} trailing bytes"
  | .wrongType => "invalid DER: BER object does not have the expected type"
  | .truncated => "invalid DER: truncated key"
  | .missingParameters => "invalid DER: missing domain parameters"
  | .missingCurve => "invalid DER: missing curve"
  | .notPrivateKeyInfo => "invalid DER: not a PKCS#8 key"
  | .notEcPrivateKey => "invalid DER: not an EC private key"
  | .encrypted => "passphrase-protected keys are not supported"
  | .mismatch expected found => s!"expected {kindText expected}, found {kindText found}"
  | .unsupported what => "unsupported " ++ what.text

/-! ## Sizes -/

/-- How many binary digits an unsigned number has. -/
def integerBits (bs : Bytes) : Nat :=
  match bs.dropWhile (· == 0) with
  | [] => 0
  | b :: rest => rest.length * 8 + (Nat.log2 b.toNat + 1)

def rsaOid : Oid := [0x2A, 0x86, 0x48, 0x86, 0xF7, 0x0D, 0x01, 0x01, 0x01]

def dsaOid : Oid := [0x2A, 0x86, 0x48, 0xCE, 0x38, 0x04, 0x01]

def ecOid : Oid := [0x2A, 0x86, 0x48, 0xCE, 0x3D, 0x02, 0x01]

def dhOid : Oid := [0x2A, 0x86, 0x48, 0x86, 0xF7, 0x0D, 0x01, 0x03, 0x01]

/-- An algorithm is known by the numbers that the text of its identifier shows. An identifier with a
number that is too long to be shown is of none. -/
def algorithmOf (oid : Oid) : Except Fault KeyAlgorithm :=
  let n := oid.shown?
  if n = rsaOid.shown? then .ok .rsa
  else if n = dsaOid.shown? then .ok .dsa
  else if n = ecOid.shown? then .ok .ec
  else if n = dhOid.shown? then .ok .dh
  else .error (.unsupported (.algorithm oid))

/-- The named curves with their bits. -/
def curves : List (List Nat × Nat) := [
  ([1, 2, 840, 10045, 3, 1, 7], 256),
  ([1, 3, 132, 0, 10], 256),
  ([1, 3, 132, 0, 34], 384),
  ([1, 3, 132, 0, 35], 521),
  ([1, 2, 840, 10045, 3, 1, 1], 192),
  ([1, 3, 132, 0, 33], 224)]

/-- Bits of the curve that the parameters name. Their content is read as an identifier, whatever
the tag, and a curve is known by the numbers that its text shows. -/
def curveBits (id : AlgorithmIdentifier) : Except Fault Nat :=
  match id.parameters with
  | none => .error .missingCurve
  | some p =>
    match (Oid.shown? p.content).bind (List.lookup · curves) with
    | some bits => .ok bits
    | none => .error (.unsupported (.curve p.content))

/-- Bits of the prime at the head of the domain parameters. -/
def primeBits (id : AlgorithmIdentifier) : Except Fault Nat :=
  match id.parameters with
  | none => .error .missingParameters
  | some p =>
    match Der.integer.run p.content with
    | .ok (prime, _) => .ok (integerBits prime)
    | .error f => .error (.element f)

/-- Bits of a point from its form: both coordinates, or one with the sign of the other. -/
def pointBits : Bytes → Nat
  | [] => 0
  | form :: rest =>
    if form = 4 then rest.length * 8 / 2
    else if form = 2 ∨ form = 3 then rest.length * 8
    else 0

/-- A sequence of the modulus and the exponent; the octets of the modulus. -/
def rsaModulus : Der.Reader Der.Fault Bytes :=
  Der.within Der.Tag.sequence id do
    let modulus ← Der.integer
    discard Der.integer
    return modulus

/-- The items of a sequence that some octets are, with nothing after it. -/
def items (bs : Bytes) : Except Fault (List Object) :=
  match Object.whole bs with
  | .error f => .error (.element f)
  | .ok (_, rest + 1) => .error (.trailing (rest + 1))
  | .ok (object, 0) =>
    match object.items? with
    | some items => .ok items
    | none => .error .wrongType

/-- The octets of the second item of a sequence, which follows the version. -/
def secondItem (bs : Bytes) (missing : Fault) : Except Fault Bytes := do
  match (← items bs)[1]? with
  | none => throw missing
  | some item =>
    match item.octets? with
    | some content => return content
    | none => throw .wrongType

/-- Bits of the modulus, or of the prime, that follows the version of a private key. -/
def secondItemBits (bs : Bytes) : Except Fault Nat :=
  (secondItem bs .truncated).map integerBits

/-- Bits of a curve from the octets of the private scalar. -/
def scalarBits (count : Nat) : Nat := if count = 65 ∨ count = 66 then 521 else count * 8

def ecPrivateBits (bs : Bytes) : Except Fault Nat :=
  (secondItem bs .notEcPrivateKey).map fun scalar => scalarBits scalar.length

/-! ## Structures that name their algorithm -/

/-- Bits of a public key. A curve that is not known is measured by the point. -/
def publicBits (algorithm : KeyAlgorithm) (info : PublicKeyInfo) : Except Fault Nat :=
  let oid := info.algorithm.oid
  if oid = rsaOid then
    match rsaModulus.run info.key with
    | .ok (modulus, _) => .ok (integerBits modulus)
    | .error _ => .error .publicKey
  else if oid = ecOid then
    match curveBits info.algorithm with
    | .ok bits => .ok bits
    | .error f => if 0 < pointBits info.key then .ok (pointBits info.key) else .error f
  else if oid = dsaOid then
    match Der.integer.run info.key with
    | .ok _ => primeBits info.algorithm
    | .error _ => .error .publicKey
  else if algorithm = .dh then primeBits info.algorithm
  else .error (.unsupported (.publicKey algorithm))

def ofPublicKeyInfo (info : PublicKeyInfo) : Except Fault Key := do
  let algorithm ← algorithmOf info.algorithm.oid
  let length ← publicBits algorithm info
  return ⟨algorithm, .publicKey, length, info.encoding, "PUBLIC KEY"⟩

def readPublic (der : Bytes) : Except Fault Key :=
  match PublicKeyInfo.reader.run der with
  | .ok (info, _) => ofPublicKeyInfo info
  | .error f => .error (.info f)

/-- An element whose failures are those of keys. -/
def element : Der.Reader Fault Element := fun bs => (Der.element.run bs).mapError .element

/-- The algorithm and the octets of a private key: a sequence of the version, the algorithm and an
octet string. -/
def privateKeyInfo (der : Bytes) : Except Fault (AlgorithmIdentifier × Bytes) := do
  let (outer, _) ← element.run der
  if outer.tag ≠ Der.Tag.sequence then throw .notPrivateKeyInfo
  let (_, rest) ← element.run outer.content
  let (algorithm, rest) ← (AlgorithmIdentifier.reader.run rest).mapError .info
  let (key, _) ← element.run rest
  if key.tag ≠ Der.Tag.octetString then throw .notPrivateKeyInfo
  return (algorithm, key.content)

def privateBits (algorithm : KeyAlgorithm) (id : AlgorithmIdentifier) (key : Bytes) :
    Except Fault Nat :=
  match algorithm with
  | .rsa => secondItemBits key
  | .ec =>
    match curveBits id with
    | .ok bits => .ok bits
    | .error _ => ecPrivateBits key
  | .dsa | .dh => primeBits id
  | .hidden => .error (.unsupported .hidden)

def readPrivate (der : Bytes) : Except Fault Key := do
  let (id, key) ← privateKeyInfo der
  let algorithm ← algorithmOf id.oid
  let length ← privateBits algorithm id key
  return ⟨algorithm, .privateKey, length, der, "PRIVATE KEY"⟩

/-! ## Structures of one algorithm -/

/-- Reads the bare structure of an algorithm. -/
def readBare (der : Bytes) (algorithm : KeyAlgorithm) (type : KeyType) : Except Fault Key :=
  let made (bits : Except Fault Nat) (label : String) : Except Fault Key :=
    bits.map fun length => ⟨algorithm, type, length, der, label⟩
  match algorithm, type with
  | .rsa, .publicKey =>
    made (((rsaModulus.run der).mapError fun f => .info (.der f)).map fun r => integerBits r.1)
      "RSA PUBLIC KEY"
  | .rsa, .privateKey => made (secondItemBits der) "RSA PRIVATE KEY"
  | .dsa, .privateKey => made (secondItemBits der) "DSA PRIVATE KEY"
  | .ec, .privateKey => made (ecPrivateBits der) "EC PRIVATE KEY"
  | _, _ => .error (.unsupported (.encoding algorithm type))

/-! ## Reading -/

/-- Reads a structure that names its algorithm, or else the bare structure of the wanted one. -/
def readDer (der : Bytes) (algorithm : KeyAlgorithm) (type : KeyType) : Except Fault Key :=
  let general := match type with
    | .publicKey => readPublic der
    | .privateKey => readPrivate der
  match general with
  | .ok key => .ok key
  | .error _ => readBare der algorithm type

/-- Reads the contents of a block as its label says. -/
def readBlock (b : Pem.Block) : Except Fault Key :=
  match b.label with
  | "PUBLIC KEY" => readPublic b.contents
  | "PRIVATE KEY" => readPrivate b.contents
  | "RSA PUBLIC KEY" => readBare b.contents .rsa .publicKey
  | "RSA PRIVATE KEY" => readBare b.contents .rsa .privateKey
  | "DSA PRIVATE KEY" => readBare b.contents .dsa .privateKey
  | "EC PRIVATE KEY" => readBare b.contents .ec .privateKey
  | other => .error (.unsupported (.label other))

/-- A word that keys under a passphrase carry in their text. -/
def encryptedMark : List Char := "ENCRYPTED".toList

/-- Reads the first block of a text. Contents that do not fit their label, but could be known, are
read as the wanted key. -/
def readPem (text : Bytes) (algorithm : KeyAlgorithm) (type : KeyType) : Except Fault Key :=
  if Text.occursIn encryptedMark (Utf8.decodeLossy text).toList then .error .encrypted
  else
    match (Pem.decode text).head? with
    | none => .error .noBlock
    | some (.error f) => .error (.block f)
    | some (.ok b) =>
      match readBlock b with
      | .ok key => .ok key
      | .error (.unsupported what) => .error (.unsupported what)
      | .error _ => readDer b.contents algorithm type

/-- A key of the wanted algorithm and type, and of no other. -/
def read (encoded : Bytes) (algorithm : KeyAlgorithm) (format : EncodingFormat) (type : KeyType) :
    Except Fault Key := do
  let key ← match format with
    | .pem => readPem encoded algorithm type
    | .der => readDer encoded algorithm type
  if key.algorithm ≠ algorithm ∨ key.type ≠ type then
    throw (.mismatch (algorithm, type) (key.algorithm, key.type))
  return key

/-- The key that some octets are; a null key of the wanted kind if they are none. -/
def ofData (encoded : Bytes) (algorithm : KeyAlgorithm) (format : EncodingFormat)
    (type : KeyType) : Key :=
  match read encoded algorithm format type with
  | .ok key => key
  | .error _ => { algorithm, type }

/-! ## Views -/

def isNull (k : Key) : Bool := k.encoding.isEmpty

def pem (k : Key) : String := if k.isNull then "" else Pem.encode ⟨k.label, k.encoding⟩

def text (k : Key) : String :=
  let (a, t) := (Coded.name k.algorithm, Coded.name k.type)
  s!"SslKey \x7b algorithm: {a}, type: {t}, length: {k.length} \x7d"

inductive Edit where
  | clear
deriving DecidableEq, Repr

instance : Editable Key Edit where
  change?
    | .clear, _ => some {}

end Key
end NetKit
