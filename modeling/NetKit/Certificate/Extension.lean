import NetKit.Address.Ip
import NetKit.Certificate.AlternativeNames
import NetKit.Certificate.Name

/-!
Extensions of a certificate, and the alternative names in one of them.
-/
namespace NetKit.Certificate

structure Extension where
  type : Der.Oid
  value : Bytes
deriving DecidableEq, Repr

namespace Extension
open Der (Element)

/-- The identifier of the extension with alternative names of the subject. -/
def alternativeNamesOid : Der.Oid := [0x55, 0x1D, 0x11]

/-- Takes a boolean that may be missing. -/
def skipCritical : Der.Reader Der.Fault Unit := fun bs => do
  if bs.isEmpty then return ((), bs)
  let (e, rest) ← Der.element.run bs
  if e.tag ≠ Der.Tag.boolean then return ((), bs)
  if e.content.length = 1 then return ((), rest) else throw .invalidLength

def reader : Der.Reader Der.Fault Extension :=
  Der.within Der.Tag.sequence id do
    let type ← Der.oid
    skipCritical
    let value ← Der.octetString
    return ⟨type, value⟩

/-- The extensions that fill some octets; the mark in front of them is tag three. -/
def readAll (bs : Bytes) : Except Fault (List Extension) := do
  if bs.isEmpty then return []
  match Der.readHeader bs with
  | .error _ => throw .extensions
  | .ok (h, rest) =>
    if h.tag ≠ 3 then throw .extensions
    let (e, after) ← ((Der.tagged Der.Tag.sequence).run rest).mapError .der
    let (extensions, left) := Der.many reader e.content.length e.content
    if left = [] ∧ after = [] then return extensions else throw .notAtEnd

/-- The text of an address of four or sixteen octets. -/
def ipText? (bs : Bytes) : Option String :=
  if bs.length = 4 then some (Ip.v4 (BitVec.ofNat 32 (Der.ofBigEndian bs))).text
  else if bs.length = 16 then some (Ip.v6 (BitVec.ofNat 128 (Der.ofBigEndian bs))).text
  else none

/-- Whether an element is a name of one of the nine forms. -/
def isGeneralName (e : Element) : Bool :=
  e.header.tagClass == .contextSpecific &&
    match e.tag with
    | 0 => (Der.oid.run e.content).toBool
    | 1 | 2 | 6 => (Utf8.decode? e.content).isSome
    | 4 =>
      match DistinguishedName.reader.run e.content with
      | .ok (_, rest) => rest.isEmpty
      | .error _ => false
    | 3 | 5 | 7 | 8 => true
    | _ => false

/-- The alternative name of an element, for the forms that are kept. -/
def alternativeName? (e : Element) : Option AlternativeName :=
  match e.tag with
  | 1 => some ⟨.email, e.content⟩
  | 2 => some ⟨.dns, e.content⟩
  | 7 => (ipText? e.content).map fun text => ⟨.ip, Utf8.encode text⟩
  | _ => none

/-- The names in the value of an extension; none when one of them has no known form. -/
def alternativeNames? (value : Bytes) : Option (List AlternativeName) :=
  match (Der.tagged Der.Tag.sequence).run value with
  | .error _ => none
  | .ok (e, _) =>
    let (names, left) := Der.many Der.element e.content.length e.content
    if left = [] ∧ names.all isGeneralName then some (names.filterMap alternativeName?) else none

/-- What a certificate says about alternative names. -/
inductive Names where
  | names (list : List AlternativeName)
  /-- More than one extension holds names. -/
  | duplicate
deriving DecidableEq, Repr

def namesOf (extensions : List Extension) : Names :=
  match extensions.filter fun x => x.type == alternativeNamesOid with
  | [] => .names []
  | [x] => .names ((alternativeNames? x.value).getD [])
  | _ => .duplicate

end Extension
end NetKit.Certificate
