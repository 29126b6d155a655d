import NetKit.Certificate.Fault
import NetKit.Coded
import NetKit.Der.Oid
import NetKit.Text.Units

/-!
Distinguished names: a sequence of parts, each of which is a set of attributes with values.
-/
namespace NetKit

inductive SubjectInfo where
  | organization
  | commonName
  | locality
  | organizationalUnit
  | country
  | stateOrProvince
  | qualifier
  | serialNumber
  | emailAddress
deriving DecidableEq, Repr

instance : Coded SubjectInfo where
  kind := "SubjectInfo"
  all := [.organization, .commonName, .locality, .organizationalUnit, .country, .stateOrProvince,
    .qualifier, .serialNumber, .emailAddress]
  code
    | .organization => 0
    | .commonName => 1
    | .locality => 2
    | .organizationalUnit => 3
    | .country => 4
    | .stateOrProvince => 5
    | .qualifier => 6
    | .serialNumber => 7
    | .emailAddress => 8
  name
    | .organization => "Organization"
    | .commonName => "CommonName"
    | .locality => "LocalityName"
    | .organizationalUnit => "OrganizationalUnitName"
    | .country => "CountryName"
    | .stateOrProvince => "StateOrProvinceName"
    | .qualifier => "DistinguishedNameQualifier"
    | .serialNumber => "SerialNumber"
    | .emailAddress => "EmailAddress"

/-- The numbers of the attribute that holds an information. -/
def SubjectInfo.attribute : SubjectInfo → List Nat
  | .organization => [2, 5, 4, 10]
  | .commonName => [2, 5, 4, 3]
  | .locality => [2, 5, 4, 7]
  | .organizationalUnit => [2, 5, 4, 11]
  | .country => [2, 5, 4, 6]
  | .stateOrProvince => [2, 5, 4, 8]
  | .qualifier => [2, 5, 4, 46]
  | .serialNumber => [2, 5, 4, 5]
  | .emailAddress => [1, 2, 840, 113549, 1, 9, 1]

/-- One attribute of a name. -/
structure Attribute where
  type : Der.Oid
  value : Der.Element
deriving DecidableEq, Repr

/-- The parts of a name in order. -/
structure DistinguishedName where
  parts : List (List Attribute) := []
deriving DecidableEq, Repr, Inhabited

namespace Attribute
open Der (Oid)

/-- The value as a string, for the string types whose characters are those of UTF-8. -/
def string? (a : Attribute) : Option String :=
  if [Der.Tag.utf8String, Der.Tag.numericString, Der.Tag.printableString,
      Der.Tag.ia5String].contains a.value.tag
  then Utf8.decode? a.value.content
  else none

/-- Identifiers of attributes of the directory. -/
def directoryNames : List (UInt8 × String) := [
  (0, "objectClass"), (1, "aliasedEntryName"), (2, "knowledgeInformation"), (3, "CN"),
  (4, "surname"), (5, "serialNumber"), (6, "C"), (7, "L"), (8, "ST"), (9, "streetAddress"),
  (10, "O"), (11, "OU"), (12, "title"), (13, "description"), (14, "searchGuide"),
  (15, "businessCategory"), (16, "postalAddress"), (17, "postalCode"), (41, "name"),
  (42, "givenName"), (43, "initials"), (44, "generationQualifier"), (45, "uniqueIdentifier"),
  (46, "dnQualifier")]

def emailOid : Oid := [0x2A, 0x86, 0x48, 0x86, 0xF7, 0x0D, 0x01, 0x09, 0x01]

def domainComponentOid : Oid :=
  [0x09, 0x92, 0x26, 0x89, 0x93, 0xF2, 0x2C, 0x64, 0x01, 0x19]

/-- The short name of an attribute, or its numbers. -/
def typeText (type : Oid) : String :=
  let known := match type with
    | [0x55, 0x04, n] => directoryNames.lookup n
    | _ =>
      if type = emailOid then some "Email"
      else if type = domainComponentOid then some "DC"
      else none
  known.getD ("OID(" ++ type.text ++ ")")

/-- Units of sixteen bits, the higher octet first. A last octet alone is a unit. -/
def units : Bytes → List Nat
  | [] => []
  | [a] => [a.toNat]
  | a :: b :: rest => (a.toNat * 256 + b.toNat) :: units rest

def upperHex (bs : Bytes) : String :=
  String.ofList (bs.flatMap fun b =>
    [(Nat.digitChar (b.toNat / 16)).toUpper, (Nat.digitChar (b.toNat % 16)).toUpper])

/-- String types whose octets are shown as UTF-8. -/
def textTags : List Nat :=
  [Der.Tag.numericString, 26, Der.Tag.printableString, 27, 7, 25, 20, 21, Der.Tag.utf8String,
    Der.Tag.ia5String]

/-- The value for readers; values that are no text are shown by their octets. -/
def valueText? (a : Attribute) : Option String :=
  if textTags.contains a.value.tag then Utf8.decode? a.value.content
  else if a.value.tag = Der.Tag.bmpString then
    (Text.charsOfUnits (units a.value.content)).map String.ofList
  else some (upperHex a.value.content)

def text? (a : Attribute) : Option String :=
  a.valueText?.map fun v => typeText a.type ++ "=" ++ v

def reader : Der.Reader Der.Fault Attribute :=
  Der.within Der.Tag.sequence id do
    let type ← Der.oid
    let value ← Der.element
    return ⟨type, value⟩

end Attribute

namespace DistinguishedName

def attributes (n : DistinguishedName) : List Attribute := n.parts.flatten

/-- The strings of an information in order. -/
def values (n : DistinguishedName) (info : SubjectInfo) : List String :=
  n.attributes.filterMap fun a =>
    if a.type.numbers = info.attribute then a.string? else none

/-- The common name, else the organizational unit, else the organization. -/
def displayName (n : DistinguishedName) : String :=
  ([SubjectInfo.commonName, .organizationalUnit, .organization].findSome? fun info =>
    (n.values info).head?).getD ""

/-- The whole name for readers. One value that cannot be shown spoils it. -/
def text (n : DistinguishedName) : String :=
  match n.parts.mapM fun p => p.mapM Attribute.text? with
  | some parts => ", ".intercalate (parts.map fun p => " + ".intercalate p)
  | none => "<X509Error: Invalid X.509 name>"

/-- A set of one attribute or more. What follows the attributes is passed over. -/
def partReader : Der.Reader Der.Fault (List Attribute) :=
  Der.within Der.Tag.set id do
    let bs ← get
    match Der.many Attribute.reader bs.length bs with
    | ([], _) => throw .value
    | (as, rest) => set rest; return as

/-- A name, and the octets from its beginning to the end of its last part. A part that cannot be
read ends the name. -/
def reader : Der.Reader Der.Fault (DistinguishedName × Bytes) := fun bs => do
  let (e, rest) ← (Der.tagged Der.Tag.sequence).run bs
  let (parts, left) := Der.many partReader e.content.length e.content
  return ((⟨parts⟩, bs.take (bs.length - rest.length - left.length)), rest)

end DistinguishedName
end NetKit
