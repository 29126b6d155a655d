import NetKit.Address
import NetKit.Certificate
import NetKit.Cookie
import NetKit.Deadline
import NetKit.Digest
import NetKit.Failure
import NetKit.Interface

/-!
The enumerations of the library as tables, for callers that know their members by code only.
-/
namespace NetKit

structure Enumeration where
  name : String
  /-- The code and the name of each member. -/
  members : List (Int × String)
deriving DecidableEq, Repr

namespace Enumeration

def of (α : Type) [Coded α] : Enumeration where
  name := Coded.kind α
  members := (Coded.all : List α).map fun a => (Coded.code a, Coded.name a)

def all : List Enumeration :=
  [of TimerType, of SpecialAddress, of Protocol, of RawForm, of SameSite, of EncodingFormat,
    of KeyAlgorithm, of KeyType, of SubjectInfo, of NameKind, of DigestAlgorithm, of InterfaceType]

def ofName? (name : String) : Option Enumeration := all.find? fun e => e.name == name

/-- The name of the member with a code. -/
def member (e : Enumeration) (code : Int) : Except Failure String :=
  match List.lookup code e.members with
  | some name => .ok name
  | none => .error (.notMember code e.name)

end Enumeration
end NetKit
