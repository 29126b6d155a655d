import NetKit.Handles
import NetKit.Text.Blank
import NetKit.Text.Quoted
import NetKit.Text.Utf8

/-!
HTTP header lists. Names are tokens, kept in lower case; values are field values, kept without the
blanks around them.
-/
namespace NetKit

/-- A header field as given or as kept. -/
structure Field where
  name : Bytes
  value : Bytes
deriving DecidableEq, Repr

namespace Field

def isUpper (b : UInt8) : Bool := 0x41 ≤ b && b ≤ 0x5A

def isAlphanumeric (b : UInt8) : Bool :=
  isUpper b || (0x61 ≤ b && b ≤ 0x7A) || (0x30 ≤ b && b ≤ 0x39)

/-- The marks that a token may hold. -/
def tokenMarks : Bytes := "!#$%&'*+-.^_`|~".toList.map fun c => UInt8.ofNat c.toNat

def isTokenChar (b : UInt8) : Bool := isAlphanumeric b || tokenMarks.contains b

def toLower (b : UInt8) : UInt8 := if isUpper b then b + 0x20 else b

def isToken (name : Bytes) : Bool := !name.isEmpty && name.all isTokenChar

def isBlank (b : UInt8) : Bool := b == 0x20 || b == 0x09

def isValueChar (b : UInt8) : Bool := isBlank b || (0x21 ≤ b && b ≤ 0x7E) || 0x80 ≤ b

/-- The kept form of a field; none when the name is no token or the value no field value. -/
def checked? (f : Field) : Option Field :=
  if isToken f.name && f.value.all isValueChar then
    some ⟨f.name.map toLower, Text.trimBy isBlank f.value⟩
  else none

/-- Whether the field has a name, letter case aside. -/
def named (f : Field) (name : Bytes) : Bool := f.name.map toLower == name.map toLower

end Field

structure Headers where
  fields : List Field := []
deriving DecidableEq, Repr, Inhabited

namespace Headers

/-- What a change that can be refused leaves behind: none when refused. -/
abbrev Change := Option Headers

def append (h : Headers) (f : Field) : Change :=
  f.checked?.map fun f => ⟨h.fields ++ [f]⟩

/-- Before the field at the index; at the end when the index is the size. -/
def insert (h : Headers) (i : Nat) (f : Field) : Change :=
  if h.fields.length < i then none
  else f.checked?.map fun f => ⟨h.fields.take i ++ f :: h.fields.drop i⟩

def replace (h : Headers) (i : Nat) (f : Field) : Change :=
  if h.fields.length ≤ i then none else f.checked?.map fun f => ⟨h.fields.set i f⟩

/-- Gives the first field of that name the new value and removes the others. -/
def replaceNamed (f : Field) : List Field → Option (List Field)
  | [] => none
  | g :: rest =>
    if g.name == f.name then some (f :: rest.filter fun k => k.name != f.name)
    else (replaceNamed f rest).map (g :: ·)

def replaceOrAppend (h : Headers) (f : Field) : Change :=
  f.checked?.map fun f => ⟨(replaceNamed f h.fields).getD (h.fields ++ [f])⟩

def removeAll (h : Headers) (name : Bytes) : Headers :=
  ⟨h.fields.filter fun f => !f.named name⟩

def removeAt? (h : Headers) (i : Nat) : Change :=
  if i < h.fields.length then some ⟨h.fields.eraseIdx i⟩ else none

/-- Keeps the fields that are valid. -/
def ofFields (fs : List Field) : Headers := ⟨fs.filterMap Field.checked?⟩

/-- The values of a name, in order. -/
def values (h : Headers) (name : Bytes) : List Bytes :=
  (h.fields.filter fun f => f.named name).map (·.value)

def contains (h : Headers) (name : Bytes) : Bool := h.fields.any fun f => f.named name

/-- The first value of a name. -/
def value? (h : Headers) (name : Bytes) : Option Bytes :=
  (h.fields.find? fun f => f.named name).map (·.value)

def separator : Bytes := [0x2C, 0x20]

def combined (h : Headers) (name : Bytes) : Bytes :=
  (h.values name).intersperse separator |>.flatten

def size (h : Headers) : Nat := h.fields.length

def at? (h : Headers) (i : Nat) : Option Field := h.fields[i]?

def text (h : Headers) : String :=
  let shown := fun bs => Text.quoted (Utf8.decodeLossy bs)
  "\x7b" ++ ", ".intercalate (h.fields.map fun f => shown f.name ++ ": " ++ shown f.value) ++ "\x7d"

/-! ## Changes -/

inductive Edit where
  | append (f : Field)
  | insert (i : Nat) (f : Field)
  | replace (i : Nat) (f : Field)
  | replaceOrAppend (f : Field)
  | removeAll (name : Bytes)
  | removeAt (i : Nat)
  | clear
  /-- Makes room for so many fields. -/
  | reserve (size : Nat)
deriving DecidableEq, Repr

def change? : Edit → Headers → Change
  | .append f, h => h.append f
  | .insert i f, h => h.insert i f
  | .replace i f, h => h.replace i f
  | .replaceOrAppend f, h => h.replaceOrAppend f
  | .removeAll name, h => some (h.removeAll name)
  | .removeAt i, h => h.removeAt? i
  | .clear, _ => some {}
  | .reserve _, h => some h

/-- An index is looked at before the list is opened only where a field is removed. -/
instance : Editable Headers Edit where
  change? := change?
  opens e h :=
    match e with
    | .removeAt i => decide (i < h.size)
    | _ => true

/-- The name that is refused, when a change comes to look at its field and finds it invalid. -/
def Edit.refusedName? : Edit → Headers → Option Bytes
  | .append f, _ | .replaceOrAppend f, _ => if f.checked?.isNone then some f.name else none
  | .insert i f, h => if i ≤ h.size ∧ f.checked?.isNone then some f.name else none
  | .replace i f, h => if i < h.size ∧ f.checked?.isNone then some f.name else none
  | _, _ => none

end Headers
end NetKit
