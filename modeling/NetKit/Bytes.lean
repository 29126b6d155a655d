import NetKit.Handles
import NetKit.Text.Number
import NetKit.Text.Quoted
import NetKit.Text.Utf8

/-!
Octet strings: their hexadecimal form, and the quoted text that shows one.
-/
namespace NetKit.Bytes

def hexDigit (n : Nat) : Char := Nat.digitChar n

/-- Two lower-case digits for each octet. -/
def hex (bs : Bytes) : String :=
  String.ofList (bs.flatMap fun b => [hexDigit (b.toNat / 16), hexDigit (b.toNat % 16)])

/-- The octets that pairs of hexadecimal digits stand for. -/
def ofHexDigits? : List Char → Option Bytes
  | [] => some []
  | a :: b :: rest => do
    return UInt8.ofNat ((← Text.digitValue 16 a) * 16 + (← Text.digitValue 16 b)) ::
      (← ofHexDigits? rest)
  | _ => none

/-- Octets written over others from an offset on; a gap before the offset is filled with zeros. -/
def overwrite (old : Bytes) (offset : Nat) (bs : Bytes) : Bytes :=
  (old ++ List.replicate (offset - old.length) 0).take offset ++ bs ++
    old.drop (offset + bs.length)

/-- Shows octets as text, with the name of what holds them. -/
def text (holder : String) (bs : Bytes) : String :=
  holder ++ "(" ++ Text.quoted (Utf8.decodeLossy bs) ++ ")"

inductive Edit where
  | append (data : Bytes)
  /-- Appends a copy of its own octets. -/
  | double
  | clear
deriving DecidableEq, Repr

instance : Editable Bytes Edit where
  change?
    | .append data, bs => some (bs ++ data)
    | .double, bs => some (bs ++ bs)
    | .clear, _ => some []

def ofString (s : String) : Bytes := Utf8.encode s

end NetKit.Bytes
