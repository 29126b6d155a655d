import NetKit.Text.Blank
import NetKit.Text.Search

/-!
Keeping secrets and mail addresses out of logs.
-/
namespace NetKit.Log

/-- A field is sensitive when its name in small letters contains one of these. -/
def sensitiveNames : List String :=
  ["password", "passphrase", "secret", "private_key", "token", "authorization", "cookie"]

/-- The small form of a letter, as far as it is one of ASCII. The Kelvin sign is a capital K. -/
def smallLetter (c : Char) : Char := if c = '\u212A' then 'k' else c.toLower

def isSensitive (field : String) : Bool :=
  sensitiveNames.any fun name => Text.occursIn name.toList (field.toList.map smallLetter)

/-- What may be logged of a field's value. Of a mail address only the first octet is kept; there is
no answer when that octet is not a character. -/
def redact? (field value : String) : Option String :=
  if isSensitive field then some "[REDACTED]"
  else
    match value.toList.takeWhile (· != '@') with
    | [] => some value
    | c :: _ =>
      if '.' ∈ value.toList.dropWhile (· != '@') then
        if c.toNat < 0x80 then some (String.ofList [c] ++ "***@[REDACTED]") else none
      else some value

def isSeparator (c : Char) : Bool := c == '/' || c == '\\'

/-- The last name of a path with slashes of either kind. -/
def baseName (path : String) : String :=
  String.ofList ((path.toList.reverse.takeWhile fun c => !isSeparator c).reverse)

end NetKit.Log
