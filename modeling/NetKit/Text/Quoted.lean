import NetKit.Text.Printable

/-!
Text in double quotes: a backslash, a quote and what has no printed form are escaped, so the
quoted form is one printable line.
-/
namespace NetKit.Text

/-- Lower-case digits of a number in base sixteen, without leading zeros. -/
def hexDigits (n : Nat) : List Char := Nat.toDigits 16 n

/-- A code point as `\u\x7b...\x7d`. -/
def escapeCode (c : Char) : List Char :=
  ['\\', 'u', '\x7b'] ++ hexDigits c.toNat ++ ['\x7d']

def escapeChar (c : Char) : List Char :=
  match c with
  | '\x00' => ['\\', '0']
  | '\t' => ['\\', 't']
  | '\r' => ['\\', 'r']
  | '\n' => ['\\', 'n']
  | '\\' => ['\\', '\\']
  | '"' => ['\\', '"']
  | _ =>
    if 0x20 ≤ c.toNat ∧ c.toNat < 0x7F then [c]
    else if isGraphemeExtend c then escapeCode c
    else if isPrintable c then [c]
    else escapeCode c

def quoted (s : String) : String :=
  String.ofList ('"' :: s.toList.flatMap escapeChar ++ ['"'])

end NetKit.Text
