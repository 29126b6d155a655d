/-!
Text in units of sixteen bits, where a pair of surrogates stands for one character.
-/
namespace NetKit.Text

def isHighSurrogate (u : Nat) : Bool := 0xD800 ≤ u && u < 0xDC00

def isLowSurrogate (u : Nat) : Bool := 0xDC00 ≤ u && u < 0xE000

/-- The character of a pair of surrogates. -/
def pairChar (high low : Nat) : Char :=
  Char.ofNat (0x10000 + (high - 0xD800) * 0x400 + (low - 0xDC00))

/-- The characters that some units denote; none when a surrogate has no partner. Numbers above the
units stand for their own characters. -/
def charsOfUnits : List Nat → Option (List Char)
  | [] => some []
  | [u] => if isHighSurrogate u || isLowSurrogate u then none else some [Char.ofNat u]
  | u :: v :: rest =>
    if isHighSurrogate u then
      if isLowSurrogate v then (charsOfUnits rest).map (pairChar u v :: ·) else none
    else if isLowSurrogate u then none
    else (charsOfUnits (v :: rest)).map (Char.ofNat u :: ·)

/-- The units of a character. -/
def unitsOfChar (c : Char) : List Nat :=
  let n := c.toNat
  if n < 0x10000 then [n] else [0xD800 + (n - 0x10000) / 0x400, 0xDC00 + (n - 0x10000) % 0x400]

end NetKit.Text
