import NetKit.Text.Blank
import NetKit.Text.Printable
import NetKit.Url.Punycode

/-!
Domain names in the ASCII form used for look-ups: lower case, with labels outside ASCII in
Punycode.
-/
namespace NetKit.Domain

/-- Characters that a host name cannot hold. -/
def isForbidden (c : Char) : Bool :=
  c.toNat ≤ 0x20 || c.toNat == 0x7F || "%#/:<>?@[\\]^|".toList.contains c

/-- Characters that are left out of names: soft hyphens, joiners, variation selectors. -/
def isIgnored (c : Char) : Bool :=
  let n := c.toNat
  n == 0xAD || n == 0x200B || n == 0x2060 || n == 0x2064 || n == 0xFEFF || (0xFE00 ≤ n && n ≤ 0xFE0F)

/-- The small letter of a capital, in ASCII and in the blocks of Latin, Greek, Cyrillic and Armenian
letters. The mapping that the URL standard prescribes for host names knows more characters. -/
def toSmall (c : Char) : Char :=
  let n := c.toNat
  let up := fun d => Char.ofNat (n + d)
  if 0x41 ≤ n ∧ n ≤ 0x5A then up 32
  else if 0xC0 ≤ n ∧ n ≤ 0xDE ∧ n ≠ 0xD7 then up 32
  else if 0x100 ≤ n ∧ n ≤ 0x137 ∧ n % 2 = 0 ∧ n ≠ 0x130 then up 1
  else if 0x139 ≤ n ∧ n ≤ 0x148 ∧ n % 2 = 1 then up 1
  else if 0x14A ≤ n ∧ n ≤ 0x177 ∧ n % 2 = 0 then up 1
  else if n = 0x178 then Char.ofNat 0xFF
  else if 0x391 ≤ n ∧ n ≤ 0x3AB ∧ n ≠ 0x3A2 then up 32
  else if 0x410 ≤ n ∧ n ≤ 0x42F then up 32
  else if 0x400 ≤ n ∧ n ≤ 0x40F then up 80
  else if 0x460 ≤ n ∧ n ≤ 0x481 ∧ n % 2 = 0 then up 1
  else if 0x531 ≤ n ∧ n ≤ 0x556 then up 48
  else if 0x1E00 ≤ n ∧ n ≤ 0x1EFF ∧ n % 2 = 0 ∧ ¬(0x1E96 ≤ n ∧ n ≤ 0x1E9F) then up 1
  else c

/-- Wide forms are narrowed, full stops of other scripts become dots, capitals small letters. -/
def mapChar (c : Char) : Char :=
  let n := c.toNat
  if n = 0x3002 ∨ n = 0xFF61 then '.'
  else if 0xFF01 ≤ n ∧ n ≤ 0xFF5E then toSmall (Char.ofNat (n - 0xFEE0))
  else toSmall c

def isAscii (cs : List Char) : Bool := cs.all fun c => c.toNat < 0x80

/-- Whether a character outside ASCII may stand in a label. The tables that the URL standard goes by
refuse more of them, and whole labels for how their characters meet. -/
def isLabelChar (c : Char) : Bool := c.toNat < 0x80 || (Text.isPrintable c && !Text.isBlank c)

def startsEncoded (label : List Char) : Bool := ['x', 'n', '-', '-'].isPrefixOf label

/-- A label in its ASCII form. A label that claims to be one already has to decode to more than
ASCII and encode to itself again. -/
def labelToAscii? (label : List Char) : Option (List Char) :=
  if isAscii label then
    if startsEncoded label then do
      let decoded ← Punycode.decode? (label.drop 4)
      if isAscii decoded || Punycode.encode decoded != label.drop 4 then none else some label
    else some label
  else if label.all isLabelChar then some (['x', 'n', '-', '-'] ++ Punycode.encode label)
  else none

def toAscii? (name : List Char) : Option (List Char) := do
  let mapped := (name.filter (!isIgnored ·)).map mapChar
  let labels ← (Text.splitBy (· == '.') mapped).mapM labelToAscii?
  let ascii := ['.'].intercalate labels
  if ascii.any isForbidden then none else some ascii

end NetKit.Domain
