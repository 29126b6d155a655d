import NetKit.Text.Utf8

/-!
Elements of the distinguished encoding: a class, a tag, a length, and that many octets of content.
-/
namespace NetKit.Der

inductive TagClass where
  | universal
  | application
  | contextSpecific
  | privateUse
deriving DecidableEq, Repr

/-- Tag numbers of the universal class. -/
def Tag.boolean : Nat := 1
def Tag.integer : Nat := 2
def Tag.bitString : Nat := 3
def Tag.octetString : Nat := 4
def Tag.null : Nat := 5
def Tag.oid : Nat := 6
def Tag.enumerated : Nat := 10
def Tag.utf8String : Nat := 12
def Tag.relativeOid : Nat := 13
def Tag.sequence : Nat := 16
def Tag.set : Nat := 17
def Tag.numericString : Nat := 18
def Tag.printableString : Nat := 19
def Tag.ia5String : Nat := 22
def Tag.utcTime : Nat := 23
def Tag.generalizedTime : Nat := 24
def Tag.bmpString : Nat := 30

structure Header where
  tagClass : TagClass
  constructed : Bool
  tag : Nat
  /-- None for an indefinite length. -/
  length : Option Nat
deriving DecidableEq, Repr

structure Element where
  header : Header
  content : Bytes
deriving DecidableEq, Repr

namespace Element

def tag (e : Element) : Nat := e.header.tag

def isContext (e : Element) (tag : Nat) : Bool :=
  e.header.tagClass == .contextSpecific && e.header.tag == tag

end Element

/-- Why octets are no element, or not the element looked for. -/
inductive Fault where
  /-- So many octets are missing at least. -/
  | incomplete (missing : Nat)
  | invalidLength
  | invalidTag
  | unexpectedTag (expected : Option Nat) (actual : Nat)
  | unexpectedClass
  | indefiniteLength
  | constructExpected
  | constructUnexpected
  | integerNegative
  | integerTooLarge
  | integerForm
  | depth
  | unusedBits
  | type
  | value
  /-- Something is left over where nothing may follow. -/
  | notAtEnd
deriving DecidableEq, Repr

namespace Fault

def tagText (n : Nat) : String := s!"Tag({n})"

/-- The cause by name. -/
def causeText : Fault → String
  | .incomplete n => s!"Incomplete(Size({n}))"
  | .invalidLength => "InvalidLength"
  | .invalidTag => "InvalidTag"
  | .unexpectedTag expected actual =>
    let e := match expected with
      | none => "None"
      | some t => s!"Some({tagText t})"
    s!"UnexpectedTag \x7b expected: {e}, actual: {tagText actual} \x7d"
  | .unexpectedClass => "UnexpectedClass"
  | .indefiniteLength => "DerConstraintFailed(IndefiniteLength)"
  | .constructExpected => "ConstructExpected"
  | .constructUnexpected => "ConstructUnexpected"
  | .integerNegative => "IntegerNegative"
  | .integerTooLarge => "IntegerTooLarge"
  | .integerForm => "DerConstraintFailed(IntegerLeadingZeroes)"
  | .depth => "BerMaxDepth"
  | .unusedBits => "DerConstraintFailed(UnusedBitsNotZero)"
  | .type => "BerTypeError"
  | .value => "BerValueError"
  | .notAtEnd => "NomError(Eof)"

/-- What a failed reading says; `wrap` dresses the cause. -/
def readingText (wrap : String → String) : Fault → String
  | .incomplete n => s!"Parsing requires {n} bytes/chars"
  | f => "Parsing Error: " ++ wrap f.causeText

def text (f : Fault) : String := readingText id f

end Fault

/-- What has been read, and what follows it. -/
abbrev Reader (ε : Type) := StateT Bytes (Except ε)

/-! ## Headers -/

/-- The longest tag number has five digits of seven bits. -/
def maxTagDigits : Nat := 5

/-- Digits of base 128, the last one without its high bit. -/
def readTag : Nat → Nat → Bytes → Except Fault (Nat × Bytes)
  | _, _, [] => .error .invalidTag
  | 0, _, _ => .error .invalidTag
  | n + 1, acc, b :: rest =>
    let acc := (acc * 128 + b.toNat % 128) % UInt32.size
    if b < 0x80 then .ok (acc, rest) else readTag n acc rest

def classOf (b : UInt8) : TagClass :=
  match b.toNat / 64 with
  | 0 => .universal
  | 1 => .application
  | 2 => .contextSpecific
  | _ => .privateUse

def ofBigEndian (bs : Bytes) : Nat := bs.foldl (fun n b => n * 256 + b.toNat) 0

/-- Takes so many octets off the front. -/
def take (n : Nat) (bs : Bytes) : Except Fault (Bytes × Bytes) :=
  if n ≤ bs.length then .ok (bs.take n, bs.drop n) else .error (.incomplete (n - bs.length))

/-- One octet below 128, or a count of octets and the length in so many. -/
def readLength : Bytes → Except Fault (Option Nat × Bytes)
  | [] => .error (.incomplete 1)
  | b :: rest =>
    if b < 0x80 then .ok (some b.toNat, rest)
    else if b = 0x80 then .ok (none, rest)
    else if b = 0xFF then .error .invalidLength
    else do
      let (digits, rest) ← take (b.toNat - 0x80) rest
      let n := ofBigEndian digits
      if n < UInt64.size then return (some n, rest) else throw .invalidLength

def readHeader : Bytes → Except Fault (Header × Bytes)
  | [] => .error (.incomplete 1)
  | b :: rest => do
    let (tag, rest) ←
      if b.toNat % 32 = 31 then readTag maxTagDigits 0 rest else pure (b.toNat % 32, rest)
    let (length, rest) ← readLength rest
    return (⟨classOf b, b.toNat / 32 % 2 == 1, tag, length⟩, rest)

/-- The definite length of a header. -/
def Header.definite (h : Header) : Except Fault Nat :=
  match h.length with
  | some n => .ok n
  | none => .error .indefiniteLength

/-! ## Elements -/

/-- One element of definite length. -/
def element : Reader Fault Element := fun bs => do
  let (h, rest) ← readHeader bs
  let (content, rest) ← take (← h.definite) rest
  return (⟨h, content⟩, rest)

/-- How deep elements of indefinite length may be nested. -/
def maxDepth : Nat := 50

/-- What follows the end marks of so many elements of indefinite length. -/
def skipOpen : Nat → Nat → Bytes → Except Fault Bytes
  | _, 0, bs => .ok bs
  | 0, _, _ => .error (.incomplete 1)
  | fuel + 1, opened + 1, bs =>
    if maxDepth ≤ opened + 1 then .error .depth
    else do
      let (h, rest) ← readHeader bs
      match h.length with
      | none => if h.constructed then skipOpen fuel (opened + 2) rest else throw .constructExpected
      | some n =>
        if n = 0 ∧ h.tag = 0 then skipOpen fuel opened rest
        else skipOpen fuel (opened + 1) (← take n rest).2

/-- One element, of a definite length or closed by an end mark. -/
def anyElement : Reader Fault Element := fun bs => do
  let (h, rest) ← readHeader bs
  match h.length with
  | some n =>
    let (content, rest) ← take n rest
    return (⟨h, content⟩, rest)
  | none =>
    unless h.constructed do throw .constructExpected
    let after ← skipOpen rest.length 1 rest
    return (⟨h, rest.take (rest.length - after.length - 2)⟩, after)

/-- An element with the tag number, of whatever class. -/
def tagged (tag : Nat) : Reader Fault Element := do
  let e ← element
  if e.tag = tag then return e else throw (.unexpectedTag (some tag) e.tag)

/-- Applies a reader to the content of a sequence. Octets that it leaves are passed over. -/
def within (tag : Nat) {ε α : Type} (wrap : Fault → ε) (r : Reader ε α) : Reader ε α :=
  fun bs => do
    let (e, rest) ← ((tagged tag).run bs).mapError wrap
    let (a, _) ← r.run e.content
    return (a, rest)

/-- Reads as often as the reader succeeds; stops in front of what it refuses. -/
def many {ε α : Type} (r : Reader ε α) : Nat → Bytes → List α × Bytes
  | 0, bs => ([], bs)
  | fuel + 1, bs =>
    match r.run bs with
    | .error _ => ([], bs)
    | .ok (a, rest) =>
      if rest.length < bs.length then
        let (as, rest) := many r fuel rest
        (a :: as, rest)
      else ([], bs)

/-! ## Primitive values -/

/-- A primitive element with the tag. -/
def primitive (tag : Nat) : Reader Fault Bytes := do
  let e ← tagged tag
  if e.header.constructed then throw .constructUnexpected else return e.content

def octetString : Reader Fault Bytes := primitive Tag.octetString

/-- Whether an integer has no octet too many: its first octet is not its sign repeated. -/
def isShortest : Bytes → Bool
  | [] => false
  | [_] => true
  | a :: b :: _ => !(a == 0 && b < 0x80) && !(a == 0xFF && 0x80 ≤ b)

/-- The octets of an integer. -/
def integer : Reader Fault Bytes := do
  let e ← tagged Tag.integer
  if isShortest e.content then return e.content else throw .integerForm

/-- How many low bits of an octet are zero. -/
def trailingZeros (b : UInt8) : Nat :=
  ((List.range 8).takeWhile fun i => b.toNat >>> i % 2 == 0).length

/-- The octets of a bit string: a count of unused bits, which are zero, and the bits. -/
def bits : Bytes → Except Fault Bytes
  | [] => .error .invalidLength
  | [unused] => if unused = 0 then .ok [] else .error .invalidLength
  | unused :: b :: rest =>
    if unused.toNat ≤ trailingZeros ((b :: rest).getLast?.getD 0) then .ok (b :: rest)
    else .error .unusedBits

def bitString : Reader Fault Bytes := do
  let e ← tagged Tag.bitString
  if e.header.constructed then throw .constructUnexpected
  bits e.content

/-- A number in its shortest form that fits 32 bits. -/
def nat32 (e : Element) : Except Fault Nat :=
  if e.tag ≠ Tag.integer then .error (.unexpectedTag (some Tag.integer) e.tag)
  else if e.header.constructed then .error .constructUnexpected
  else match e.content with
    | [] => .error .integerForm
    | b :: rest =>
      if b = 0 ∧ rest.head?.any (· < 0x80) then .error .integerForm
      else if 0x80 ≤ b then .error .integerNegative
      else if ofBigEndian (b :: rest) < UInt32.size then .ok (ofBigEndian (b :: rest))
      else .error .integerTooLarge

end NetKit.Der
