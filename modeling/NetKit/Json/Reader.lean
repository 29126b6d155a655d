import NetKit.Json

/-!
Reading JSON texts. One value fills a text, with blanks around it.
-/
namespace NetKit.Json.Reader

def isBlank (c : Char) : Bool := c == ' ' || c == '\n' || c == '\t' || c == '\r'

def skipBlanks (cs : List Char) : List Char := cs.dropWhile isBlank

/-- What follows a word. -/
def word (w cs : List Char) : Option (List Char) :=
  if w.isPrefixOf cs then some (cs.drop w.length) else none

/-! ## Strings -/

def hexValue? (c : Char) : Option Nat := Text.digitValue 16 c

/-- The character of an escape of one letter. -/
def escaped? : Char → Option Char
  | '"' => some '"'
  | '\\' => some '\\'
  | '/' => some '/'
  | 'b' => some '\x08'
  | 'f' => some '\x0c'
  | 'n' => some '\n'
  | 'r' => some '\r'
  | 't' => some '\t'
  | _ => none

/-- The units of a string up to its closing mark, in reverse, and what follows the mark. -/
def units : List Nat → List Char → Option (List Nat × List Char)
  | _, [] => none
  | acc, '"' :: rest => some (acc, rest)
  | acc, '\\' :: 'u' :: a :: b :: c :: d :: rest =>
    match hexValue? a, hexValue? b, hexValue? c, hexValue? d with
    | some a, some b, some c, some d => units ((((a * 16 + b) * 16 + c) * 16 + d) :: acc) rest
    | _, _, _, _ => none
  | acc, '\\' :: c :: rest =>
    match escaped? c with
    | some c => units (c.toNat :: acc) rest
    | none => none
  | acc, c :: rest => if c < ' ' || c = '\\' then none else units (c.toNat :: acc) rest

/-- A string without its opening mark; none inside for a string that is no text. -/
def string (cs : List Char) : Option (Option String × List Char) :=
  (units [] cs).map fun (us, rest) => ((Text.charsOfUnits us.reverse).map String.ofList, rest)

/-! ## Numbers -/

/-- One digit or more. -/
def digits (cs : List Char) : Option (List Char × List Char) :=
  let ds := cs.takeWhile Char.isDigit
  if ds.isEmpty then none else some (ds, cs.drop ds.length)

/-- Digits without a zero in front of others. -/
def wholePart (cs : List Char) : Option (List Char × List Char) :=
  match digits cs with
  | some ('0' :: _ :: _, _) => none
  | r => r

def fractionPart : List Char → Option (List Char × List Char)
  | '.' :: rest => digits rest
  | rest => some ([], rest)

def value (ds : List Char) : Nat := (Text.natOfDigits? 10 ds).getD 0

/-- The exponent; none inside when there is none. -/
def exponentPart : List Char → Option (Option Int × List Char)
  | c :: rest =>
    if c = 'e' ∨ c = 'E' then
      match rest with
      | '-' :: rest => (digits rest).map fun (ds, rest) => (some (-(value ds : Int)), rest)
      | '+' :: rest => (digits rest).map fun (ds, rest) => (some (value ds : Int), rest)
      | rest => (digits rest).map fun (ds, rest) => (some (value ds : Int), rest)
    else some (none, c :: rest)
  | [] => some (none, [])

def number (cs : List Char) : Option (Number × List Char) := do
  let (negative, cs) := match cs with
    | '-' :: rest => (true, rest)
    | _ => (false, cs)
  let (whole, cs) ← wholePart cs
  let (fraction, cs) ← fractionPart cs
  let (exponent, cs) ← exponentPart cs
  return ({ negative, digits := value (whole ++ fraction),
            exponent := exponent.getD 0 - fraction.length,
            whole := fraction.isEmpty && exponent.isNone }, cs)

/-! ## Values -/

mutual
def json : Nat → List Char → Option (Json × List Char)
  | 0, _ => none
  | n + 1, cs =>
    match skipBlanks cs with
    | 'n' :: rest => (word "ull".toList rest).map fun rest => (.null, rest)
    | 't' :: rest => (word "rue".toList rest).map fun rest => (.bool true, rest)
    | 'f' :: rest => (word "alse".toList rest).map fun rest => (.bool false, rest)
    | '"' :: rest =>
      (string rest).map fun (s, rest) =>
        (match s with
          | some s => .str s
          | none => .unpaired, rest)
    | '[' :: rest =>
      match skipBlanks rest with
      | ']' :: rest => some (.arr [], rest)
      | rest => (items n [] rest).map fun (items, rest) => (.arr items, rest)
    | '{' :: rest =>
      match skipBlanks rest with
      | '}' :: rest => some (.obj [], rest)
      | rest => (members n [] rest).map fun (fields, rest) => (.obj fields, rest)
    | rest => (number rest).map fun (number, rest) => (.num number, rest)

/-- The items up to the end of a list. -/
def items : Nat → List Json → List Char → Option (List Json × List Char)
  | 0, _, _ => none
  | n + 1, acc, cs => do
    let (j, cs) ← json n cs
    match skipBlanks cs with
    | ',' :: rest => items n (j :: acc) rest
    | ']' :: rest => return ((j :: acc).reverse, rest)
    | _ => none

/-- The members up to the end of an object. -/
def members : Nat → List (String × Json) → List Char →
    Option (List (String × Json) × List Char)
  | 0, _, _ => none
  | n + 1, acc, cs =>
    match skipBlanks cs with
    | '"' :: rest => do
      let (name, rest) ← string rest
      let name ← name
      match skipBlanks rest with
      | ':' :: rest => do
        let (j, rest) ← json n rest
        match skipBlanks rest with
        | ',' :: rest => members n ((name, j) :: acc) rest
        | '}' :: rest => return (((name, j) :: acc).reverse, rest)
        | _ => none
      | _ => none
    | _ => none
end

end Reader

/-- The value that a text holds. -/
def parse? (text : String) : Option Json :=
  let cs := text.toList
  match Reader.json (2 * cs.length + 2) cs with
  | some (j, rest) => if (Reader.skipBlanks rest).isEmpty then some j else none
  | none => none

end NetKit.Json
