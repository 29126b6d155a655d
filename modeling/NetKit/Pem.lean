import NetKit.Base64
import NetKit.Text.Blank
import NetKit.Text.Search

/-!
Labelled blocks of octets in text: a line that begins the block, lines of base 64, and a line that
ends it.
-/
namespace NetKit.Pem

structure Block where
  label : String
  contents : Bytes
deriving DecidableEq, Repr

/-- Why a block that has begun cannot be read. -/
inductive Fault where
  /-- A line is not UTF-8. -/
  | unreadable
  | header
  | incomplete
  | base64
deriving DecidableEq, Repr

def Fault.message : Fault → String
  | .unreadable => "IO error: stream did not contain valid UTF-8"
  | .header => "invalid header"
  | .incomplete => "incomplete PEM"
  | .base64 => "base64 decode error"

/-! ## Writing -/

def lineWidth : Nat := 64

/-- Pieces of the width, the last one maybe shorter. -/
def chunks : Nat → List Char → List (List Char)
  | _, [] => []
  | 0, cs => [cs]
  | fuel + 1, cs => cs.take lineWidth :: chunks fuel (cs.drop lineWidth)

def dashes : List Char := "-----".toList

def beginLine (label : List Char) : List Char := dashes ++ "BEGIN ".toList ++ label ++ dashes

def endLine (label : List Char) : List Char := dashes ++ "END ".toList ++ label ++ dashes

/-- The block with lines of 64 columns, each ended by a line feed. -/
def encode (b : Block) : String :=
  let body := Base64.encode b.contents
  let lines := beginLine b.label.toList :: chunks body.length body ++ [endLine b.label.toList]
  String.ofList (lines.flatMap fun l => l ++ ['\n'])

/-! ## Reading -/

/-- A line, if it is text. -/
abbrev Line := Option (List Char)

/-- The lines of some octets. The line feed after the last one may be missing. -/
def lines (bs : Bytes) : List Line :=
  let pieces := Text.splitBy (· == 0x0A) bs
  let pieces := if pieces.getLast? == some [] then pieces.dropLast else pieces
  pieces.map fun l => (Utf8.decode? l).map String.toList

def startsBlock (l : List Char) : Bool := (dashes ++ "BEGIN ".toList).isPrefixOf l

def endsBlock (l : List Char) : Bool := (dashes ++ "END ".toList).isPrefixOf l

/-- What a beginning line says up to its next dash, when five dashes come after it. -/
def label? (l : List Char) : Option (List Char) :=
  let rest := l.drop 11
  if Text.occursIn dashes rest then some (rest.takeWhile (· != '-')) else none

/-- The base 64 of a block without the blanks at the ends of its lines, and the lines after it. -/
def body : List Line → Except Fault (List Char) × List Line
  | [] => (.error .incomplete, [])
  | none :: rest => (.error .unreadable, rest)
  | some l :: rest =>
    if endsBlock l then (.ok [], rest)
    else
      let (r, rest) := body rest
      (r.map (Text.dropWhileEnd Text.isBlank l ++ ·), rest)

theorem body_length_le (ls : List Line) : (body ls).2.length ≤ ls.length := by
  induction ls with
  | nil => simp [body]
  | cons l rest ih =>
    cases l with
    | none => simp [body]
    | some l =>
      unfold body
      split
      · simp
      · exact Nat.le_succ_of_le ih

/-- A block whose beginning line has been taken off, and the lines after it. -/
def block (first : List Char) (rest : List Line) : Except Fault Block × List Line :=
  match label? first with
  | none => (.error .header, rest)
  | some label =>
    let (r, rest) := body rest
    (r.bind fun text =>
      match Base64.decode? text with
      | some contents => .ok ⟨String.ofList label, contents⟩
      | none => .error .base64, rest)

theorem block_length_le (first : List Char) (rest : List Line) :
    (block first rest).2.length ≤ rest.length := by
  unfold block
  split
  · simp
  · exact body_length_le rest

/-- The blocks of some lines in order; lines between blocks are passed over. -/
def read : List Line → List (Except Fault Block)
  | [] => []
  | none :: rest => .error .unreadable :: read rest
  | some l :: rest =>
    have := block_length_le l rest
    if startsBlock l then (block l rest).1 :: read (block l rest).2 else read rest
termination_by ls => ls.length

def decode (bs : Bytes) : List (Except Fault Block) := read (lines bs)

end NetKit.Pem
