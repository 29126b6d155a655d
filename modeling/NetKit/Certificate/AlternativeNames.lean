import NetKit.Bisection
import NetKit.Coded
import NetKit.Handles
import NetKit.Text.Quoted
import NetKit.Text.Utf8

/-!
Alternative names of a subject: addresses of several kinds, several of each, grouped by kind and
visited by cursors.
-/
namespace NetKit

inductive NameKind where
  | email
  | dns
  | ip
deriving DecidableEq, Repr

instance : Coded NameKind where
  kind := "AlternativeNameEntryType"
  all := [.email, .dns, .ip]
  code
    | .email => 0
    | .dns => 1
    | .ip => 2
  name
    | .email => "EmailEntry"
    | .dns => "DnsEntry"
    | .ip => "IpAddressEntry"

def NameKind.rank : NameKind → Nat
  | .email => 0
  | .dns => 1
  | .ip => 2

structure AlternativeName where
  kind : NameKind
  value : Bytes
deriving DecidableEq, Repr

/-- Names in the order of their kinds. -/
structure AlternativeNames where
  entries : List AlternativeName := []
deriving DecidableEq, Repr, Inhabited

namespace AlternativeNames

/-- Groups names by kind; names of one kind keep their order. -/
def ofList (names : List AlternativeName) : AlternativeNames :=
  ⟨names.mergeSort fun a b => a.kind.rank ≤ b.kind.rank⟩

def size (m : AlternativeNames) : Nat := m.entries.length

/-- The names of a kind: those that follow the lower kinds, up to the higher ones. -/
def group (m : AlternativeNames) (k : NameKind) : List AlternativeName :=
  let start := Bisection.partitionPoint (fun n => n.kind.rank < k.rank) m.entries
  let stop := Bisection.partitionPoint (fun n => n.kind.rank ≤ k.rank) m.entries
  (m.entries.take stop).drop start

def contains (m : AlternativeNames) (k : NameKind) : Bool := !(m.group k).isEmpty

def values (m : AlternativeNames) (k : NameKind) : List Bytes := (m.group k).map (·.value)

def text (m : AlternativeNames) : String :=
  let entry (n : AlternativeName) : String :=
    "(" ++ Coded.name n.kind ++ ", " ++ Text.quoted (Utf8.decodeLossy n.value) ++ ")"
  "[" ++ ", ".intercalate (m.entries.map entry) ++ "]"

inductive Edit where
deriving DecidableEq, Repr

instance : Editable AlternativeNames Edit where
  change? e := nomatch e

/-! ## Cursors -/

/-- A place among some names: at a name, one slot in front of the first, or at the end. -/
structure Cursor where
  entries : List AlternativeName
  position : Int := -1
deriving DecidableEq, Repr

namespace Cursor

def atEnd (c : Cursor) : Bool := c.position == c.entries.length

/-- The name that the cursor is at. -/
def current? (c : Cursor) : Option AlternativeName :=
  if c.position < 0 then none else c.entries[c.position.toNat]?

/-- Moves to the next name; tells whether there is one. At the end the cursor stays. -/
def advance (c : Cursor) : Bool × Cursor :=
  if c.atEnd then (false, c)
  else
    let next := { c with position := c.position + 1 }
    (!next.atEnd, next)

/-- How many names after the place have the kind of the one at it. -/
def restOfGroup (c : Cursor) (k : NameKind) : Nat :=
  ((c.entries.drop (c.position + 1).toNat).takeWhile fun n => n.kind == k).length

/-- Moves to the last name of the next group; tells whether there is one. -/
def advanceKey (c : Cursor) : Bool × Cursor :=
  let (found, next) := c.advance
  match found, next.current? with
  | true, some n => (true, { next with position := next.position + next.restOfGroup n.kind })
  | _, _ => (found, next)

/-- What a cursor gives after so many calls at most, by a way to move and a view. -/
def collect {α : Type} (move : Cursor → Bool × Cursor) (view : AlternativeName → α) :
    Nat → Cursor → List α
  | 0, _ => []
  | fuel + 1, c =>
    match move c with
    | (false, _) => []
    | (true, next) =>
      match next.current? with
      | none => []
      | some n => view n :: collect move view fuel next

end Cursor

def cursor (m : AlternativeNames) : Cursor := { entries := m.entries }

def groupCursor (m : AlternativeNames) (k : NameKind) : Cursor := { entries := m.group k }

/-- The kinds that occur, each once. -/
def keys (m : AlternativeNames) : List NameKind :=
  Cursor.collect Cursor.advanceKey (·.kind) (m.size + 1) m.cursor

/-! ## Walks -/

/-- What a walk meets. -/
inductive Item where
  | entry (n : AlternativeName)
  | key (k : NameKind)
  | value (bs : Bytes)
deriving DecidableEq, Repr

/-- A walk over some names, over the kinds that occur among them, or over their values. -/
inductive Walk where
  | entries (c : Cursor)
  | keys (c : Cursor)
  | values (c : Cursor)
deriving DecidableEq, Repr

/-- What a walk meets next; none from its end on. -/
def Walk.next : Walk → Option Item × Walk
  | .entries c =>
    let (found, c) := c.advance
    (if found then c.current?.map .entry else none, .entries c)
  | .keys c =>
    let (found, c) := c.advanceKey
    (if found then c.current?.map fun n => .key n.kind else none, .keys c)
  | .values c =>
    let (found, c) := c.advance
    (if found then c.current?.map fun n => .value n.value else none, .values c)

def walk (m : AlternativeNames) : Walk := .entries m.cursor

def keyWalk (m : AlternativeNames) : Walk := .keys m.cursor

/-- A walk over the values of one kind. -/
def valueWalk (m : AlternativeNames) (k : NameKind) : Walk := .values (m.groupCursor k)

end AlternativeNames
end NetKit
