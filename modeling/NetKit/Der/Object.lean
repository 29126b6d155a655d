import NetKit.Der

/-!
Whole objects, with the elements inside their sequences.
-/
namespace NetKit.Der

inductive Object where
  | sequence (items : List Object)
  /-- A value that is known by its octets: integers, strings, and what has no universal tag. -/
  | octets (content : Bytes)
  | other
deriving Repr

namespace Object

/-- The elements that fill some octets. -/
def elements : Nat → Bytes → Except Fault (List Element)
  | _, [] => .ok []
  | 0, _ => .error .invalidLength
  | fuel + 1, bs => do
    let (e, rest) ← anyElement.run bs
    return e :: (← elements fuel rest)

/-- The tags of strings that hold text. -/
def isText (tag : Nat) : Bool :=
  [Tag.utf8String, Tag.numericString, Tag.printableString, 20, 21, Tag.ia5String, 25, 26, 27,
    7].contains tag

/-- An element, with those inside it up to a depth. -/
def ofElement : Nat → Element → Except Fault Object
  | 0, _ => .error .depth
  | depth + 1, e =>
    if e.header.tagClass ≠ .universal then .ok (.octets e.content)
    else if e.tag = Tag.sequence ∨ e.tag = Tag.set then
      if e.header.constructed then do
        let items ← (← elements e.content.length e.content).mapM (ofElement depth)
        return if e.tag = Tag.sequence then .sequence items else .other
      else .error .constructExpected
    else if e.tag = Tag.bitString then
      match e.content with
      | [] => .error .value
      | _ :: data => .ok (.octets data)
    else if e.tag = Tag.boolean then
      if e.content.length = 1 ∧ !e.header.constructed then .ok .other else .error .invalidLength
    else if [0, Tag.null, Tag.oid, Tag.relativeOid, Tag.enumerated, Tag.utcTime,
        Tag.generalizedTime].contains e.tag then .ok .other
    else if isText e.tag ∧ (Utf8.decode? e.content).isNone then .error .value
    else .ok (.octets e.content)

/-- The object that some octets are, with nothing after it. -/
def whole (bs : Bytes) : Except Fault (Object × Nat) := do
  let (e, rest) ← element.run bs
  return (← ofElement maxDepth e, rest.length)

def items? : Object → Option (List Object)
  | .sequence items => some items
  | _ => none

def octets? : Object → Option Bytes
  | .octets content => some content
  | _ => none

end Object
end NetKit.Der
