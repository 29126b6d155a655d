import NetKit.EventLoop
import NetKit.Json

/-!
Programs for event loops, written in JSON: a list of objects, each with what to do.
-/
namespace NetKit.Script

/-- What a field of an action can hold. -/
inductive Part where
  | text (s : String)
  | number (i : Int)
  | program (p : Option Program)
  | other

def Part.text? : Part → Option String
  | .text s => some s
  | _ => none

def Part.int? : Part → Option Int
  | .number i => some i
  | _ => none

def Part.nat? (p : Part) : Option Nat := p.int?.bind fun i => if 0 ≤ i then some i.toNat else none

def Part.program? : Part → Option Program
  | .program p => p
  | _ => none

/-- The action that its parts make. -/
def ofParts (parts : List (String × Part)) : Option Action := do
  let part (name : String) : Option Part := List.lookup name parts
  match ← (← part "do").text? with
  | "log" => return .log (← (← part "v").text?)
  | "post" => return .post (← (← part "actions").program?)
  | "exit" => return .exit (← (← part "code").int?)
  | "quit" => return .exit 0
  | "exec" => return .exec
  | "exec_timeout" => return .execTimeout (← (← part "ms").nat?)
  | "process" => return .process (← (← part "ms").nat?)
  | "exec_with" => return .execWith (← (← part "actions").program?)
  | _ => none

mutual
def part : Json → Part
  | .str s => .text s
  | .num n => (n.int?.map Part.number).getD .other
  | .arr items => .program (program? items)
  | _ => .other

def parts : List (String × Json) → List (String × Part)
  | [] => []
  | (name, j) :: rest => (name, part j) :: parts rest

def action? : Json → Option Action
  | .obj fields => ofParts (parts fields)
  | _ => none

def program? : List Json → Option Program
  | [] => some []
  | j :: rest => do return (← action? j) :: (← program? rest)
end

end NetKit.Script
