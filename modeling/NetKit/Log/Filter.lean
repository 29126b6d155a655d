import NetKit.Log.Level
import NetKit.Text.Blank

/-!
Filters of log messages: directives with commas between, each with a level, a target, the name of an
activity in brackets, or a target or activity and a level after an equals sign.
-/
namespace NetKit.Log

structure Directive where
  target : String := ""
  span : Option String := none
  /-- The name or digit of the level that lets messages pass; every message passes without one. -/
  level : Option String := none
deriving DecidableEq, Repr

namespace Directive

def levelNames : List String :=
  ["trace", "debug", "info", "warn", "error", "off", "0", "1", "2", "3", "4", "5"]

def isLevel (cs : List Char) : Bool := levelNames.contains (String.ofList (cs.map Char.toLower))

def isTargetChar (c : Char) : Bool := c.isAlphanum || c == '_' || c == ':' || c == '-'

def isSpanChar (c : Char) : Bool :=
  isTargetChar c || c == '\x7b' || c == '\x7d' || c == '=' || c == ','

/-- A name in brackets with what follows it. -/
def span? (cs : List Char) : Option (List Char × List Char) :=
  match cs with
  | '[' :: rest =>
    let name := rest.takeWhile isSpanChar
    match rest.dropWhile isSpanChar with
    | ']' :: rest => some (name, rest)
    | _ => none
  | _ => none

/-- What may follow a target or an activity. -/
def level? : List Char → Option (Option String)
  | [] => some none
  | ['='] => some none
  | '=' :: cs => if isLevel cs then some (some (String.ofList cs)) else none
  | _ => none

def read? (cs : List Char) : Option Directive :=
  if isLevel cs then some { level := some (String.ofList cs) }
  else
    let target := cs.takeWhile isTargetChar
    let rest := cs.dropWhile isTargetChar
    match span? rest with
    | some (name, rest) =>
      (level? rest).map fun level =>
        { target := String.ofList target, span := some (String.ofList name), level }
    | none =>
      if target.isEmpty then none
      else (level? rest).map fun level => { target := String.ofList target, level }

end Directive

/-- The directives of a filter; empty ones are passed over. -/
def directives? (filter : String) : Option (List Directive) :=
  ((Text.splitBy (· == ',') filter.toList).filter fun p => !p.isEmpty).mapM Directive.read?

/-- The targets of the library's own messages. -/
def ownTargets : List String := ["netbridge", "core_runtime", "core_io", "bridge_native"]

/-- Own messages from a level on, others from warnings on. -/
def defaultFilter (level : Level) : String :=
  ",".intercalate ("warn" :: ownTargets.map fun t => t ++ "=" ++ level.text)

end NetKit.Log
