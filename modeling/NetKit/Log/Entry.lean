import NetKit.Instant
import NetKit.Json.Record
import NetKit.Log.Level

/-!
Log entries, and their form in JSON.
-/
namespace NetKit.Log

structure Entry where
  level : Level
  timestamp : Instant
  target : String
  message : String
  /-- Values by name; no name comes twice. -/
  fields : List (String × String) := []
  /-- The innermost activity during which the entry was made. -/
  span : Option String := none
deriving DecidableEq, Repr

namespace Entry

/-- Adds a value, in place of one of the same name. -/
def putField (fields : List (String × String)) (name value : String) : List (String × String) :=
  fields.filter (·.1 != name) ++ [(name, value)]

def withField (e : Entry) (name value : String) : Entry :=
  { e with fields := putField e.fields name value }

def withFields (e : Entry) (fields : List (String × String)) : Entry :=
  fields.foldl (fun e f => e.withField f.1 f.2) e

def fieldsJson (fields : List (String × String)) : Json :=
  .obj (fields.map fun f => (f.1, .str f.2))

def json (e : Entry) : Json :=
  .obj [("level", .str e.level.name), ("timestamp", .str e.timestamp.text),
    ("target", .str e.target), ("message", .str e.message), ("fields", fieldsJson e.fields),
    ("span_id", Json.ofOption .str e.span)]

def partNames : List String := ["level", "timestamp", "target", "message", "fields", "span_id"]

/-- Every part has to be there, but an object may leave the span out. -/
def ofJson? (j : Json) : Option Entry := do
  if let .arr items := j then guard (items.length = partNames.length)
  match ← Json.parts? partNames j with
  | [level, timestamp, target, message, fields, span] =>
    let entry : Entry :=
      { level := ← Level.ofName? (← Json.memberName? (← level))
        timestamp := ← Instant.parse? (← (← timestamp).str?).toList
        target := ← (← target).str?
        message := ← (← message).str?
        span := ← Json.optional? Json.str? span }
    return entry.withFields (← Json.texts? (← fields))
  | _ => none

end Entry
end NetKit.Log
