import NetKit.Log.Entry
import NetKit.Log.Note
import NetKit.Log.Redaction
import NetKit.Text.Quoted
import NetKit.Text.Shortest

/-!
Handing events on to a sink as log entries.
-/
namespace NetKit.Log

/-- A value that was recorded with an event. -/
inductive Value where
  | text (s : String)
  /-- Text that is shown in quotes. -/
  | quoted (s : String)
  | int (i : Int)
  | float (x : Float)
  | bool (b : Bool)

def Value.shown : Value → String
  | .text s => s
  | .quoted s => Text.quoted s
  | .int i => Text.signed i
  | .float x => Text.float x
  | .bool b => if b then "true" else "false"

structure Event where
  level : Level := .info
  target : String
  /-- What stands for the message of an event without one. -/
  name : String
  values : List (String × Value) := []
  span : Option String := none

def Event.ofNote (n : Note) : Event where
  level := n.level
  target := n.target
  name := ""
  values := ("message", .text n.message) :: n.fields.map fun f => (f.1, .text f.2)

/-- The message of an event is the value of that name. -/
def Event.message (e : Event) : String :=
  ((e.values.filter (·.1 == "message")).getLast?.map (·.2.shown)).getD e.name

/-- The values but for the message. -/
def Event.data (e : Event) : List (String × Value) := e.values.filter (·.1 != "message")

/-- Of the values that were recorded under one name the last is kept. -/
def fieldsOf (values : List (String × Value)) : List (String × String) :=
  values.foldl (fun fields v => Entry.putField fields v.1 v.2.shown) []

/-- What takes entries. A broken sink keeps none. -/
structure Sink where
  minLevel : Level := .info
  broken : Bool := false
deriving DecidableEq, Repr

/-- Forwards events to a sink, if there is one. -/
structure Forwarding where
  sink : Option Sink := some {}
  redacts : Bool := true
  now : Instant
deriving DecidableEq, Repr

namespace Forwarding

/-- A field as the sink may see it; none when its value cannot be redacted. -/
def field? (f : Forwarding) (v : String × String) : Option (String × String) :=
  if f.redacts then (redact? v.1 v.2).map fun value => (v.1, value) else some v

def entryOf? (f : Forwarding) (e : Event) : Option Entry := do
  let entry : Entry :=
    { level := e.level, timestamp := f.now, target := e.target, message := e.message,
      span := e.span }
  let fields ← (fieldsOf e.data).mapM f.field?
  return entry.withFields fields

/-- The entries that are handed to the sink for some events. Those below its level are passed
over. -/
def forward? (f : Forwarding) (events : List Event) : Option (List Entry) :=
  match f.sink with
  | none => some []
  | some sink => (events.filter fun e => sink.minLevel ≤ e.level).mapM f.entryOf?

/-- The entries that a sink keeps of some events. -/
def deliver? (f : Forwarding) (events : List Event) : Option (List Entry) :=
  (f.forward? events).map fun es => if (f.sink.map (·.broken)).getD false then [] else es

end Forwarding
end NetKit.Log
