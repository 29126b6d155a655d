import NetKit.Json.Record
import NetKit.Log.Filter
import NetKit.SetupError
import NetKit.Text.Quoted

/-!
How log messages are written and filtered.
-/
namespace NetKit.Log

inductive Format where
  | pretty
  | json
  | compact
deriving DecidableEq, Repr, Inhabited

namespace Format

def all : List Format := [.pretty, .json, .compact]

def name : Format → String
  | .pretty => "Pretty"
  | .json => "Json"
  | .compact => "Compact"

/-- The name in settings. -/
def key : Format → String
  | .pretty => "pretty"
  | .json => "json"
  | .compact => "compact"

def ofKey? (s : String) : Option Format := all.find? fun f => f.key == s

end Format

structure Config where
  format : Format := .pretty
  level : Level := .info
  redacts : Bool := true
  /-- In place of the filter that the level gives. -/
  filter : Option String := none
  /-- Whether a sink gets the messages too. -/
  hasSink : Bool := false
  showsSpans : Bool := false
  showsTarget : Bool := true
  showsThread : Bool := false
deriving DecidableEq, Repr, Inhabited

namespace Config

def optionText : Option String → String
  | none => "None"
  | some s => "Some(" ++ Text.quoted s ++ ")"

def boolText (b : Bool) : String := if b then "true" else "false"

def text (c : Config) : String :=
  let sink := optionText (if c.hasSink then some "LoggerSink \x7b ... \x7d" else none)
  s!"LoggingConfig \x7b format: {c.format.name}, level: {c.level.name}, " ++
    s!"redact_pii: {boolText c.redacts}, filter: {optionText c.filter}, " ++
    s!"logger_sink: {sink}, enable_spans: {boolText c.showsSpans}, " ++
    s!"display_target: {boolText c.showsTarget}, " ++
    s!"display_thread_info: {boolText c.showsThread} \x7d"

def filterText (c : Config) : String := c.filter.getD (defaultFilter c.level)

/-- The directives by which messages are filtered. -/
def directives (c : Config) : Except SetupError (List Directive) :=
  match directives? c.filterText with
  | some ds => .ok ds
  | none => .error .invalidFilter

end Config
end NetKit.Log
