import NetKit.Json.Reader
import NetKit.Log.Config

/-!
Settings: the part of a configuration that is plain data, and its form in JSON.
-/
namespace NetKit

structure Settings where
  logFormat : Option Log.Format := none
  logLevel : Option Log.Level := none
  logFilter : Option String := none
  reportContracts : Bool := false
  /-- In milliseconds. -/
  eventLoopTimeout : Option Nat := none
  trustedCertificates : Option String := none
deriving DecidableEq, Repr, Inhabited

namespace Settings

def partNames : List String :=
  ["log_format", "log_level", "log_filter", "report_contracts", "event_loop_timeout_ms",
    "trusted_certificates"]

def values (s : Settings) : List Json :=
  [Json.ofOption (fun f => .str f.key) s.logFormat, Json.ofOption (fun l => .str l.name) s.logLevel,
    Json.ofOption .str s.logFilter, .bool s.reportContracts,
    Json.ofOption Json.ofNat s.eventLoopTimeout, Json.ofOption .str s.trustedCertificates]

def json (s : Settings) : Json := .obj (partNames.zip s.values)

/-- Parts that are missing have their default values. -/
def ofJson? (j : Json) : Option Settings := do
  match ← Json.parts? partNames j with
  | [format, level, filter, report, timeout, trusted] =>
    return {
      logFormat := ← Json.optional? (fun j => j.memberName?.bind Log.Format.ofKey?) format
      logLevel := ← Json.optional? (fun j => j.memberName?.bind Log.Level.ofName?) level
      logFilter := ← Json.optional? Json.str? filter
      reportContracts := ← match report with
        | none => some false
        | some j => j.bool?
      eventLoopTimeout := ← Json.optional? Json.nat? timeout
      trustedCertificates := ← Json.optional? Json.str? trusted }
  | _ => none

def parse (text : String) : Except SetupError Settings :=
  match (Json.parse? text).bind ofJson? with
  | some s => .ok s
  | none => .error .invalidSettings

end Settings
end NetKit
