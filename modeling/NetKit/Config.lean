import NetKit.Deadline
import NetKit.Settings
import NetKit.Storage

/-!
Configurations: built call by call, checked once, and read back as settings.
-/
namespace NetKit
namespace Span

def isZero (d : Span) : Bool := d.secs == 0 && d.nanos == 0

def ofMillis (ms : Nat) : Span := ⟨ms / 1000, ms % 1000 * 1000000⟩

/-- Whole milliseconds. -/
def millis (d : Span) : Nat := d.secs * 1000 + d.nanos / 1000000

/-- A number with a fraction of so many digits, without the zeros at its end. -/
def decimalText (whole fraction digits : Nat) : String :=
  let ds := Text.dropWhileEnd (· == '0') (if digits = 0 then [] else Text.padded digits fraction)
  String.ofList (Text.decimal whole ++ if ds.isEmpty then [] else '.' :: ds)

/-- The number of seconds, or of the largest smaller unit that the span reaches. -/
def text (d : Span) : String :=
  if 0 < d.secs then decimalText d.secs d.nanos 9 ++ "s"
  else if 1000000 ≤ d.nanos then decimalText (d.nanos / 1000000) (d.nanos % 1000000) 6 ++ "ms"
  else if 1000 ≤ d.nanos then decimalText (d.nanos / 1000) (d.nanos % 1000) 3 ++ "µs"
  else decimalText d.nanos 0 0 ++ "ns"

end Span

structure Config where
  logging : Log.Config := {}
  /-- Whether the layout of every value type is logged at the start. -/
  reportContracts : Bool := false
  /-- How long an event loop waits; none waits for ever. -/
  eventLoopTimeout : Option Span := none
  /-- A file with certificates that are trusted. -/
  trustedCertificates : Option String := none
deriving DecidableEq, Repr, Inhabited

namespace Config

/-- A step in building a configuration. -/
inductive Step where
  | logging (c : Log.Config)
  | reportContracts (enabled : Bool)
  | timeout (d : Span)
  | trusted (path : String)
  | settings (s : Settings)
deriving DecidableEq, Repr

/-- Lays settings over a configuration. What is unset stays, but for the report on contracts. -/
def overlay (c : Config) (s : Settings) : Config where
  logging :=
    { c.logging with
      format := s.logFormat.getD c.logging.format
      level := s.logLevel.getD c.logging.level
      filter := s.logFilter.orElse fun _ => c.logging.filter }
  reportContracts := s.reportContracts
  eventLoopTimeout := (s.eventLoopTimeout.map Span.ofMillis).orElse fun _ => c.eventLoopTimeout
  trustedCertificates := s.trustedCertificates.orElse fun _ => c.trustedCertificates

def apply (c : Config) : Step → Config
  | .logging l => { c with logging := l }
  | .reportContracts b => { c with reportContracts := b }
  | .timeout d => { c with eventLoopTimeout := some d }
  | .trusted p => { c with trustedCertificates := some p }
  | .settings s => c.overlay s

/-- A waiting time must not be zero, and a bundle must be a file. The waiting time is looked at
first. -/
def validate {σ : Type} [Storage σ] (c : Config) (s : σ) : Except SetupError Unit := do
  if (c.eventLoopTimeout.map Span.isZero).getD false then .error .noWaitingTime
  match c.trustedCertificates with
  | none => return ()
  | some path =>
    if path.isEmpty then .error .emptyPath
    if !Storage.isFile path s then .error (.noBundle path)

def build {σ : Type} [Storage σ] (steps : List Step) (s : σ) : Except SetupError Config := do
  let c := steps.foldl apply {}
  c.validate s
  return c

/-- The plain data of a configuration. Milliseconds are kept modulo 2^64. -/
def settings (c : Config) : Settings where
  logFormat := some c.logging.format
  logLevel := some c.logging.level
  logFilter := c.logging.filter
  reportContracts := c.reportContracts
  eventLoopTimeout := c.eventLoopTimeout.map fun d => d.millis % UInt64.size
  trustedCertificates := c.trustedCertificates

end Config
end NetKit
