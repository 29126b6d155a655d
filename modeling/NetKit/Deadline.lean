import NetKit.Coded
import NetKit.Saturating

/-!
Deadlines on a monotonic clock: whole seconds and nanoseconds since the clock's origin, with the
largest number of seconds standing for a deadline that never comes.
-/
namespace NetKit

inductive TimerType where
  | precise
  | coarse
  | veryCoarse
deriving DecidableEq, Repr

instance : Coded TimerType where
  kind := "TimerType"
  all := [.precise, .coarse, .veryCoarse]
  code
    | .precise => 0
    | .coarse => 1
    | .veryCoarse => 2
  name
    | .precise => "PreciseTimer"
    | .coarse => "CoarseTimer"
    | .veryCoarse => "VeryCoarseTimer"

/-- What the monotonic clock shows. -/
structure Reading where
  secs : Int
  nanos : Nat
deriving DecidableEq, Repr

/-- A length of time, as whole seconds and the nanoseconds above them. -/
structure Span where
  secs : Nat
  nanos : Nat
deriving DecidableEq, Repr

def Span.totalNanos (d : Span) : Int := d.secs * 1000000000 + d.nanos

/-- The span's nanoseconds, kept in range. -/
def Span.clampedNanos (d : Span) : Int := Saturating.clamp d.totalNanos

structure Deadline where
  secs : Int := 0
  nanos : Nat := 0
  timer : TimerType := .precise
deriving DecidableEq, Repr, Inhabited

namespace Deadline
open Saturating

def nanosPerSec : Int := 1000000000

def nanosPerMilli : Int := 1000000

/-- Never comes. -/
def forever (t : TimerType) : Deadline := ⟨maxInt64, 0, t⟩

def isForever (d : Deadline) : Bool := d.secs == maxInt64

/-- The present moment. -/
def current (now : Reading) (t : TimerType) : Deadline := ⟨now.secs, now.nanos, t⟩

/-- The clock's origin, which has passed. -/
def new (t : TimerType) : Deadline := { timer := t }

/-- Nanoseconds from the clock's origin. -/
def deadlineNanos (d : Deadline) : Int :=
  if d.isForever then maxInt64 else add (mul d.secs nanosPerSec) d.nanos

/-- Milliseconds from the clock's origin, rounded down. -/
def deadlineMillis (d : Deadline) : Int :=
  if d.isForever then maxInt64 else add (mul d.secs 1000) (d.nanos / 1000000 : Nat)

/-- The point that many nanoseconds from the origin. -/
def atNanos (n : Int) (t : TimerType) : Deadline :=
  ⟨n / nanosPerSec, (n % nanosPerSec).toNat, t⟩

/-- The point, or forever when it is the last that can be told. -/
def ofNanos (n : Int) (t : TimerType) : Deadline :=
  if n == maxInt64 then forever t else atNanos n t

def setPrecise (_ : Deadline) (secs nanos : Int) (t : TimerType) : Deadline :=
  if secs == maxInt64 then forever t
  else ofNanos (add (mul secs nanosPerSec) nanos) t

def setMillis (d : Deadline) (millis : Int) (t : TimerType) : Deadline :=
  if millis == maxInt64 then forever t
  else d.setPrecise (millis / 1000) (millis % 1000 * nanosPerMilli) t

def addNanos (d : Deadline) (n : Int) : Deadline :=
  if d.isForever then d else ofNanos (add d.deadlineNanos n) d.timer

/-- Comes after the time has passed; a negative number of seconds means never. -/
def setPreciseRemaining (_ : Deadline) (now : Reading) (secs nanos : Int) (t : TimerType) :
    Deadline :=
  if secs < 0 then forever t
  else (current now t).addNanos (add (mul secs nanosPerSec) nanos)

def setRemaining (d : Deadline) (now : Reading) (millis : Int) (t : TimerType) : Deadline :=
  if millis < 0 then forever t
  else d.setPreciseRemaining now (millis / 1000) (millis % 1000 * nanosPerMilli) t

def setTimer (d : Deadline) (t : TimerType) : Deadline := { d with timer := t }

def ofMillis (now : Reading) (millis : Int) (t : TimerType) : Deadline :=
  (new t).setRemaining now millis t

/-- A coarse deadline that the span separates from now. -/
def ofSpan (now : Reading) (d : Span) : Deadline :=
  (default : Deadline).setPreciseRemaining now (min d.secs maxInt64) d.nanos .coarse

def addSpan (d : Deadline) (s : Span) : Deadline := d.addNanos s.clampedNanos

def subSpan (d : Deadline) (s : Span) : Deadline := d.addNanos (-s.clampedNanos)

/-- By seconds, then by nanoseconds. -/
def compare (a b : Deadline) : Ordering :=
  (Ord.compare a.secs b.secs).then (Ord.compare a.nanos b.nanos)

def le (a b : Deadline) : Bool := (a.compare b).isLE

def hasExpired (d : Deadline) (now : Reading) : Bool :=
  !d.isForever && d.le (current now d.timer)

/-- Nanoseconds left: none once expired, and minus one for a deadline that never comes. -/
def remainingNanos (d : Deadline) (now : Reading) : Int :=
  if d.isForever then -1
  else max 0 (sub d.deadlineNanos (current now d.timer).deadlineNanos)

/-- Milliseconds left, rounded up. -/
def remainingMillis (d : Deadline) (now : Reading) : Int :=
  let n := d.remainingNanos now
  if n < 0 then -1 else (n + nanosPerMilli - 1) / nanosPerMilli

/-- The nanoseconds left of a deadline that comes. -/
def remainingSpan (d : Deadline) (now : Reading) : Option Int :=
  if d.isForever then none else some (max 0 (d.remainingNanos now))

def text (d : Deadline) : String :=
  s!"DeadlineTimer \x7b t1: {d.secs}, t2: {d.nanos}, timer_type: {Coded.code d.timer} \x7d"

@[simp] theorem isForever_forever (t : TimerType) : (forever t).isForever = true := rfl

end Deadline
end NetKit
