/-!
A single-threaded event loop: callbacks queue up and run in order while one drain of the queue is
active. A callback is a program of further actions on the same loop.
-/
namespace NetKit

inductive Action where
  | log (text : String)
  | post (body : List Action)
  | exit (code : Int)
  | exec
  /-- Runs the loop, but gives up when the queue stays empty for that many milliseconds. -/
  | execTimeout (millis : Nat)
  /-- Runs what is queued, for at most that many milliseconds. -/
  | process (millis : Nat)
  | execWith (body : List Action)

abbrev Program := List Action

mutual
/-- More than what an action can leave to be done. -/
def Action.weight : Action → Nat
  | .post body => Program.weight body + 3
  | .execWith body => Program.weight body + 4
  | _ => 2

def Program.weight : Program → Nat
  | [] => 0
  | a :: p => a.weight + Program.weight p
end

inductive Trace where
  | log (text : String)
  | exec (code : Int)
  | execTimeout (code : Int)
  | process (count : Nat)
  | execWith (code : Int) (ran : Bool)
deriving DecidableEq, Repr

def Trace.code? : Trace → Option Int
  | .exec code | .execTimeout code | .execWith code _ => some code
  | .log _ | .process _ => none

namespace EventLoop

inductive Event where
  | call (body : Program)
  /-- A callback that ends the drain that posted it. -/
  | once (body : Program)
  | quit (code : Int)

def Event.weight : Event → Nat
  | .call body => Program.weight body + 2
  | .once body => Program.weight body + 2
  | .quit _ => 1

/-- The callback that an event brings; a quit request brings none. -/
def Event.body? : Event → Option Program
  | .call body | .once body => some body
  | .quit _ => none

/-- The code of a drain that could not run or timed out. -/
def failed : Int := -1

/-- Why a drain refuses, stops, or what it dispatches. -/
inductive Remark where
  | alreadyRunning
  | dispatched
  | dispatchedOnce
  | timedOut (millis : Nat)
  | closureNotRun (code : Int)
deriving DecidableEq, Repr

end EventLoop

structure EventLoop where
  queue : List EventLoop.Event := []
  /-- Whether the receiving end of the queue is in its place. A drain holds it while it runs. -/
  receiver : Bool := true
  /-- All events that were ever queued, in order; `taken` and `begun` likewise. -/
  posted : List EventLoop.Event := []
  taken : List EventLoop.Event := []
  begun : List Program := []
  trace : List Trace := []
  remarks : List EventLoop.Remark := []

namespace EventLoop

def record (l : EventLoop) (t : Trace) : EventLoop := { l with trace := l.trace ++ [t] }

def remark (l : EventLoop) (r : Remark) : EventLoop := { l with remarks := l.remarks ++ [r] }

def post (l : EventLoop) (e : Event) : EventLoop :=
  { l with queue := l.queue ++ [e], posted := l.posted ++ [e] }

def next? (l : EventLoop) : Option (Event × EventLoop) :=
  match l.queue with
  | [] => none
  | e :: rest => some (e, { l with queue := rest, taken := l.taken ++ [e] })

def begin (l : EventLoop) (body : Program) : EventLoop := { l with begun := l.begun ++ [body] }

def putReceiver (l : EventLoop) : EventLoop := { l with receiver := true }

/-- When a drain ends. -/
inductive Drain where
  | untilQuit
  | untilQuitOrIdle (millis : Nat)
  | untilOnce
deriving DecidableEq, Repr

def Drain.shown : Drain → Int → Trace
  | .untilQuit, code => .exec code
  | .untilQuitOrIdle _, code => .execTimeout code
  | .untilOnce, code => .execWith code true

/-! ## One step

What is under way on a loop is a stack of frames, the innermost first. A step replaces the innermost
frame by others and never looks at those below. -/

inductive Frame where
  | program (rest : Program)
  /-- A drain, with the code of the first quit request that it met without ending. -/
  | drain (d : Drain) (code : Option Int)
  /-- A drain that ends as soon as the callback above it has. -/
  | ending (d : Drain) (code : Int)
  /-- A drain of what is queued, with the number of callbacks begun so far. -/
  | processing (count : Nat)

/-- Gives the receiving end of the queue to a drain, unless another drain has it. -/
def enter (l : EventLoop) (refuse : EventLoop → EventLoop)
    (drain : EventLoop → EventLoop × List Frame) : EventLoop × List Frame :=
  if l.receiver then drain { l with receiver := false } else (refuse (l.remark .alreadyRunning), [])

def perform (l : EventLoop) : Action → EventLoop × List Frame
  | .log t => (l.record (.log t), [])
  | .post body => (l.post (.call body), [])
  | .exit code => (l.post (.quit code), [])
  | .exec => l.enter (·.record (.exec failed)) fun l => (l, [.drain .untilQuit none])
  | .execTimeout millis =>
    l.enter (·.record (.execTimeout failed)) fun l => (l, [.drain (.untilQuitOrIdle millis) none])
  | .process millis =>
    l.enter (·.record (.process 0)) fun l =>
      -- A limit of no time has passed before the first event is looked at.
      if millis = 0 then (l.putReceiver.record (.process 0), []) else (l, [.processing 0])
  | .execWith body =>
    l.enter (fun l => (l.remark (.closureNotRun failed)).record (.execWith failed false)) fun l =>
      (l.post (.once body), [.drain .untilOnce none])

/-- Gives the receiving end back and shows how a drain ended. -/
def leave (l : EventLoop) (d : Drain) (code : Int) : EventLoop :=
  l.putReceiver.record (d.shown code)

/-- The loop after a step of a frame, and the frames in its place. None when the frame would wait
for ever. -/
def advance? (l : EventLoop) : Frame → Option (EventLoop × List Frame)
  | .program [] => some (l, [])
  | .program (a :: p) =>
    let (l, frames) := l.perform a
    some (l, frames ++ [.program p])
  | .drain d code =>
    match l.next? with
    | none =>
      match d with
      | .untilQuitOrIdle millis => some ((l.remark (.timedOut millis)).leave d failed, [])
      | _ => none
    | some (.call body, l) =>
      some ((l.remark .dispatched).begin body, [.program body, .drain d code])
    | some (.once body, l) =>
      some ((l.remark .dispatchedOnce).begin body, [.program body, .ending d (code.getD 0)])
    | some (.quit c, l) =>
      if d = .untilOnce then some (l, [.drain d (some (code.getD c))])
      else some (l.leave d (code.getD c), [])
  | .ending d code => some (l.leave d code, [])
  | .processing count =>
    match l.next? with
    | none => some (l.putReceiver.record (.process count), [])
    | some (.call body, l) | some (.once body, l) =>
      some (l.begin body, [.program body, .processing (count + 1)])
    | some (.quit _, l) => some (l, [.processing count])

/-- A loop, and what is under way on it, the innermost frame first. -/
structure Moment where
  loop : EventLoop
  stack : List Frame

namespace Moment

def start (l : EventLoop) (p : Program) : Moment := ⟨l, [.program p]⟩

/-- The next moment. None when nothing is under way any more, or the loop would wait for ever. -/
def next? (m : Moment) : Option Moment :=
  match m.stack with
  | [] => none
  | f :: below => (m.loop.advance? f).map fun (l, frames) => ⟨l, frames ++ below⟩

end Moment

/-! ## Runs

Every step takes up some of the weight of the queue and the stack. -/

def Frame.weight : Frame → Nat
  | .program p => Program.weight p + 1
  | _ => 1

def queueWeight : List Event → Nat
  | [] => 0
  | e :: es => e.weight + queueWeight es

def stackWeight : List Frame → Nat
  | [] => 0
  | f :: fs => f.weight + stackWeight fs

def Moment.weight (m : Moment) : Nat := queueWeight m.loop.queue + stackWeight m.stack

@[simp] theorem queueWeight_append (es fs : List Event) :
    queueWeight (es ++ fs) = queueWeight es + queueWeight fs := by
  induction es with
  | nil => exact (Nat.zero_add _).symm
  | cons e es ih => rw [List.cons_append, queueWeight, queueWeight, ih, Nat.add_assoc]

@[simp] theorem stackWeight_append (fs gs : List Frame) :
    stackWeight (fs ++ gs) = stackWeight fs + stackWeight gs := by
  induction fs with
  | nil => exact (Nat.zero_add _).symm
  | cons f fs ih => rw [List.cons_append, stackWeight, stackWeight, ih, Nat.add_assoc]

theorem next?_of_nil {l : EventLoop} (hq : l.queue = []) : l.next? = none := by
  simp [next?, hq]

theorem next?_of_cons {l : EventLoop} {e : Event} {q : List Event} (hq : l.queue = e :: q) :
    l.next? = some (e, { l with queue := q, taken := l.taken ++ [e] }) := by
  simp [next?, hq]

theorem perform_weight_lt (l : EventLoop) (a : Action) :
    queueWeight (l.perform a).1.queue + stackWeight (l.perform a).2 <
      queueWeight l.queue + a.weight := by
  cases a with
  | log t => simp [perform, record, stackWeight, Action.weight]
  | post body =>
      simp only [perform, post, queueWeight_append, Action.weight]
      simp [queueWeight, stackWeight, Event.weight]
  | exit code =>
      simp only [perform, post, queueWeight_append, Action.weight]
      simp [queueWeight, stackWeight, Event.weight]
  | exec =>
      cases hr : l.receiver <;>
        simp [perform, enter, hr, record, remark, stackWeight, Frame.weight, Action.weight]
  | execTimeout millis =>
      cases hr : l.receiver <;>
        simp [perform, enter, hr, record, remark, stackWeight, Frame.weight, Action.weight]
  | process millis =>
      cases hr : l.receiver
      · simp [perform, enter, hr, record, remark, stackWeight, Action.weight]
      · by_cases hm : millis = 0 <;>
          simp [perform, enter, hr, hm, record, putReceiver, stackWeight, Frame.weight,
            Action.weight]
  | execWith body =>
      cases hr : l.receiver
      · simp [perform, enter, hr, record, remark, stackWeight, Action.weight]
      · simp only [perform, enter, hr, if_true, post, queueWeight_append, Action.weight]
        simp only [queueWeight, stackWeight, Event.weight, Frame.weight]
        omega

theorem advance?_weight_lt {l m : EventLoop} {f : Frame} {fs : List Frame}
    (h : l.advance? f = some (m, fs)) :
    queueWeight m.queue + stackWeight fs < queueWeight l.queue + f.weight := by
  cases f with
  | program p =>
      cases p with
      | nil =>
          cases h
          simp [stackWeight, Frame.weight]
      | cons a p =>
          simp only [advance?, Option.some.injEq, Prod.mk.injEq] at h
          obtain ⟨rfl, rfl⟩ := h
          have := l.perform_weight_lt a
          simp only [stackWeight_append, Frame.weight, Program.weight]
          simp only [stackWeight, Frame.weight]
          omega
  | drain d code =>
      cases hq : l.queue with
      | nil =>
          simp only [advance?, next?_of_nil hq] at h
          cases d with
          | untilQuitOrIdle millis =>
              cases h
              simp [leave, record, remark, putReceiver, hq, stackWeight, Frame.weight]
          | untilQuit => cases h
          | untilOnce => cases h
      | cons e q =>
          cases e with
          | call body | once body =>
              simp only [advance?, next?_of_cons hq] at h
              cases h
              simp only [begin, remark, queueWeight, stackWeight, Frame.weight, Event.weight]
              omega
          | quit c =>
              simp only [advance?, next?_of_cons hq] at h
              split at h
              · cases h
                simp [queueWeight, stackWeight, Frame.weight, Event.weight]
              · cases h
                simp only [leave, record, putReceiver, queueWeight, stackWeight, Frame.weight,
                  Event.weight]
                omega
  | ending d code =>
      cases h
      simp [leave, record, putReceiver, stackWeight, Frame.weight]
  | processing count =>
      cases hq : l.queue with
      | nil =>
          simp only [advance?, next?_of_nil hq] at h
          cases h
          simp [record, putReceiver, hq, stackWeight, Frame.weight]
      | cons e q =>
          cases e with
          | call body | once body =>
              simp only [advance?, next?_of_cons hq] at h
              cases h
              simp only [begin, queueWeight, stackWeight, Frame.weight, Event.weight]
              omega
          | quit c =>
              simp only [advance?, next?_of_cons hq] at h
              cases h
              simp [queueWeight, stackWeight, Frame.weight, Event.weight]

theorem Moment.weight_lt {m n : Moment} (h : m.next? = some n) : n.weight < m.weight := by
  obtain ⟨l, stack⟩ := m
  cases stack with
  | nil => cases h
  | cons f below =>
      obtain ⟨⟨k, fs⟩, hf, rfl⟩ := Option.map_eq_some_iff.mp h
      have := advance?_weight_lt hf
      simp only [Moment.weight, stackWeight_append]
      simp only [stackWeight] at this ⊢
      omega

def Moment.last (m : Moment) : Moment :=
  match _h : m.next? with
  | none => m
  | some n => n.last
termination_by m.weight
decreasing_by exact Moment.weight_lt (by assumption)

/-- Runs a program on a loop; none when it would wait for ever. -/
def run (l : EventLoop) (p : Program) : Option EventLoop :=
  let m := (Moment.start l p).last
  if m.stack.isEmpty then some m.loop else none

end EventLoop
end NetKit
