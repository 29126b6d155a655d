import Mathlib.Data.List.Basic
import NetKit.Proofs.EventLoop.Reaches

/-!
# What a step does

A step either queues events at the end, or takes the one at the front for a drain, and the callback
that the event brings becomes the innermost frame.
-/

namespace NetKit

/-- What an action shows that would drain the queue while it is being drained. None for the actions
that are no drains. -/
def Action.refusal? : Action → Option Trace
  | .exec => some (.exec EventLoop.failed)
  | .execTimeout _ => some (.execTimeout EventLoop.failed)
  | .process _ => some (.process 0)
  | .execWith _ => some (.execWith EventLoop.failed false)
  | .log _ | .post _ | .exit _ => none

/-- The drain that an action begins. None for the actions that are no drains. -/
def Action.drain? : Action → Option EventLoop.Frame
  | .exec => some (.drain .untilQuit none)
  | .execTimeout millis => some (.drain (.untilQuitOrIdle millis) none)
  | .process _ => some (.processing 0)
  | .execWith _ => some (.drain .untilOnce none)
  | .log _ | .post _ | .exit _ => none

/-- What a drain queues itself when it begins. -/
def Action.brings : Action → List EventLoop.Event
  | .execWith body => [.once body]
  | _ => []

/-- What an action queues. A drain queues nothing where another has the receiving end. -/
def Action.queues (receiver : Bool) : Action → List EventLoop.Event
  | .post body => [.call body]
  | .exit code => [.quit code]
  | .execWith body => if receiver then [.once body] else []
  | .log _ | .exec | .execTimeout _ | .process _ => []

/-- What an action shows when it is over at once. -/
def Action.shows : Action → List Trace
  | .log t => [.log t]
  | a => a.refusal?.toList

namespace EventLoop

def Event.code? : Event → Option Int
  | .quit c => some c
  | _ => none

def Event.isOnce : Event → Bool
  | .once _ => true
  | _ => false

def callbacks (es : List Event) : List Program := es.filterMap Event.body?

def firstQuit? (es : List Event) : Option Int := es.findSome? Event.code?

/-- How many of the events end the drain that posted them. -/
def onces (es : List Event) : Nat := es.countP Event.isOnce

@[simp] theorem callbacks_append (es fs : List Event) :
    callbacks (es ++ fs) = callbacks es ++ callbacks fs := List.filterMap_append

@[simp] theorem firstQuit?_append (es fs : List Event) :
    firstQuit? (es ++ fs) = (firstQuit? es).or (firstQuit? fs) := List.findSome?_append

@[simp] theorem onces_append (es fs : List Event) : onces (es ++ fs) = onces es + onces fs :=
  List.countP_append

theorem firstQuit?_call (seen : List Event) (b : Program) :
    firstQuit? (seen ++ [.call b]) = firstQuit? seen := by
  rw [firstQuit?_append]
  exact Option.or_none

theorem onces_call (seen : List Event) (b : Program) : onces (seen ++ [.call b]) = onces seen := by
  rw [onces_append]
  rfl

theorem firstQuit?_quit (seen : List Event) (c : Int) :
    firstQuit? (seen ++ [.quit c]) = some ((firstQuit? seen).getD c) := by
  rw [firstQuit?_append]
  cases firstQuit? seen <;> rfl

theorem onces_quit (seen : List Event) (c : Int) : onces (seen ++ [.quit c]) = onces seen := by
  rw [onces_append]
  rfl

theorem once_not_mem {b : Program} {es : List Event} (h : onces es = 0) : .once b ∉ es := by
  intro hb
  have : 0 < onces es := List.countP_pos_iff.mpr ⟨_, hb, rfl⟩
  omega

def Frame.drains : Frame → Bool
  | .program _ => false
  | _ => true

def Moment.active (m : Moment) : Bool := m.stack.any Frame.drains

/-- Nothing was taken off the queue, and `new` was queued. -/
structure Keeps (l : EventLoop) (new : List Event) (k : EventLoop) : Prop where
  queue : k.queue = l.queue ++ new
  posted : k.posted = l.posted ++ new
  taken : k.taken = l.taken
  begun : k.begun = l.begun

/-- The event at the front of the queue was taken, and its callback begun if it has one. -/
structure Takes (l : EventLoop) (e : Event) (k : EventLoop) : Prop where
  queue : l.queue = e :: k.queue
  posted : k.posted = l.posted
  taken : k.taken = l.taken ++ [e]
  begun : k.begun = l.begun ++ callbacks [e]

theorem Keeps.refl {l k : EventLoop} (hq : k.queue = l.queue) (hp : k.posted = l.posted)
    (ht : k.taken = l.taken) (hb : k.begun = l.begun) : Keeps l [] k := by
  refine ⟨?_, ?_, ht, hb⟩
  · rw [hq, List.append_nil]
  · rw [hp, List.append_nil]

variable {l k : EventLoop} {m n : Moment} {a : Action} {p body : Program} {f : Frame}
variable {new : List Event} {e : Event} {t : Trace} {frames below : List Frame}

/-! ## One action -/

theorem perform_keeps (l : EventLoop) (a : Action) :
    Keeps l (a.queues l.receiver) (l.perform a).1 := by
  cases a with
  | log t => exact .refl rfl rfl rfl rfl
  | post body | exit code => exact ⟨rfl, rfl, rfl, rfl⟩
  | exec | execTimeout millis =>
      simp only [perform, enter]
      split <;> exact .refl rfl rfl rfl rfl
  | process millis =>
      simp only [perform, enter]
      split
      · split <;> exact .refl rfl rfl rfl rfl
      · exact .refl rfl rfl rfl rfl
  | execWith body =>
      simp only [perform, enter, Action.queues]
      split
      · exact ⟨rfl, rfl, rfl, rfl⟩
      · exact .refl rfl rfl rfl rfl

theorem refusal?_eq_none_iff : a.refusal? = none ↔ a.drain? = none := by
  cases a <;> simp [Action.refusal?, Action.drain?]

/-- An action that is no drain, or is refused, at most queues an event. -/
theorem perform_quiet (l : EventLoop) (h : ∀ t, a.refusal? = some t → l.receiver = false) :
    (l.perform a).2 = [] ∧ (l.perform a).1.receiver = l.receiver ∧
      (l.perform a).1.trace = l.trace ++ a.shows := by
  cases a with
  | log t => exact ⟨rfl, rfl, rfl⟩
  | post body | exit code => exact ⟨rfl, rfl, (List.append_nil _).symm⟩
  | exec | execTimeout millis | process millis | execWith body =>
      have hr := h _ rfl
      simp only [perform, enter, hr, Bool.false_eq_true, if_false]
      exact ⟨trivial, hr, rfl⟩

theorem onces_queues {receiver : Bool} (h : ∀ t, a.refusal? = some t → receiver = false) :
    onces (a.queues receiver) = 0 := by
  cases a with
  | execWith body =>
      rw [h _ rfl]
      rfl
  | _ => rfl

theorem perform_refused (h : a.refusal? = some t) (hr : l.receiver = false) :
    (l.perform a).2 = [] ∧ Keeps l [] (l.perform a).1 ∧ (l.perform a).1.receiver = false ∧
      (l.perform a).1.trace = l.trace ++ [t] := by
  cases a with
  | log _ | post _ | exit _ => cases h
  | exec | execTimeout millis | process millis | execWith body =>
      cases h
      simp only [perform, enter, hr, Bool.false_eq_true, if_false]
      exact ⟨trivial, .refl rfl rfl rfl rfl, hr, rfl⟩

theorem queues_accepted (h : a.refusal? = some t) : a.queues true = a.brings := by
  cases a with
  | log _ | post _ | exit _ => cases h
  | exec | execTimeout _ | process _ | execWith _ => rfl

theorem perform_accepted (h : a.refusal? = some t) (hr : l.receiver = true) :
    Keeps l a.brings (l.perform a).1 := by
  have hkeep := l.perform_keeps a
  rwa [hr, queues_accepted h] at hkeep

/-! ## One step -/

/-- The frames in the place of a drain that goes on after an event, the callback of the event above
all. -/
inductive Pushes : Frame → Event → List Frame → Prop
  | call {d : Drain} {code : Option Int} {body : Program} :
      Pushes (.drain d code) (.call body) [.program body, .drain d code]
  | once {d : Drain} {code : Option Int} {body : Program} :
      Pushes (.drain d code) (.once body) [.program body, .ending d (code.getD 0)]
  | quit {code : Option Int} {c : Int} :
      Pushes (.drain .untilOnce code) (.quit c) [.drain .untilOnce (some (code.getD c))]
  | counted {count : Nat} {e : Event} {body : Program} (hb : e.body? = some body) :
      Pushes (.processing count) e [.program body, .processing (count + 1)]
  | ignored {count : Nat} {c : Int} : Pushes (.processing count) (.quit c) [.processing count]

/-- How a drain ends, and what it shows. -/
inductive Ends (l k : EventLoop) : Frame → Trace → Prop
  | quit {d : Drain} {code : Option Int} {c : Int} (hd : d ≠ .untilOnce)
      (hk : Takes l (.quit c) k) : Ends l k (.drain d code) (d.shown (code.getD c))
  | timedOut {millis : Nat} {code : Option Int} (hq : l.queue = []) (hk : Keeps l [] k) :
      Ends l k (.drain (.untilQuitOrIdle millis) code) (.execTimeout failed)
  | done {d : Drain} {code : Int} (hk : Keeps l [] k) : Ends l k (.ending d code) (d.shown code)
  | nothingLeft {count : Nat} (hq : l.queue = []) (hk : Keeps l [] k) :
      Ends l k (.processing count) (.process count)

/-- What a step queues, takes and shows, the frames that it leaves in the place of the innermost one,
and what becomes of the receiving end. -/
inductive Step : Moment → Moment → Prop
  | finished {l : EventLoop} {below : List Frame} : Step ⟨l, .program [] :: below⟩ ⟨l, below⟩
  /-- Of the drains, only those that are refused or given no time are over at once. -/
  | acts {l k : EventLoop} {a : Action} {rest : Program} {below : List Frame}
      (hk : Keeps l (a.queues l.receiver) k) (hr : k.receiver = l.receiver)
      (htrace : k.trace = l.trace ++ a.shows)
      (hquiet : l.receiver = true → a.drain? = none ∨ a = .process 0) :
      Step ⟨l, .program (a :: rest) :: below⟩ ⟨k, .program rest :: below⟩
  | enters {l k : EventLoop} {a : Action} {f : Frame} {rest : Program} {below : List Frame}
      (hk : Keeps l (a.queues l.receiver) k) (hl : l.receiver = true) (hr : k.receiver = false)
      (htrace : k.trace = l.trace) (hf : a.drain? = some f) (ha : a ≠ .process 0) :
      Step ⟨l, .program (a :: rest) :: below⟩ ⟨k, f :: .program rest :: below⟩
  | takes {l k : EventLoop} {f : Frame} {e : Event} {frames below : List Frame}
      (hk : Takes l e k) (hr : k.receiver = l.receiver) (htrace : k.trace = l.trace)
      (hf : Pushes f e frames) : Step ⟨l, f :: below⟩ ⟨k, frames ++ below⟩
  | returns {l k : EventLoop} {f : Frame} {t : Trace} {below : List Frame} (hr : k.receiver = true)
      (htrace : k.trace = l.trace ++ [t]) (hf : Ends l k f t) : Step ⟨l, f :: below⟩ ⟨k, below⟩

theorem Pushes.of_body? (h : Pushes f e frames) (hb : e.body? = some body) :
    ∃ g, g.drains = true ∧ frames = [.program body, g] := by
  cases h with
  | call | once =>
      cases hb
      exact ⟨_, rfl, rfl⟩
  | counted hcounted =>
      cases hcounted.symm.trans hb
      exact ⟨_, rfl, rfl⟩
  | quit | ignored => cases hb

theorem Pushes.drains (h : Pushes f e frames) :
    f.drains = true ∧ frames.countP Frame.drains = 1 := by
  cases h <;> exact ⟨rfl, rfl⟩

theorem Ends.drains (h : Ends l k f t) : f.drains = true := by
  cases h <;> rfl

theorem step_action (l : EventLoop) (a : Action) (p : Program) (below : List Frame) :
    Step ⟨l, .program (a :: p) :: below⟩ ⟨(l.perform a).1, (l.perform a).2 ++ .program p :: below⟩ := by
  have hk := l.perform_keeps a
  by_cases hquiet : ∀ t, a.refusal? = some t → l.receiver = false
  · obtain ⟨hnil, hr, htrace⟩ := l.perform_quiet hquiet
    rw [hnil]
    refine .acts hk hr htrace fun hl => .inl ?_
    cases a with
    | log _ | post _ | exit _ => rfl
    | exec | execTimeout _ | process _ | execWith _ => cases hl.symm.trans (hquiet _ rfl)
  · have hl : l.receiver = true := by
      rw [← Bool.not_eq_false]
      exact fun hl => hquiet fun _ _ => hl
    cases a with
    | log _ | post _ | exit _ => exact absurd (fun _ h => by cases h) hquiet
    | exec | execTimeout _ | execWith _ =>
        rw [perform, enter, if_pos hl] at hk ⊢
        exact .enters hk hl rfl rfl rfl (by simp)
    | process millis =>
        rw [perform, enter, if_pos hl] at hk ⊢
        by_cases hm : millis = 0
        · rw [if_pos hm] at hk ⊢
          exact .acts hk hl.symm rfl fun _ => .inr (by rw [hm])
        · rw [if_neg hm] at hk ⊢
          exact .enters hk hl rfl rfl rfl (by simpa using hm)

theorem step_drain (hf : f.drains = true) (h : l.advance? f = some (k, frames)) :
    Step ⟨l, f :: below⟩ ⟨k, frames ++ below⟩ := by
  cases f with
  | program p => cases hf
  | ending d code =>
      cases h
      exact .returns rfl rfl (.done (.refl rfl rfl rfl rfl))
  | drain d code =>
      cases hq : l.queue with
      | nil =>
          cases d with
          | untilQuit | untilOnce =>
              simp only [advance?, next?_of_nil hq] at h
              cases h
          | untilQuitOrIdle millis =>
              simp only [advance?, next?_of_nil hq] at h
              cases h
              exact .returns rfl rfl (.timedOut hq (.refl rfl rfl rfl rfl))
      | cons e q =>
          cases e with
          | call body =>
              simp only [advance?, next?_of_cons hq] at h
              cases h
              exact .takes ⟨hq, rfl, rfl, rfl⟩ rfl rfl .call
          | once body =>
              simp only [advance?, next?_of_cons hq] at h
              cases h
              exact .takes ⟨hq, rfl, rfl, rfl⟩ rfl rfl .once
          | quit c =>
              have hb : l.begun = l.begun ++ callbacks [.quit c] := (List.append_nil _).symm
              by_cases hd : d = .untilOnce
              · subst hd
                simp only [advance?, next?_of_cons hq, if_true] at h
                cases h
                exact .takes ⟨hq, rfl, rfl, hb⟩ rfl rfl .quit
              · simp only [advance?, next?_of_cons hq, if_neg hd] at h
                cases h
                exact .returns rfl rfl (.quit hd ⟨hq, rfl, rfl, hb⟩)
  | processing count =>
      cases hq : l.queue with
      | nil =>
          simp only [advance?, next?_of_nil hq] at h
          cases h
          exact .returns rfl rfl (.nothingLeft hq (.refl rfl rfl rfl rfl))
      | cons e q =>
          cases e with
          | call body | once body =>
              simp only [advance?, next?_of_cons hq] at h
              cases h
              exact .takes ⟨hq, rfl, rfl, rfl⟩ rfl rfl (.counted rfl)
          | quit c =>
              simp only [advance?, next?_of_cons hq] at h
              cases h
              exact .takes ⟨hq, rfl, rfl, (List.append_nil _).symm⟩ rfl rfl .ignored

theorem step_of_next? (h : m.next? = some n) : Step m n := by
  obtain ⟨l, stack⟩ := m
  cases stack with
  | nil => cases h
  | cons f below =>
      cases hf : f.drains with
      | true =>
          obtain ⟨k, frames, hk, rfl⟩ := Moment.next?_eq_some h
          exact step_drain hf hk
      | false =>
          cases f with
          | drain _ _ | ending _ _ | processing _ => cases hf
          | program p =>
              cases p with
              | nil =>
                  cases h
                  exact .finished
              | cons a p =>
                  rw [Moment.next?_action] at h
                  cases h
                  exact step_action l a p below

theorem Ends.keeps_or_quits (h : Ends l k f t) : Keeps l [] k ∨ ∃ c, Takes l (.quit c) k := by
  cases h with
  | quit _ hk => exact .inr ⟨_, hk⟩
  | timedOut _ hk | done hk | nothingLeft _ hk => exact .inl hk

theorem Step.keeps_or_takes (h : Step m n) :
    (∃ new, Keeps m.loop new n.loop) ∨ ∃ e, Takes m.loop e n.loop := by
  cases h with
  | finished => exact .inl ⟨[], .refl rfl rfl rfl rfl⟩
  | acts hk | enters hk => exact .inl ⟨_, hk⟩
  | takes hk => exact .inr ⟨_, hk⟩
  | returns _ _ hf =>
      rcases hf.keeps_or_quits with hk | ⟨c, hk⟩
      · exact .inl ⟨[], hk⟩
      · exact .inr ⟨_, hk⟩

theorem Keeps.not_takes (h : Keeps l new k) : ¬ Takes l e k := by
  intro ht
  simpa [ht.taken] using h.taken

theorem Takes.unique {e' : Event} (h : Takes l e k) (h' : Takes l e' k) : e = e' :=
  (List.cons_eq_cons.mp (h.queue.symm.trans h'.queue)).1

/-- Where a step takes an event with a callback, it is of a drain that makes place for it. -/
theorem Step.pushes (h : Step m n) (ht : Takes m.loop e n.loop) (hb : e.body? = some body) :
    ∃ f frames below, m.stack = f :: below ∧ n.stack = frames ++ below ∧ Pushes f e frames := by
  cases h with
  | finished => exact absurd ht (Keeps.refl rfl rfl rfl rfl).not_takes
  | acts hk | enters hk => exact absurd ht hk.not_takes
  | takes hk _ _ hf =>
      cases hk.unique ht
      exact ⟨_, _, _, rfl, rfl, hf⟩
  | returns _ _ hf =>
      rcases hf.keeps_or_quits with hk | ⟨c, hk⟩
      · exact absurd ht hk.not_takes
      · cases hk.unique ht
        cases hb

end EventLoop
end NetKit
