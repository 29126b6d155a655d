import NetKit.Proofs.EventLoop.Histories

/-!
# From the call of a drain to its return

One drain is under way at a time. What it has taken off the queue decides its frame while it runs
and what it shows at the end.
-/

namespace NetKit.EventLoop

open Relation

/-! ## Drains -/

/-- The frame of the drain that an action began, after it took these events off the queue. -/
inductive Serves : Action → List Event → Frame → Prop
  | exec {seen} (h : firstQuit? seen = none) : Serves .exec seen (.drain .untilQuit none)
  | execTimeout {millis seen} (h : firstQuit? seen = none) :
      Serves (.execTimeout millis) seen (.drain (.untilQuitOrIdle millis) none)
  | process {millis seen} (h : millis ≠ 0) :
      Serves (.process millis) seen (.processing (callbacks seen).length)
  | execWith {body seen} (h : onces seen = 0) :
      Serves (.execWith body) seen (.drain .untilOnce (firstQuit? seen))
  | ending {body ahead} (h : onces ahead = 0) :
      Serves (.execWith body) (ahead ++ [.once body])
        (.ending .untilOnce ((firstQuit? ahead).getD 0))

/-- What the drain of an action took off the queue, what it left there and what it shows, when it
returns. -/
inductive Drained : Action → List Event → List Event → Trace → Prop
  | exec {ahead c left} (h : firstQuit? ahead = none) :
      Drained .exec (ahead ++ [.quit c]) left (.exec c)
  | execTimeout {millis ahead c left} (h : firstQuit? ahead = none) :
      Drained (.execTimeout millis) (ahead ++ [.quit c]) left (.execTimeout c)
  | timedOut {millis seen} (h : firstQuit? seen = none) :
      Drained (.execTimeout millis) seen [] (.execTimeout failed)
  | process {millis seen} (h : millis ≠ 0) :
      Drained (.process millis) seen [] (.process (callbacks seen).length)
  | processNothing {left} : Drained (.process 0) [] left (.process 0)
  | execWith {body ahead left} (h : onces ahead = 0) :
      Drained (.execWith body) (ahead ++ [.once body]) left
        (.execWith ((firstQuit? ahead).getD 0) true)

variable {l l₀ k : EventLoop} {m n : Moment} {a : Action} {p q : Program} {f : Frame}
variable {seen new : List Event} {e : Event} {t : Trace}

theorem Serves.drains (h : Serves a seen f) : f.drains = true := by
  cases h <;> rfl

/-! ## What happened since the call -/

/-- No drain has the queue, and no callback in it would end one. -/
structure Free (l : EventLoop) : Prop where
  ordered : l.InOrder
  receiver : l.receiver = true
  onces : onces l.queue = 0

/-- An action was called on the loop `l₀`, and since then these events were taken off the queue. -/
structure Since (l₀ : EventLoop) (a : Action) (seen : List Event) (l : EventLoop) : Prop where
  ordered : l.InOrder
  taken : l.taken = l₀.taken ++ seen
  posted : ∃ new, EventLoop.onces new = 0 ∧ l.posted = l₀.posted ++ a.brings ++ new

theorem Since.keeps (h : Since l₀ a seen l) (hk : Keeps l new k) (hn : onces new = 0) :
    Since l₀ a seen k := by
  obtain ⟨old, ho, hp⟩ := h.posted
  refine ⟨h.ordered.keeps hk, hk.taken.trans h.taken, old ++ new, ?_, ?_⟩
  · rw [onces_append, ho, hn]
  · rw [hk.posted, hp, List.append_assoc]

theorem Since.takes (h : Since l₀ a seen l) (hk : Takes l e k) : Since l₀ a (seen ++ [e]) k := by
  refine ⟨h.ordered.takes hk, ?_, hk.posted ▸ h.posted⟩
  rw [hk.taken, h.taken, List.append_assoc]

/-- What was taken and what is queued is what was queued at the call, with what came after. -/
theorem Since.queue (h : Since l₀ a seen l) (h₀ : Free l₀) :
    ∃ new, onces new = 0 ∧ l.posted = l₀.posted ++ a.brings ++ new ∧
      seen ++ l.queue = l₀.queue ++ a.brings ++ new := by
  obtain ⟨new, hn, hp⟩ := h.posted
  refine ⟨new, hn, hp, ?_⟩
  rw [h.ordered.posted, h.taken, h₀.ordered.posted] at hp
  simpa only [List.append_assoc, List.append_cancel_left_eq] using hp

theorem Since.onces_add (h : Since l₀ a seen l) (h₀ : Free l₀) :
    onces seen + onces l.queue = onces a.brings := by
  obtain ⟨new, hn, _, hq⟩ := h.queue h₀
  rw [← onces_append, hq, onces_append, onces_append, h₀.onces, hn, Nat.zero_add, Nat.add_zero]

theorem Since.once_eq {b body : Program} (h : Since l₀ (.execWith body) seen l) (h₀ : Free l₀)
    (hb : .once b ∈ l.queue) : b = body := by
  obtain ⟨new, hn, _, hq⟩ := h.queue h₀
  have hm : Event.once b ∈ l₀.queue ++ [.once body] ++ new := hq ▸ List.mem_append_right seen hb
  simp only [List.mem_append, List.mem_singleton] at hm
  rcases hm with (hm | hm) | hm
  · exact absurd hm (once_not_mem h₀.onces)
  · cases hm
    rfl
  · exact absurd hm (once_not_mem hn)

/-- The drain of an action that was called on the loop `l₀` returned. -/
structure Returned (l₀ : EventLoop) (a : Action) (seen : List Event) (l : EventLoop) : Prop where
  since : Since l₀ a seen l
  receiver : l.receiver = true
  shown : ∃ t, Drained a seen l.queue t ∧ l.trace.getLast? = some t

theorem Drained.onces {left : List Event} (h : Drained a seen left t) (hb : a.brings ≠ []) :
    EventLoop.onces seen = EventLoop.onces a.brings := by
  cases h with
  | execWith h => rw [onces_append, h, Nat.zero_add]; rfl
  | _ => exact absurd rfl hb

theorem Returned.free (h : Returned l₀ a seen l) (h₀ : Free l₀) : Free l := by
  refine ⟨h.since.ordered, h.receiver, ?_⟩
  have hadd := h.since.onces_add h₀
  by_cases hb : a.brings = []
  · rw [hb] at hadd
    exact (Nat.add_eq_zero_iff.mp hadd).2
  · obtain ⟨t, hd, _⟩ := h.shown
    rw [hd.onces hb] at hadd
    omega

theorem Returned.begun (h : Returned l₀ a seen l) (h₀ : Free l₀) :
    l.begun = l₀.begun ++ callbacks seen := by
  rw [h.since.ordered.begun, h.since.taken, callbacks_append, h₀.ordered.begun]

/-! ## The stack -/

/-- Between a call of an action by the program at the bottom of the stack and its return. A callback
is under way, or the drain is about to look at the queue. -/
inductive Within (l₀ : EventLoop) (a : Action) (p : Program) : Moment → Prop
  | between {l : EventLoop} {seen : List Event} {f : Frame} (hs : Since l₀ a seen l)
      (hr : l.receiver = false) (hf : Serves a seen f) : Within l₀ a p ⟨l, [f, .program p]⟩
  | inside {l : EventLoop} {seen : List Event} {f : Frame} {q : Program} (hs : Since l₀ a seen l)
      (hr : l.receiver = false) (hf : Serves a seen f) :
      Within l₀ a p ⟨l, [.program q, f, .program p]⟩

inductive Idle : Moment → Prop
  | done {l : EventLoop} (h : Free l) : Idle ⟨l, []⟩
  | program {l : EventLoop} {p : Program} (h : Free l) : Idle ⟨l, [.program p]⟩

theorem Within.active (h : Within l₀ a p m) : m.active = true := by
  cases h with
  | between _ _ hf => simp [Moment.active, hf.drains]
  | inside _ _ hf => simp [Moment.active, hf.drains]

theorem Within.receiver (h : Within l₀ a p m) : m.loop.receiver = false := by
  cases h <;> assumption

theorem Idle.active (h : Idle m) : m.active = false := by
  cases h <;> rfl

theorem Idle.free (h : Idle m) : Free m.loop := by
  cases h <;> assumption

/-- The drain is under way, or it returned. -/
def Proceeds (l₀ : EventLoop) (a : Action) (p : Program) (m : Moment) : Prop :=
  Within l₀ a p m ∨ m.stack = [.program p] ∧ ∃ seen, Returned l₀ a seen m.loop

/-- A drain that brings no callback meets none that ends it. -/
theorem Since.queue_ne_once (h : Since l₀ a seen l) (h₀ : Free l₀) (ha : onces a.brings = 0)
    (b : Program) (es : List Event) : l.queue ≠ .once b :: es := by
  intro hq
  have hadd := h.onces_add h₀
  exact once_not_mem (by omega) (hq ▸ List.mem_cons_self)

variable {frames : List Frame}

/-- A drain that goes on after an event has the frame for what it took. -/
theorem Serves.takes (hf : Serves a seen f) (h₀ : Free l₀) (hs : Since l₀ a seen l)
    (hk : Takes l e k) (hr : k.receiver = false) (hp : Pushes f e frames) :
    Within l₀ a p ⟨k, frames ++ [.program p]⟩ := by
  have hsince := hs.takes hk
  cases hf with
  | exec hc =>
      cases hp with
      | call => exact .inside hsince hr (.exec ((firstQuit?_call ..).trans hc))
      | once => exact absurd hk.queue (hs.queue_ne_once h₀ rfl _ _)
  | execTimeout hc =>
      cases hp with
      | call => exact .inside hsince hr (.execTimeout ((firstQuit?_call ..).trans hc))
      | once => exact absurd hk.queue (hs.queue_ne_once h₀ rfl _ _)
  | @process millis _ hm =>
      have hserves : Serves (.process millis) (seen ++ [e]) _ := .process hm
      rw [callbacks_append, List.length_append] at hserves
      cases hp with
      | @counted _ _ body hb =>
          have hone : callbacks [e] = [body] := by simp [callbacks, hb]
          rw [hone] at hserves
          exact .inside hsince hr hserves
      | ignored => exact .between hsince hr hserves
  | execWith ho =>
      cases hp with
      | @call _ _ b =>
          refine .inside hsince hr ?_
          rw [← firstQuit?_call seen b]
          exact .execWith ((onces_call seen b).trans ho)
      | once =>
          obtain rfl := hs.once_eq h₀ (hk.queue ▸ List.mem_cons_self)
          exact .inside hsince hr (.ending ho)
      | @quit _ c =>
          refine .between hsince hr ?_
          rw [← firstQuit?_quit seen c]
          exact .execWith ((onces_quit seen c).trans ho)
  | ending ho => cases hp

theorem Serves.ends (hf : Serves a seen f) (hs : Since l₀ a seen l) (he : Ends l k f t)
    (hr : k.receiver = true) (htrace : k.trace = l.trace ++ [t]) :
    ∃ seen, Returned l₀ a seen k := by
  have hlast : k.trace.getLast? = some t := by rw [htrace, List.getLast?_concat]
  cases hf with
  | exec hc =>
      cases he with
      | quit _ hk => exact ⟨_, hs.takes hk, hr, _, .exec hc, hlast⟩
  | @execTimeout millis _ hc =>
      cases he with
      | quit _ hk => exact ⟨_, hs.takes hk, hr, _, .execTimeout hc, hlast⟩
      | timedOut hq hk =>
          have hd : Drained (.execTimeout millis) seen k.queue (.execTimeout failed) := by
            rw [hk.queue, hq]
            exact .timedOut hc
          exact ⟨_, hs.keeps hk rfl, hr, _, hd, hlast⟩
  | @process millis _ hm =>
      cases he with
      | nothingLeft hq hk =>
          have hd : Drained (.process millis) seen k.queue (.process (callbacks seen).length) := by
            rw [hk.queue, hq]
            exact .process hm
          exact ⟨_, hs.keeps hk rfl, hr, _, hd, hlast⟩
  | execWith ho =>
      cases he with
      | quit hd _ => exact absurd rfl hd
  | ending ho =>
      cases he with
      | done hk => exact ⟨_, hs.keeps hk rfl, hr, _, .execWith ho, hlast⟩

/-! ## Steps -/

theorem Within.next (h : Within l₀ a p m) (h₀ : Free l₀) (hn : m.next? = some n) :
    Proceeds l₀ a p n := by
  have hstep := step_of_next? hn
  cases h with
  | between hs hr hf =>
      cases hstep with
      | finished | acts _ _ _ _ | enters _ _ _ _ _ _ => cases hf
      | takes hk hk' _ hp => exact .inl (hf.takes h₀ hs hk (hk'.trans hr) hp)
      | returns hk' htrace he => exact .inr ⟨rfl, hf.ends hs he hk' htrace⟩
  | inside hs hr hf =>
      cases hstep with
      | finished => exact .inl (.between hs hr hf)
      | acts hk hk' _ _ =>
          exact .inl (.inside (hs.keeps hk (onces_queues fun _ _ => hr)) (hk'.trans hr) hf)
      | enters _ hl _ _ _ _ => cases hr.symm.trans hl
      | takes _ _ _ hp => cases hp
      | returns _ _ he => cases he

theorem Proceeds.idle_or_within (h : Proceeds l₀ a p m) (h₀ : Free l₀) :
    Idle m ∨ Within l₀ a p m := by
  rcases h with hw | ⟨hs, seen, hret⟩
  · exact .inr hw
  · obtain ⟨l, stack⟩ := m
    cases hs
    exact .inl (.program (hret.free h₀))

theorem Free.since (h : Free l) (ht : a.refusal? = some t) (hk : Keeps l (a.queues l.receiver) k) :
    Since l a [] k := by
  rw [h.receiver, queues_accepted ht] at hk
  refine ⟨h.ordered.keeps hk, ?_, [], rfl, ?_⟩
  · rw [hk.taken, List.append_nil]
  · rw [hk.posted, List.append_nil]

theorem serves_of_drain? (hf : a.drain? = some f) (ha : a ≠ .process 0) : Serves a [] f := by
  cases a with
  | log _ | post _ | exit _ => cases hf
  | exec =>
      cases hf
      exact .exec rfl
  | execTimeout millis =>
      cases hf
      exact .execTimeout rfl
  | process millis =>
      cases hf
      exact .process fun hm => ha (by rw [hm])
  | execWith body =>
      cases hf
      exact .execWith rfl

theorem Free.call (h : Free l) (ht : a.refusal? = some t)
    (hn : Step ⟨l, [.program (a :: p)]⟩ n) : Proceeds l a p n := by
  cases hn with
  | acts hk hr htrace hquiet =>
      rcases hquiet h.receiver with hnone | rfl
      · cases ht.symm.trans (refusal?_eq_none_iff.mpr hnone)
      · refine .inr ⟨rfl, [], h.since ht hk, hr.trans h.receiver, _, .processNothing, ?_⟩
        rw [htrace]
        exact List.getLast?_concat
  | enters hk _ hr _ hf ha => exact .inl (.between (h.since ht hk) hr (serves_of_drain? hf ha))
  | takes _ _ _ hp => cases hp
  | returns _ _ he => cases he

theorem Idle.next (h : Idle m) (hn : m.next? = some n) :
    Idle n ∨ ∃ a p, m.stack = [.program (a :: p)] ∧ Within m.loop a p n := by
  have hstep := step_of_next? hn
  cases h with
  | done h => cases hn
  | @program l p h =>
      cases p with
      | nil =>
          cases hn
          exact .inl (.done h)
      | cons a p =>
          cases ht : a.refusal? with
          | some t =>
              exact ((h.call ht hstep).idle_or_within h).imp_right fun hw => ⟨a, p, rfl, hw⟩
          | none =>
              cases hstep with
              | acts hk hr _ _ =>
                  refine .inl (.program ⟨h.ordered.keeps hk, hr.trans h.receiver, ?_⟩)
                  have hqueues : onces (a.queues l.receiver) = 0 := onces_queues fun t h => by
                    cases ht.symm.trans h
                  rw [hk.queue, onces_append, h.onces, hqueues]
              | enters _ _ _ _ hf _ => cases hf.symm.trans (refusal?_eq_none_iff.mp ht)
              | takes _ _ _ hp => cases hp
              | returns _ _ he => cases he

end NetKit.EventLoop
