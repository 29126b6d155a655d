import NetKit.Proofs.EventLoop.Returns

/-!
# Callbacks run in the order they were posted

No event is lost, doubled or overtaken, in any program and however deep its callbacks call the loop
again.
-/

namespace NetKit.EventLoop

/-- At every moment of every run: what was posted is what was taken off the queue, followed by what
is in it, and the callbacks begun are those that were taken. A step does what `Step` says: it queues
what its action queues, or takes the event at the front for a drain and goes on with its callback. A
run stops at its end or in an `exec` that waits. The callback of each event that was taken was the
innermost frame, right above a drain. A drain called while another is under way is refused. Any other
drain returns, unless it is an `exec` that waits for a quit request that does not come; where it
returns, it took `seen` off the queue, left the rest there, and shows what `Drained` says. -/
theorem callbacks_in_order (p : Program) {m : Moment} (hm : Reaches (.start {} p) m) :
    m.loop.posted = m.loop.taken ++ m.loop.queue ∧
    m.loop.begun = callbacks m.loop.taken ∧
    (∀ n, m.next? = some n → Step m n) ∧
    (m.next? = none → m.stack = [] ∨
      ∃ rest, m.loop.queue = [] ∧ m.stack = [.drain .untilQuit none, .program rest]) ∧
    (∀ ahead e after body, m.loop.taken = ahead ++ e :: after → e.body? = some body →
      ∃ i g below, Reaches (.start {} p) i ∧ Reaches i m ∧ i.loop.taken = ahead ++ [e] ∧
        i.stack = .program body :: g :: below ∧ g.drains = true) ∧
    ∀ a t rest below, a.refusal? = some t → m.stack = .program (a :: rest) :: below →
      (m.active = true → ∃ n, m.next? = some n ∧ n.stack = .program rest :: below ∧
        Keeps m.loop [] n.loop ∧ n.loop.trace = m.loop.trace ++ [t]) ∧
      (m.active = false →
        ((∃ k, Reaches m k ∧ k.stack = .program rest :: below) ∨
          a = .exec ∧ m.last.loop.queue = [] ∧
            m.last.stack = .drain .untilQuit none :: .program rest :: below) ∧
        ∀ k, Reaches m k → k.stack = .program rest :: below →
          ∃ seen new shown, Drained a seen k.loop.queue shown ∧
            k.loop.trace.getLast? = some shown ∧
            k.loop.taken = m.loop.taken ++ seen ∧
            k.loop.begun = m.loop.begun ++ callbacks seen ∧
            k.loop.posted = m.loop.posted ++ new ∧
            seen ++ k.loop.queue = m.loop.queue ++ new) := by
  have hord := InOrder.start.reaches hm
  refine ⟨hord.posted, hord.begun, fun n hn => step_of_next? hn, finished_or_waits hm,
    fun ahead e after body ht hb => exists_begun hm ht hb, ?_⟩
  intro a t rest below ht hstack
  obtain ⟨l, stack⟩ := m
  cases hstack
  constructor
  · intro hact
    obtain ⟨_, _, _, hc⟩ := called_of_active hm hact
    obtain ⟨k, hn, hkeep, htrace⟩ := next?_refused ht hc.within.receiver
    exact ⟨_, hn, rfl, hkeep, htrace⟩
  · intro hact
    cases idle_of_not_active hm hact with
    | program hl =>
        refine ⟨hl.returns_or_waits ht, fun k hk hs => ?_⟩
        obtain ⟨seen, hret⟩ := hl.returns ht hk hs
        obtain ⟨shown, hd, htrace⟩ := hret.shown
        obtain ⟨new, _, hpost, hqueue⟩ := hret.since.queue hl
        rw [List.append_assoc] at hpost hqueue
        exact ⟨seen, _, shown, hd, htrace, hret.since.taken, hret.begun hl, hpost, hqueue⟩

/-- Two callbacks, a quit request between them, and an `exec`: it shows the code and leaves the
second callback in the queue, with the request that the first one made. -/
theorem callbacks_in_order_until_quit :
    ∃ m k : Moment, Reaches (.start {} [.post [.exit 4], .exit 3, .post [], .exec]) m ∧
      Reaches m k ∧ k.stack = [.program []] ∧
      m.loop.taken = [] ∧ m.loop.queue = [.call [.exit 4], .quit 3, .call []] ∧
      k.loop.taken = [.call [.exit 4], .quit 3] ∧ k.loop.begun = [[.exit 4]] ∧
      k.loop.queue = [.call [], .quit 4] ∧ k.loop.trace.getLast? = some (.exec 3) ∧
      Drained .exec [.call [.exit 4], .quit 3] [.call [], .quit 4] (.exec 3) := by
  have hm := reaches_after (.start {} [.post [.exit 4], .exit 3, .post [], .exec]) 3
  have hk := reaches_after (Moment.after (.start {} [.post [.exit 4], .exit 3, .post [], .exec]) 3) 5
  obtain ⟨_, _, _, _, _, hcalls⟩ := callbacks_in_order _ hm
  obtain ⟨_, hret⟩ := (hcalls .exec _ [] [] rfl rfl).2 rfl
  obtain ⟨seen, new, shown, hd, htrace, htaken, hbegun, _, _⟩ := hret _ hk rfl
  have hseen : [.call [.exit 4], .quit 3] = seen := htaken
  have hshown : .exec 3 = shown := Option.some.inj htrace
  subst hseen hshown
  exact ⟨_, _, hm, hk, rfl, rfl, rfl, htaken, hbegun, rfl, htrace, hd⟩

end NetKit.EventLoop
