import NetKit.Proofs.EventLoop.Steps

/-!
# What was queued and taken

No step loses an event, and each event that was taken was taken in a step of its own. A callback that
was begun was under way, inside a drain.
-/

namespace NetKit.EventLoop

variable {l k : EventLoop} {m n : Moment} {body : Program}
variable {new ahead after : List Event} {e : Event}

/-- No event is lost, doubled or out of turn, and callbacks begin as their events are taken. -/
structure InOrder (l : EventLoop) : Prop where
  posted : l.posted = l.taken ++ l.queue
  begun : l.begun = callbacks l.taken

theorem InOrder.start : InOrder {} := ⟨rfl, rfl⟩

theorem InOrder.keeps (h : l.InOrder) (hk : Keeps l new k) : k.InOrder where
  posted := by rw [hk.posted, h.posted, hk.taken, hk.queue, List.append_assoc]
  begun := by rw [hk.begun, hk.taken, h.begun]

theorem InOrder.takes (h : l.InOrder) (hk : Takes l e k) : k.InOrder where
  posted := by rw [hk.posted, h.posted, hk.taken, hk.queue, List.append_assoc]; rfl
  begun := by rw [hk.begun, hk.taken, h.begun, callbacks_append]

theorem InOrder.next (h : m.loop.InOrder) (hn : m.next? = some n) : n.loop.InOrder := by
  rcases (step_of_next? hn).keeps_or_takes with ⟨new, hk⟩ | ⟨e, ht⟩
  · exact h.keeps hk
  · exact h.takes ht

theorem InOrder.reaches (h : m.loop.InOrder) (hn : Reaches m n) : n.loop.InOrder := by
  induction hn with
  | refl => exact h
  | tail _ hn ih => exact ih.next hn

theorem posted_of_reaches (h : Reaches m n) : ∃ new, n.loop.posted = m.loop.posted ++ new := by
  induction h with
  | refl => exact ⟨[], (List.append_nil _).symm⟩
  | tail _ hn ih =>
      obtain ⟨old, hold⟩ := ih
      rcases (step_of_next? hn).keeps_or_takes with ⟨new, hk⟩ | ⟨e, ht⟩
      · exact ⟨old ++ new, by rw [hk.posted, hold, List.append_assoc]⟩
      · exact ⟨old, ht.posted.trans hold⟩

/-- A stack that comes back without an event taken is that of the same moment. -/
theorem eq_of_taken_eq (h : Reaches m n) (hm : m.loop.InOrder) (hs : n.stack = m.stack)
    (ht : n.loop.taken = m.loop.taken) : m = n := by
  obtain ⟨new, hnew⟩ := posted_of_reaches h
  have hqueue : n.loop.queue = m.loop.queue ++ new := by
    rw [(hm.reaches h).posted, hm.posted, ht, List.append_assoc] at hnew
    exact List.append_cancel_left hnew
  refine eq_of_weight_le h ?_
  simp only [Moment.weight, hs, hqueue, queueWeight_append]
  omega

/-! ## Events taken -/

/-- Each event that was taken in a run was taken in a step of its own. -/
theorem exists_takes (h : Reaches m n) (ht : n.loop.taken = m.loop.taken ++ ahead ++ e :: after) :
    ∃ i j, Reaches m i ∧ i.next? = some j ∧ Reaches j n ∧ Takes i.loop e j.loop ∧
      i.loop.taken = m.loop.taken ++ ahead := by
  induction h generalizing after with
  | refl =>
      have hlength := congrArg List.length ht
      simp only [List.length_append, List.length_cons] at hlength
      omega
  | @tail i j hmi hij ih =>
      rcases (step_of_next? hij).keeps_or_takes with ⟨new, hk⟩ | ⟨e', hk⟩
      · obtain ⟨i', j', hi', hnext, hj', htakes⟩ := ih (hk.taken.symm.trans ht)
        exact ⟨i', j', hi', hnext, hj'.tail hij, htakes⟩
      · rw [hk.taken] at ht
        rcases List.eq_nil_or_concat' after with rfl | ⟨after, last, rfl⟩
        · obtain ⟨htaken, he⟩ := List.append_inj' ht rfl
          cases he
          exact ⟨i, j, hmi, hij, .refl, hk, htaken⟩
        · rw [← List.cons_append, ← List.append_assoc] at ht
          obtain ⟨i', j', hi', hnext, hj', htakes⟩ := ih (List.append_inj' ht rfl).1
          exact ⟨i', j', hi', hnext, hj'.tail hij, htakes⟩

/-- The callback of an event that was taken was the innermost frame, right above the drain. -/
theorem exists_begun (h : Reaches m n) (ht : n.loop.taken = m.loop.taken ++ ahead ++ e :: after)
    (hb : e.body? = some body) :
    ∃ i g below, Reaches m i ∧ Reaches i n ∧ i.loop.taken = m.loop.taken ++ ahead ++ [e] ∧
      i.stack = .program body :: g :: below ∧ g.drains = true := by
  obtain ⟨i, j, hi, hnext, hj, htakes, htaken⟩ := exists_takes h ht
  obtain ⟨f, frames, below, _, hstack, hpush⟩ := (step_of_next? hnext).pushes htakes hb
  obtain ⟨g, hg, rfl⟩ := hpush.of_body? hb
  exact ⟨j, g, below, hi.tail hnext, hj, htaken ▸ htakes.taken, hstack, hg⟩

end NetKit.EventLoop
