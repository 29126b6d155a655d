import NetKit.Proofs.EventLoop.Returns

/-!
# A callback that must not outlive the call that brought it

The callback of an `execWith` runs before the call returns, so no event in the queue is one whose
call has gone.
-/

namespace NetKit.EventLoop

variable {l l₀ : EventLoop} {m n : Moment} {a : Action} {p q body : Program} {f : Frame}
variable {seen : List Event}

theorem onces_brings_le (a : Action) : onces a.brings ≤ 1 := by
  cases a with
  | execWith body => exact Nat.le_refl 1
  | _ => exact Nat.zero_le 1

/-- The drain that waits for the callback it brought is the only one to find such an event. -/
theorem Serves.of_once_mem {b : Program} (hf : Serves a seen f) (h₀ : Free l₀)
    (hs : Since l₀ a seen l) (hb : .once b ∈ l.queue) :
    a = .execWith b ∧ ∃ code, f = .drain .untilOnce code := by
  have hadd := hs.onces_add h₀
  have hpos : 0 < onces l.queue := List.countP_pos_iff.mpr ⟨_, hb, rfl⟩
  cases hf with
  | exec | execTimeout | process =>
      have : onces l.queue = 0 := (Nat.add_eq_zero_iff.mp hadd).2
      omega
  | execWith ho =>
      obtain rfl := hs.once_eq h₀ hb
      exact ⟨rfl, _, rfl⟩
  | @ending body ahead ho =>
      have hone : onces (ahead ++ [.once body]) = 1 := by
        rw [onces_append, ho]
        rfl
      have : onces [Event.once body] = 1 := rfl
      simp only [Action.brings] at hadd
      omega

/-- Where the callback was taken, all that was queued before the call had been taken ahead of it. -/
theorem Since.ahead_eq {ahead : List Event} (h : Since l₀ (.execWith body) (ahead ++ [.once body]) l)
    (h₀ : Free l₀) (ho : onces ahead = 0) :
    ahead = l₀.queue ∧ l.posted = l₀.posted ++ [.once body] ++ l.queue := by
  obtain ⟨new, hn, hpost, hqueue⟩ := h.queue h₀
  have hleft : onces l.queue = 0 := by
    have hadd := h.onces_add h₀
    rw [onces_append, ho] at hadd
    have hone : onces [Event.once body] = 1 := rfl
    simp only [Action.brings] at hadd
    omega
  have hsplit : ahead ++ .once body :: l.queue = l₀.queue ++ .once body :: new := by
    simpa only [Action.brings, List.append_assoc, List.singleton_append] using hqueue
  obtain ⟨rfl, -, rfl⟩ :=
    (List.append_cons_inj_of_notMem (once_not_mem ho) (once_not_mem hleft)).mp hsplit
  exact ⟨rfl, hpost⟩

/-- What the call took is what was queued before it and the callback that it brought, and what is
left is what was queued after. -/
theorem Returned.execWith (h : Returned l₀ (.execWith body) seen l) (h₀ : Free l₀) :
    seen = l₀.queue ++ [.once body] ∧ l.posted = l₀.posted ++ [.once body] ++ l.queue ∧
      l.trace.getLast? = some (.execWith ((firstQuit? l₀.queue).getD 0) true) := by
  obtain ⟨shown, hd, htrace⟩ := h.shown
  cases hd with
  | execWith ho =>
      obtain ⟨rfl, hpost⟩ := h.since.ahead_eq h₀ ho
      exact ⟨rfl, hpost, htrace⟩

/-! ## The callback -/

/-- While the drain is bound to end, its callback is the last event that was taken. -/
theorem Within.taken_of_ending {d : Drain} {code : Int} {below : List Frame}
    (h : Within l₀ (.execWith body) p m) (h₀ : Free l₀)
    (hs : m.stack = .program q :: .ending d code :: below) :
    m.loop.taken = l₀.taken ++ (l₀.queue ++ [.once body]) := by
  cases h with
  | between _ _ hf => cases hs
  | inside hsince _ hf =>
      cases hs
      cases hf with
      | ending ho =>
          obtain ⟨rfl, _⟩ := hsince.ahead_eq h₀ ho
          exact hsince.taken

/-- Until the call returns, the drain takes the callback that it brought and runs it. -/
theorem Free.begins (h : Free l) (hk : Reaches ⟨l, [.program (.execWith body :: p)]⟩ m)
    (hs : m.stack = [.program p]) :
    ∃ i, Reaches ⟨l, [.program (.execWith body :: p)]⟩ i ∧ Reaches i m ∧
      i.stack =
        [.program body, .ending .untilOnce ((firstQuit? l.queue).getD 0), .program p] := by
  obtain ⟨seen, hret⟩ := h.returns rfl hk hs
  obtain ⟨rfl, -, -⟩ := hret.execWith h
  have htaken := hret.since.taken.trans (List.append_assoc ..).symm
  obtain ⟨i, g, below, hi, him, hseen, hstack, -⟩ := exists_begun hk htaken rfl
  refine ⟨i, hi, him, ?_⟩
  cases h.within_of_two_frames rfl hi him hs hstack with
  | between _ _ hf =>
      cases hstack
      cases hf
  | inside hsince _ hf =>
      cases hstack
      rw [List.append_assoc] at hseen
      have hlast := List.append_cancel_left (hsince.taken.symm.trans hseen)
      cases hf with
      | execWith ho =>
          rw [hlast, onces_append, h.onces] at ho
          cases ho
      | ending _ =>
          obtain ⟨rfl, -⟩ := List.append_inj' hlast rfl
          rfl

/-- The callback and each rest of it is the innermost frame at one moment of the call. -/
theorem Free.runs_once (h : Free l) (hk : Reaches ⟨l, [.program (.execWith body :: p)]⟩ m)
    (hs : m.stack = [.program p]) (hq : q <:+ body) :
    ∃! i, Reaches ⟨l, [.program (.execWith body :: p)]⟩ i ∧ Reaches i m ∧
      i.stack =
        [.program q, .ending .untilOnce ((firstQuit? l.queue).getD 0), .program p] := by
  obtain ⟨done, rfl⟩ := hq
  obtain ⟨i, hi, him, hstack⟩ := h.begins hk hs
  have hwithin := h.within_of_two_frames rfl hi him hs hstack
  obtain ⟨k, hrest⟩ := reaches_rest hwithin.receiver done q
    [.ending .untilOnce ((firstQuit? l.queue).getD 0), .program p]
  rw [← hstack] at hrest
  have hn := hi.trans hrest
  have hnm := reaches_return [_, _] hn hk rfl hs
  refine ⟨_, ⟨hn, hnm, rfl⟩, ?_⟩
  rintro j ⟨hj, hjm, hstackj⟩
  have htaken := (h.within_of_two_frames rfl hn hnm hs rfl).taken_of_ending h rfl
  have htakenj := (h.within_of_two_frames rfl hj hjm hs hstackj).taken_of_ending h hstackj
  rcases StateTransition.reaches_total hj hn with hr | hr
  · exact eq_of_taken_eq hr (InOrder.reaches h.ordered hj) hstackj.symm (htaken.trans htakenj.symm)
  · exact (eq_of_taken_eq hr (InOrder.reaches h.ordered hn) hstackj
      (htakenj.trans htaken.symm)).symm

/-- At every moment of every run: a step does what `Step` says. A call of `execWith` while a drain is
under way is refused, and its callback is not queued. Any other call returns, having taken all that
was queued before it and then its callback, whatever quit requests were among them, and shows the
code of the first of them. Between the call and the return, the callback and each rest of it is the
innermost frame at exactly one moment, right above the drain, which ends after it. An event in the
queue whose callback ends a drain was brought by a call that is still under way. -/
theorem execWith_runs_once (p : Program) {m : Moment} (hm : Reaches (.start {} p) m) :
    (∀ n, m.next? = some n → Step m n) ∧
    (∀ body rest below, m.stack = .program (.execWith body :: rest) :: below →
      (m.active = true → ∃ n, m.next? = some n ∧ n.stack = .program rest :: below ∧
        Keeps m.loop [] n.loop ∧ n.loop.trace = m.loop.trace ++ [.execWith failed false]) ∧
      (m.active = false →
        (∃ k, Reaches m k ∧ k.stack = .program rest :: below) ∧
        ∀ k, Reaches m k → k.stack = .program rest :: below →
          k.loop.taken = m.loop.taken ++ m.loop.queue ++ [.once body] ∧
          k.loop.begun = m.loop.begun ++ callbacks m.loop.queue ++ [body] ∧
          k.loop.posted = m.loop.posted ++ [.once body] ++ k.loop.queue ∧
          k.loop.trace.getLast? =
            some (.execWith ((firstQuit? m.loop.queue).getD 0) true) ∧
          ∀ q, q <:+ body → ∃! i, Reaches m i ∧ Reaches i k ∧
            i.stack = .program q :: .ending .untilOnce ((firstQuit? m.loop.queue).getD 0) ::
              .program rest :: below)) ∧
    onces m.loop.queue ≤ 1 ∧
    ∀ body, .once body ∈ m.loop.queue → ∃ l rest above code,
      Reaches (.start {} p) ⟨l, [.program (.execWith body :: rest)]⟩ ∧
      Reaches ⟨l, [.program (.execWith body :: rest)]⟩ m ∧
      m.stack = above ++ [.drain .untilOnce code, .program rest] := by
  refine ⟨fun n hn => step_of_next? hn,
    fun body rest below hstack => ⟨fun hact => ?_, fun hact => ?_⟩, ?_, fun body hb => ?_⟩
  · obtain ⟨l, stack⟩ := m
    cases hstack
    obtain ⟨_, _, _, hc⟩ := called_of_active hm hact
    obtain ⟨k, hn, hkeep, htrace⟩ := next?_refused (a := .execWith body) rfl hc.within.receiver
    exact ⟨_, hn, rfl, hkeep, htrace⟩
  · obtain ⟨l, stack⟩ := m
    cases hstack
    cases idle_of_not_active hm hact with
    | program hl =>
        constructor
        · rcases hl.returns_or_waits (a := .execWith body) (p := rest) rfl with hk | ⟨ha, _⟩
          · exact hk
          · cases ha
        · intro k hk hs
          obtain ⟨seen, hret⟩ := hl.returns rfl hk hs
          obtain ⟨rfl, hpost, htrace⟩ := hret.execWith hl
          have hbegun := hret.begun hl
          rw [callbacks_append, ← List.append_assoc] at hbegun
          exact ⟨hret.since.taken.trans (List.append_assoc ..).symm, hbegun, hpost, htrace,
            fun q hq => hl.runs_once hk hs hq⟩
  · rcases (Idle.start p).reaches hm with hi | ⟨l, a, q, hc⟩
    · rw [hi.free.onces]
      exact Nat.zero_le 1
    · cases hc.within with
      | between hs _ _ | inside hs _ _ =>
          have hadd := hs.onces_add hc.free
          have hle := onces_brings_le a
          exact (Nat.le_add_left _ _).trans (hadd.trans_le hle)
  · rcases (Idle.start p).reaches hm with hi | ⟨l, a, q, hc⟩
    · exact absurd hb (once_not_mem hi.free.onces)
    · cases hc.within with
      | between hs _ hf =>
          obtain ⟨rfl, code, rfl⟩ := hf.of_once_mem hc.free hs hb
          exact ⟨l, q, [], code, hc.call, hc.since, rfl⟩
      | inside hs _ hf =>
          obtain ⟨rfl, code, rfl⟩ := hf.of_once_mem hc.free hs hb
          exact ⟨l, q, [_], code, hc.call, hc.since, rfl⟩

/-- A quit request ahead of the callback does not keep it from running, and what the callback posts
stays in the queue. -/
theorem execWith_runs_once_past_quit :
    ∃ m k : Moment, Reaches (.start {} [.exit 5, .post [], .execWith [.post [.exec]]]) m ∧
      Reaches m k ∧ k.stack = [.program []] ∧
      k.loop.begun = [[], [.post [.exec]]] ∧
      k.loop.taken = [.quit 5, .call [], .once [.post [.exec]]] ∧
      k.loop.queue = [.call [.exec]] ∧
      k.loop.trace.getLast? = some (.execWith 5 true) ∧
      ∃! i, Reaches m i ∧ Reaches i k ∧
        i.stack = [.program [.post [.exec]], .ending .untilOnce 5, .program []] := by
  have hm := reaches_after (.start {} [.exit 5, .post [], .execWith [.post [.exec]]]) 2
  have hk := reaches_after
    (Moment.after (.start {} [.exit 5, .post [], .execWith [.post [.exec]]]) 2) 8
  obtain ⟨_, hcalls, _⟩ := execWith_runs_once _ hm
  obtain ⟨htaken, hbegun, _, htrace, honce⟩ := ((hcalls _ [] [] rfl).2 rfl).2 _ hk rfl
  exact ⟨_, _, hm, hk, rfl, hbegun, htaken, rfl, htrace, honce _ (List.suffix_refl _)⟩

end NetKit.EventLoop
