import NetKit.Proofs.EventLoop.Drains

/-!
# Runs with drains in them

A drain that was called stays under way until it returns. Only `exec` can wait for ever.
-/

namespace NetKit.EventLoop

open Relation

variable {l l₀ : EventLoop} {m n : Moment} {a : Action} {p : Program} {f : Frame}
variable {seen : List Event} {t : Trace}

theorem Idle.start (p : Program) : Idle (.start {} p) := .program ⟨.start, rfl, rfl⟩

/-- A drain that is under way was called at a moment of the run when none was. -/
structure Called (m : Moment) (l : EventLoop) (a : Action) (p : Program) (n : Moment) : Prop where
  free : Free l
  call : Reaches m ⟨l, [.program (a :: p)]⟩
  since : Reaches ⟨l, [.program (a :: p)]⟩ n
  within : Within l a p n

theorem Idle.reaches (h : Idle m) (hn : Reaches m n) : Idle n ∨ ∃ l a p, Called m l a p n := by
  induction hn with
  | refl => exact .inl h
  | @tail i j hi hj ih =>
      rcases ih with hidle | ⟨l, a, p, hc⟩
      · rcases hidle.next hj with hidle' | ⟨a, p, hs, hw⟩
        · exact .inl hidle'
        · obtain ⟨l, stack⟩ := i
          cases hs
          exact .inr ⟨l, a, p, hidle.free, hi, ReflTransGen.single hj, hw⟩
      · refine ((hc.within.next hc.free hj).idle_or_within hc.free).imp_right fun hw => ?_
        exact ⟨l, a, p, hc.free, hc.call, hc.since.tail hj, hw⟩

theorem idle_of_not_active (h : Reaches (.start {} p) m) (ha : m.active = false) : Idle m := by
  rcases (Idle.start p).reaches h with hi | ⟨l, a, q, hc⟩
  · exact hi
  · cases hc.within.active.symm.trans ha

theorem called_of_active (h : Reaches (.start {} p) m) (ha : m.active = true) :
    ∃ l a q, Called (.start {} p) l a q m := by
  rcases (Idle.start p).reaches h with hi | hc
  · cases hi.active.symm.trans ha
  · exact hc

/-- A program that runs inside a drain comes to each rest of itself. -/
theorem reaches_rest (hr : l.receiver = false) (done rest : Program) (below : List Frame) :
    ∃ k, Reaches ⟨l, .program (done ++ rest) :: below⟩ ⟨k, .program rest :: below⟩ := by
  induction done generalizing l with
  | nil => exact ⟨l, .refl⟩
  | cons a done ih =>
      obtain ⟨hnil, hrec, _⟩ := l.perform_quiet (a := a) fun _ _ => hr
      have hnext := Moment.next?_action l a (done ++ rest) below
      rw [hnil] at hnext
      obtain ⟨k, hk⟩ := ih (hrec.trans hr)
      exact ⟨k, .head hnext hk⟩

theorem next?_refused {below : List Frame} (ht : a.refusal? = some t) (hr : l.receiver = false) :
    ∃ k, Moment.next? ⟨l, .program (a :: p) :: below⟩ = some ⟨k, .program p :: below⟩ ∧
      Keeps l [] k ∧ k.trace = l.trace ++ [t] := by
  obtain ⟨hnil, hkeep, _, htr⟩ := perform_refused ht hr
  refine ⟨_, ?_, hkeep, htr⟩
  rw [Moment.next?_action, hnil, List.nil_append]

/-! ## Returns -/

theorem Proceeds.reaches (h : Proceeds l₀ a p m) (h₀ : Free l₀) (hn : Reaches m n) :
    Within l₀ a p n ∨
      ∃ k, Reaches m k ∧ Reaches k n ∧ k.stack = [.program p] ∧
        ∃ seen, Returned l₀ a seen k.loop := by
  induction hn with
  | refl => exact h.imp_right fun hret => ⟨m, .refl, .refl, hret⟩
  | tail hmi hin ih =>
      rcases ih with hw | ⟨k, hk, hki, hret⟩
      · exact (hw.next h₀ hin).imp_right fun hret => ⟨_, hmi.tail hin, .refl, hret⟩
      · exact .inr ⟨k, hk, hki.tail hin, hret⟩

theorem Free.proceeds (h : Free l) (ht : a.refusal? = some t) :
    ∃ n, Moment.next? ⟨l, [.program (a :: p)]⟩ = some n ∧ Proceeds l a p n :=
  ⟨_, Moment.next?_action l a p [], h.call ht (step_action l a p [])⟩

/-- Where the program goes on after it called a drain, that drain has returned. -/
theorem Free.returns (h : Free l) (ht : a.refusal? = some t)
    (hm : Reaches ⟨l, [.program (a :: p)]⟩ m) (hs : m.stack = [.program p]) :
    ∃ seen, Returned l a seen m.loop := by
  obtain ⟨n, hn, hp⟩ := h.proceeds (p := p) ht
  rcases hm.cases_head with rfl | ⟨i, hi, him⟩
  · simp at hs
  · obtain rfl := Option.some.inj (hn.symm.trans hi)
    rcases hp.reaches h him with hw | ⟨k, hk, _, hks, hret⟩
    · cases hw <;> cases hs
    · rwa [reaches_once him hk hs hks]

/-- From the call of a drain to its return, the drain is under way. -/
theorem Free.within (h : Free l) (ht : a.refusal? = some t)
    (hm : Reaches ⟨l, [.program (a :: p)]⟩ m) (hn : Reaches m n) (hs : n.stack = [.program p]) :
    m = ⟨l, [.program (a :: p)]⟩ ∨ Within l a p m ∨ m = n := by
  obtain ⟨i, hi, hp⟩ := h.proceeds (p := p) ht
  rcases hm.cases_head with rfl | ⟨j, hj, hjm⟩
  · exact .inl rfl
  · obtain rfl := Option.some.inj (hi.symm.trans hj)
    rcases hp.reaches h hjm with hw | ⟨k, hk, hkm, hks, _⟩
    · exact .inr (.inl hw)
    · obtain rfl := reaches_once hk (hjm.trans hn) hks hs
      exact .inr (.inr (reaches_antisymm hn hkm))

theorem Free.within_of_two_frames {g : Frame} {below : List Frame} (h : Free l)
    (ht : a.refusal? = some t) (hm : Reaches ⟨l, [.program (a :: p)]⟩ m) (hn : Reaches m n)
    (hs : n.stack = [.program p]) (hstack : m.stack = f :: g :: below) : Within l a p m := by
  rcases h.within ht hm hn hs with rfl | hw | rfl
  · cases hstack
  · exact hw
  · cases hs.symm.trans hstack

theorem advance?_eq_none (h : l.advance? f = none) : l.queue = [] ∧ ∃ d code, f = .drain d code := by
  cases f with
  | program p => cases p <;> cases h
  | ending d code => cases h
  | drain d code =>
      cases hq : l.queue with
      | nil => exact ⟨rfl, d, code, rfl⟩
      | cons e q =>
          cases e with
          | call b | once b =>
              simp only [advance?, next?_of_cons hq] at h
              cases h
          | quit c =>
              simp only [advance?, next?_of_cons hq] at h
              split at h <;> cases h
  | processing count =>
      cases hq : l.queue with
      | nil =>
          simp only [advance?, next?_of_nil hq] at h
          cases h
      | cons e q =>
          cases e <;> simp only [advance?, next?_of_cons hq] at h <;> cases h

/-- Only `exec` waits: what `execWith` brought is in the queue until it is taken. -/
theorem Within.waits (h : Within l₀ a p m) (h₀ : Free l₀) (hn : m.next? = none) :
    a = .exec ∧ m.loop.queue = [] ∧ m.stack = [.drain .untilQuit none, .program p] := by
  cases h with
  | inside hs hr hf =>
      rw [Moment.next?, Option.map_eq_none_iff] at hn
      obtain ⟨_, _, _, hfr⟩ := advance?_eq_none hn
      cases hfr
  | between hs hr hf =>
      rw [Moment.next?, Option.map_eq_none_iff] at hn
      obtain ⟨hq, d, code, rfl⟩ := advance?_eq_none hn
      cases hf with
      | exec hc => exact ⟨rfl, hq, rfl⟩
      | execTimeout hc =>
          simp only [advance?, next?_of_nil hq] at hn
          cases hn
      | execWith ho =>
          have hadd := hs.onces_add h₀
          rw [ho, hq] at hadd
          cases hadd

/-- A run stops at its end, or in an `exec` that waits. -/
theorem finished_or_waits (h : Reaches (.start {} p) m) (hn : m.next? = none) :
    m.stack = [] ∨
      ∃ rest, m.loop.queue = [] ∧ m.stack = [.drain .untilQuit none, .program rest] := by
  rcases (Idle.start p).reaches h with hi | ⟨l, a, q, hc⟩
  · cases hi with
    | done _ => exact .inl rfl
    | @program l p _ => cases p <;> cases hn
  · exact .inr ⟨q, (hc.within.waits hc.free hn).2⟩

/-- A drain returns, but `exec` waits where no quit request comes. -/
theorem Free.returns_or_waits (h : Free l) (ht : a.refusal? = some t) :
    (∃ k, Reaches ⟨l, [.program (a :: p)]⟩ k ∧ k.stack = [.program p]) ∨
      a = .exec ∧ (Moment.last ⟨l, [.program (a :: p)]⟩).loop.queue = [] ∧
        (Moment.last ⟨l, [.program (a :: p)]⟩).stack = [.drain .untilQuit none, .program p] := by
  obtain ⟨n, hn, hp⟩ := h.proceeds (p := p) ht
  rcases hp.reaches h (reaches_last n) with hw | ⟨k, hk, _, hs, _⟩
  · rw [Moment.last_of_some hn]
    exact .inr (hw.waits h n.next?_last)
  · exact .inl ⟨k, ReflTransGen.head hn hk, hs⟩

end NetKit.EventLoop
