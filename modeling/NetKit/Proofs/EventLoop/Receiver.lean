import NetKit.Proofs.EventLoop.Steps

/-!
# Who has the receiving end of the queue

The receiving end is in its place, or one drain has it. A drain that is called meanwhile is refused,
and a drain that is called after it was given back begins, whatever ended the drain before.
-/

namespace NetKit.EventLoop

open Relation

/-! ## Limits of time -/

/-- A step where limits of time pass as they like: also while events are queued, and a limit of no
time also after the first look at the queue. -/
inductive Turn : Moment → Moment → Prop
  | next {m n : Moment} (h : m.next? = some n) : Turn m n
  | timedOut {l : EventLoop} {millis : Nat} {code : Option Int} {below : List Frame} :
      Turn ⟨l, .drain (.untilQuitOrIdle millis) code :: below⟩
        ⟨(l.remark (.timedOut millis)).leave (.untilQuitOrIdle millis) failed, below⟩
  | outOfTime {l : EventLoop} {count : Nat} {below : List Frame} :
      Turn ⟨l, .processing count :: below⟩ ⟨l.putReceiver.record (.process count), below⟩
  | inNoTime {l : EventLoop} {p : Program} {below : List Frame} (h : l.receiver = true) :
      Turn ⟨l, .program (.process 0 :: p) :: below⟩
        ⟨{ l with receiver := false }, .processing 0 :: .program p :: below⟩

abbrev Turns : Moment → Moment → Prop := ReflTransGen Turn

variable {l k : EventLoop} {m n : Moment} {a : Action} {p : Program} {f : Frame}
variable {below : List Frame} {t : Trace}

theorem Reaches.turns (h : Reaches m n) : Turns m n := by
  induction h with
  | refl => exact .refl
  | tail _ hn ih => exact ih.tail (.next hn)

theorem Turn.of_program (h : Turn ⟨l, .program (a :: p) :: below⟩ n) :
    n = ⟨(l.perform a).1, (l.perform a).2 ++ .program p :: below⟩ ∨
      a = .process 0 ∧ l.receiver = true ∧
        n = ⟨{ l with receiver := false }, .processing 0 :: .program p :: below⟩ := by
  cases h with
  | next h =>
      rw [Moment.next?_action] at h
      exact .inl (Option.some.inj h).symm
  | inNoTime h => exact .inr ⟨rfl, h, rfl⟩

theorem turn_action (l : EventLoop) (a : Action) (p : Program) (below : List Frame) :
    Turn ⟨l, .program (a :: p) :: below⟩ ⟨(l.perform a).1, (l.perform a).2 ++ .program p :: below⟩ :=
  .next (Moment.next?_action l a p below)

/-! ## The one that has the receiving end -/

/-- The drains under way have the receiving end, and so has the loop where it is in its place. -/
def Moment.holders (m : Moment) : Nat := m.loop.receiver.toNat + m.stack.countP Frame.drains

theorem Moment.active_eq_false_iff : m.active = false ↔ m.stack.countP Frame.drains = 0 := by
  simp [Moment.active, List.countP_eq_zero]

theorem Moment.receiver_iff (h : m.holders = 1) : m.loop.receiver = true ↔ m.active = false := by
  rw [Moment.holders] at h
  rw [Moment.active_eq_false_iff]
  cases hr : m.loop.receiver with
  | false =>
      rw [hr, Bool.toNat_false] at h
      simp only [Bool.false_eq_true, false_iff]
      omega
  | true =>
      rw [hr, Bool.toNat_true] at h
      simp only [true_iff]
      omega

/-- What a step does to the receiving end. A drain goes on with it or gives it back; any other frame
leaves it where it is, or hands it to a drain that it calls. -/
inductive Passes : Moment → Moment → Prop
  | calls {l k : EventLoop} {f : Frame} {frames below : List Frame} (hf : f.drains = false)
      (hk : k.receiver.toNat + frames.countP Frame.drains = l.receiver.toNat) :
      Passes ⟨l, f :: below⟩ ⟨k, frames ++ below⟩
  | goesOn {l k : EventLoop} {f : Frame} {frames below : List Frame} (hf : f.drains = true)
      (hk : k.receiver = l.receiver) (hframes : frames.countP Frame.drains = 1) :
      Passes ⟨l, f :: below⟩ ⟨k, frames ++ below⟩
  | givesBack {l k : EventLoop} {f : Frame} {below : List Frame} {shown : Trace}
      (hf : f.drains = true) (hk : k.receiver = true) (hshown : k.trace = l.trace ++ [shown]) :
      Passes ⟨l, f :: below⟩ ⟨k, below⟩

theorem drains_of_drain? (h : a.drain? = some f) : f.drains = true := by
  cases a with
  | log _ | post _ | exit _ => cases h
  | exec | execTimeout _ | process _ | execWith _ =>
      cases h
      rfl

theorem passes_calls (frames : List Frame) (hf : f.drains = false)
    (hk : k.receiver.toNat + frames.countP Frame.drains = l.receiver.toNat) :
    Passes ⟨l, f :: below⟩ ⟨k, frames ++ below⟩ := .calls hf hk

theorem Step.passes (h : Step m n) : Passes m n := by
  cases h with
  | finished => exact passes_calls [] rfl rfl
  | @acts l k a rest below _ hr _ _ =>
      exact passes_calls [.program rest] rfl (by rw [hr]; rfl)
  | @enters l k a f rest below _ hl hr _ hf _ =>
      have hcount : [f, .program rest].countP Frame.drains = 1 := by
        rw [List.countP_cons_of_pos (drains_of_drain? hf)]
        rfl
      exact passes_calls [f, .program rest] rfl (by rw [hl, hr, hcount]; rfl)
  | takes _ hr _ hf => exact .goesOn hf.drains.1 hr hf.drains.2
  | returns hr htrace hf => exact .givesBack hf.drains hr htrace

theorem Turn.passes (h : Turn m n) : Passes m n := by
  cases h with
  | timedOut | outOfTime => exact .givesBack rfl rfl rfl
  | @inNoTime l p below h =>
      exact passes_calls [.processing 0, .program p] rfl (by rw [h]; rfl)
  | next h => exact (step_of_next? h).passes

theorem Passes.holders (h : Passes m n) (hm : m.holders = 1) : n.holders = 1 := by
  cases h with
  | calls hf hk =>
      simp only [Moment.holders, List.countP_append] at hm ⊢
      rw [List.countP_cons_of_neg (by simp [hf])] at hm
      omega
  | goesOn hf hk hframes =>
      simp only [Moment.holders, List.countP_append] at hm ⊢
      rw [List.countP_cons_of_pos hf] at hm
      rw [hk]
      omega
  | givesBack hf hk _ =>
      simp only [Moment.holders] at hm ⊢
      rw [List.countP_cons_of_pos hf] at hm
      rw [hk, Bool.toNat_true]
      omega

theorem Turns.holders (h : Turns (.start {} p) m) : m.holders = 1 := by
  induction h with
  | refl => rfl
  | tail _ hn ih => exact hn.passes.holders ih

/-- A drain under way returns to what called it, with the receiving end given back. -/
theorem Passes.returned (h : Passes m n) (hm : m.active = true) (hn : n.active = false) :
    n.loop.receiver = true ∧ ∃ f shown, f.drains = true ∧ m.stack = f :: n.stack ∧
      n.loop.trace = m.loop.trace ++ [shown] := by
  rw [Moment.active_eq_false_iff] at hn
  cases h with
  | @calls _ _ f frames below hf hk =>
      -- The drain is further down, and still there.
      rw [List.countP_append] at hn
      have hbelow : below.countP Frame.drains = 0 := (Nat.add_eq_zero_iff.mp hn).2
      have hidle : (f :: below).countP Frame.drains = 0 := by
        rw [List.countP_cons_of_neg (by simp [hf]), hbelow]
      cases (Moment.active_eq_false_iff.mpr hidle).symm.trans hm
  | goesOn hf hk hframes =>
      rw [List.countP_append] at hn
      omega
  | givesBack hf hk hshown => exact ⟨hk, _, _, hf, rfl, hshown⟩

/-! ## Refused and begun -/

theorem Turn.refused (h : Turn ⟨l, .program (a :: p) :: below⟩ n) (ht : a.refusal? = some t)
    (hr : l.receiver = false) :
    n.stack = .program p :: below ∧ Keeps l [] n.loop ∧ n.loop.receiver = false ∧
      n.loop.trace = l.trace ++ [t] := by
  obtain ⟨hnil, hkeep, hrec, htrace⟩ := perform_refused ht hr
  rcases h.of_program with rfl | ⟨_, hr', _⟩
  · exact ⟨by rw [hnil, List.nil_append], hkeep, hrec, htrace⟩
  · cases hr.symm.trans hr'

/-- A drain that finds the receiving end in its place begins, or its limit of no time has passed. -/
theorem Turn.begun (h : Turn ⟨l, .program (a :: p) :: below⟩ n) (hf : a.drain? = some f)
    (hr : l.receiver = true) :
    Keeps l a.brings n.loop ∧ n.loop.remarks = l.remarks ∧
      (n.stack = f :: .program p :: below ∧ n.loop.receiver = false ∧ n.loop.trace = l.trace ∨
        a = .process 0 ∧ n.stack = .program p :: below ∧ n.loop.receiver = true ∧
          n.loop.trace = l.trace ++ [.process 0]) := by
  have hkeep : Keeps l a.brings (l.perform a).1 := by
    cases a with
    | log _ | post _ | exit _ => cases hf
    | exec | execTimeout _ | process _ | execWith _ => exact perform_accepted rfl hr
  rcases h.of_program with rfl | ⟨rfl, _, rfl⟩
  · refine ⟨hkeep, ?_⟩
    cases a with
    | log _ | post _ | exit _ => cases hf
    | exec | execTimeout _ | execWith _ =>
        cases hf
        simp [perform, enter, hr, post]
    | process millis =>
        cases hf
        by_cases hm : millis = 0 <;> simp [perform, enter, hr, hm, record, putReceiver]
  · cases hf
    exact ⟨.refl rfl rfl rfl rfl, rfl, .inl ⟨rfl, rfl, rfl⟩⟩

/-- A drain that has just begun takes the event at the front of the queue. -/
theorem turn_takes (hf : a.drain? = some f) {e : Event} {q : List Event} (hq : l.queue = e :: q) :
    ∃ k, Turn ⟨l, f :: below⟩ k ∧ Takes l e k.loop := by
  have hb : l.begun = l.begun ++ [] := (List.append_nil _).symm
  have htake : ∃ k frames, l.advance? f = some (k, frames) ∧ Takes l e k := by
    cases a with
    | log _ | post _ | exit _ => cases hf
    | exec | execTimeout millis | process millis | execWith body =>
        cases hf
        cases e <;> simp only [advance?, next?_of_cons hq]
        · exact ⟨_, _, rfl, hq, rfl, rfl, rfl⟩
        · exact ⟨_, _, rfl, hq, rfl, rfl, rfl⟩
        · exact ⟨_, _, rfl, hq, rfl, rfl, hb⟩
  obtain ⟨k, frames, hk, ht⟩ := htake
  exact ⟨⟨k, frames ++ below⟩, .next (by simp only [Moment.next?, hk, Option.map_some]), ht⟩

/-- At every moment of every run, however the limits of time pass: the receiving end is in its place
exactly while no drain is under way, and there are never two drains. A drain that is called
meanwhile is refused at once, with nothing taken and nothing queued. Where a drain ends, the
receiving end is back, and a drain that is called then begins and takes the first event there is. -/
theorem one_drain_at_a_time (p : Program) {m : Moment} (hm : Turns (.start {} p) m) :
    (m.loop.receiver = true ↔ m.active = false) ∧
    m.stack.countP Frame.drains ≤ 1 ∧
    (∀ a t rest below, a.refusal? = some t → m.stack = .program (a :: rest) :: below →
      m.active = true → (∃ n, Turn m n) ∧ ∀ n, Turn m n → n.stack = .program rest :: below ∧
        Keeps m.loop [] n.loop ∧ n.loop.receiver = false ∧ n.loop.trace = m.loop.trace ++ [t]) ∧
    (∀ n, Turn m n → m.active = true → n.active = false → n.loop.receiver = true ∧
      ∃ f shown, f.drains = true ∧ m.stack = f :: n.stack ∧
        n.loop.trace = m.loop.trace ++ [shown]) ∧
    ∀ a f rest below, a.drain? = some f → m.stack = .program (a :: rest) :: below →
      m.active = false → (∃ n, Turn m n) ∧ ∀ n, Turn m n →
        Keeps m.loop a.brings n.loop ∧ n.loop.remarks = m.loop.remarks ∧
        (n.stack = f :: .program rest :: below ∧ n.loop.receiver = false ∧
            n.loop.trace = m.loop.trace ∧
            (∀ e q, n.loop.queue = e :: q → ∃ k, Turn n k ∧ Takes n.loop e k.loop) ∨
          a = .process 0 ∧ n.stack = .program rest :: below ∧ n.loop.receiver = true ∧
            n.loop.trace = m.loop.trace ++ [.process 0]) := by
  have hone := hm.holders
  have hrec := Moment.receiver_iff hone
  refine ⟨hrec, ?_, ?_, fun n hn => hn.passes.returned, ?_⟩
  · rw [Moment.holders] at hone
    omega
  · intro a t rest below ht hstack hact
    obtain ⟨l, stack⟩ := m
    cases hstack
    have hr : l.receiver = false := by
      rw [← Bool.not_eq_true]
      exact fun h => by cases (hrec.mp h).symm.trans hact
    exact ⟨⟨_, turn_action l a rest below⟩, fun n hn => hn.refused ht hr⟩
  · intro a f rest below hf hstack hact
    obtain ⟨l, stack⟩ := m
    cases hstack
    refine ⟨⟨_, turn_action l a rest below⟩, fun n hn => ?_⟩
    obtain ⟨hkeep, hrem, hbegun | hnone⟩ := hn.begun hf (hrec.mpr hact)
    · refine ⟨hkeep, hrem, .inl ⟨hbegun.1, hbegun.2.1, hbegun.2.2, fun e q hq => ?_⟩⟩
      obtain ⟨k, stack⟩ := n
      cases hbegun.1
      exact turn_takes hf hq
    · exact ⟨hkeep, hrem, .inr hnone⟩

/-- A callback calls `exec` and is refused. The limit of the drain passes while another callback is
queued, and the drain that is called next takes it. -/
theorem one_drain_at_a_time_past_limit :
    let p : Program := [.post [.exec], .post [], .execTimeout 20, .process 5]
    ∃ m i k n : Moment, Turns (.start {} p) m ∧ m.active = true ∧
      (∃ j, Turn m j ∧ j.loop.queue = [.call []] ∧ j.loop.trace = [.exec failed]) ∧
      Turns (.start {} p) i ∧ i.active = true ∧ Turn i k ∧ k.active = false ∧
      k.loop.queue = [.call []] ∧ k.loop.receiver = true ∧
      Turn k n ∧ n.active = true ∧ ∃ j, Turn n j ∧ Takes n.loop (.call []) j.loop := by
  intro p
  let l : EventLoop :=
    { queue := [.call []], receiver := false, posted := [.call [.exec], .call []],
      taken := [.call [.exec]], begun := [[.exec]], remarks := [.dispatched] }
  let k : EventLoop := { l with trace := [.exec failed], remarks := [.dispatched, .alreadyRunning] }
  have hm : Turns (.start {} p) ⟨l, [.program [.exec], .drain (.untilQuitOrIdle 20) none,
      .program [.process 5]]⟩ := Reaches.turns (reaches_after (.start {} p) 4)
  have hi : Turns (.start {} p) ⟨k, [.drain (.untilQuitOrIdle 20) none, .program [.process 5]]⟩ :=
    Reaches.turns (reaches_after (.start {} p) 6)
  obtain ⟨_, _, hrefused, _⟩ := one_drain_at_a_time p hm
  obtain ⟨⟨j, hj⟩, hall⟩ := hrefused .exec _ _ _ rfl rfl rfl
  obtain ⟨_, hkeep, _, htrace⟩ := hall j hj
  obtain ⟨_, _, _, hreturned, _⟩ := one_drain_at_a_time p hi
  obtain ⟨hrec, _⟩ := hreturned _ .timedOut rfl rfl
  obtain ⟨_, _, _, _, hbegun⟩ := one_drain_at_a_time p (hi.tail .timedOut)
  obtain ⟨⟨n, hn⟩, hnext⟩ := hbegun (.process 5) _ _ _ rfl rfl rfl
  obtain ⟨hqueue, _, ⟨hstack, _, _, htake⟩ | ⟨hzero, _⟩⟩ := hnext n hn
  · exact ⟨_, _, _, n, hm, rfl, ⟨j, hj, hkeep.queue, htrace⟩, hi, rfl, .timedOut, rfl, rfl, hrec, hn,
      by rw [Moment.active, hstack]; rfl, htake _ _ hqueue.queue⟩
  · cases hzero

end NetKit.EventLoop
