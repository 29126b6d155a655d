import Mathlib.Computability.StateTransition
import NetKit.EventLoop

/-!
# The moments of a run

Every run has a last moment and comes to no moment twice. A call by the program at the bottom of the
stack returns at one moment at most.
-/

namespace NetKit.EventLoop

open Relation

abbrev Reaches : Moment → Moment → Prop := StateTransition.Reaches Moment.next?

variable {m n k : Moment} {p : Program}

theorem Moment.next?_eq_some {l : EventLoop} {f : Frame} {below : List Frame}
    (h : Moment.next? ⟨l, f :: below⟩ = some n) :
    ∃ k frames, l.advance? f = some (k, frames) ∧ n = ⟨k, frames ++ below⟩ := by
  obtain ⟨⟨k, frames⟩, hf, hn⟩ := Option.map_eq_some_iff.mp h
  exact ⟨k, frames, hf, hn.symm⟩

theorem Moment.next?_action (l : EventLoop) (a : Action) (p : Program) (below : List Frame) :
    Moment.next? ⟨l, .program (a :: p) :: below⟩ =
      some ⟨(l.perform a).1, (l.perform a).2 ++ .program p :: below⟩ := by
  simp [Moment.next?, advance?]

/-! ## No moment twice -/

theorem Moment.weight_le_of_reaches (h : Reaches m n) : n.weight ≤ m.weight := by
  induction h with
  | refl => exact Nat.le_refl _
  | tail _ hn ih => exact (Nat.le_of_lt (Moment.weight_lt hn)).trans ih

theorem eq_of_weight_le (h : Reaches m n) (hle : m.weight ≤ n.weight) : m = n := by
  rcases h.cases_head with rfl | ⟨i, hi, hin⟩
  · rfl
  · have hlt := Moment.weight_lt hi
    have := Moment.weight_le_of_reaches hin
    omega

theorem reaches_antisymm (h : Reaches m n) (hback : Reaches n m) : m = n :=
  eq_of_weight_le h (Moment.weight_le_of_reaches hback)

/-! ## The last moment -/

/-- The moment that many steps later, or the last one where there are fewer. -/
def Moment.after (m : Moment) : Nat → Moment
  | 0 => m
  | k + 1 =>
    match m.next? with
    | none => m
    | some n => n.after k

theorem reaches_after (m : Moment) (k : Nat) : Reaches m (m.after k) := by
  induction k generalizing m with
  | zero => exact ReflTransGen.refl
  | succ k ih =>
      unfold Moment.after
      split
      · exact ReflTransGen.refl
      · rename_i n hn
        exact ReflTransGen.head hn (ih n)

theorem Moment.last_of_none (h : m.next? = none) : m.last = m := by
  rw [Moment.last.eq_1]
  split
  · rfl
  · rename_i hn
    cases h.symm.trans hn

theorem Moment.last_of_some (h : m.next? = some n) : m.last = n.last := by
  rw [Moment.last.eq_1]
  split
  · rename_i hn
    cases h.symm.trans hn
  · rename_i hn
    cases h.symm.trans hn
    rfl

theorem reaches_last (m : Moment) : Reaches m m.last := by
  induction m using Moment.last.induct with
  | case1 m hn =>
      rw [Moment.last_of_none hn]
      exact ReflTransGen.refl
  | case2 m n hn ih =>
      rw [Moment.last_of_some hn]
      exact ReflTransGen.head hn ih

theorem Moment.next?_last (m : Moment) : m.last.next? = none := by
  induction m using Moment.last.induct with
  | case1 m hn => rwa [Moment.last_of_none hn]
  | case2 m n hn ih => rwa [Moment.last_of_some hn]

theorem eq_last (h : Reaches m k) (hk : k.next? = none) : k = m.last := by
  rcases StateTransition.reaches_total h (reaches_last m) with hl | hl
  · rcases hl.cases_head with rfl | ⟨n, hn, _⟩
    · rfl
    · cases hk.symm.trans hn
  · rcases hl.cases_head with hl | ⟨n, hn, _⟩
    · exact hl.symm
    · cases m.next?_last.symm.trans hn

/-- A program runs to its end exactly when a moment is reached with nothing under way. -/
theorem run_eq_some_iff {l k : EventLoop} : run l p = some k ↔ Reaches (.start l p) ⟨k, []⟩ := by
  constructor
  · intro h
    simp only [run] at h
    split at h
    · rename_i hs
      cases h
      rw [List.isEmpty_iff] at hs
      have hr := reaches_last (.start l p)
      rwa [show (Moment.start l p).last = ⟨(Moment.start l p).last.loop, []⟩ from
        congrArg (Moment.mk _) hs] at hr
    · cases h
  · intro h
    have hk := eq_last h rfl
    simp [run, ← hk]

/-! ## Returning once -/

/-- How much of the program at the bottom of the stack is ahead, its end counted. -/
def Moment.ahead (m : Moment) : Nat :=
  match m.stack.getLast? with
  | some (.program p) => p.length + 1
  | _ => 0

/-- The frames above the bottom of the stack do not matter, nor does the loop. -/
theorem Moment.ahead_append {l k : EventLoop} (frames : List Frame) {f : Frame} {below : List Frame} :
    Moment.ahead ⟨k, frames ++ f :: below⟩ = Moment.ahead ⟨l, f :: below⟩ := by
  simp only [Moment.ahead, List.getLast?_append_cons]

theorem ahead_of_drain {l k : EventLoop} {f : Frame} {frames : List Frame}
    (hf : ∀ p, f ≠ .program p) (h : l.advance? f = some (k, frames)) :
    Moment.ahead ⟨k, frames⟩ = 0 := by
  cases f with
  | program p => exact absurd rfl (hf p)
  | drain d code =>
      simp only [advance?] at h
      split at h
      · split at h
        · cases h
          rfl
        · cases h
      · cases h
        rfl
      · cases h
        rfl
      · split at h
        · cases h
          rfl
        · cases h
          rfl
  | ending d code =>
      cases h
      rfl
  | processing count =>
      simp only [advance?] at h
      split at h <;> cases h <;> rfl

theorem Moment.ahead_lt (h : m.next? = some n) (hm : m.stack = [.program p]) :
    n.ahead < m.ahead := by
  obtain ⟨l, stack⟩ := m
  cases hm
  obtain ⟨k, frames, hf, rfl⟩ := Moment.next?_eq_some h
  cases p with
  | nil =>
      cases hf
      exact Nat.zero_lt_succ _
  | cons a p =>
      cases hf
      rw [List.append_nil, Moment.ahead_append (l := l)]
      exact Nat.lt_succ_self _

theorem Moment.ahead_le (h : m.next? = some n) : n.ahead ≤ m.ahead := by
  obtain ⟨l, stack⟩ := m
  cases stack with
  | nil => cases h
  | cons f below =>
      cases below with
      | nil =>
          by_cases hf : ∃ p, f = .program p
          · obtain ⟨p, rfl⟩ := hf
            exact Nat.le_of_lt (Moment.ahead_lt h rfl)
          · obtain ⟨k, frames, hk, rfl⟩ := Moment.next?_eq_some h
            rw [List.append_nil, ahead_of_drain (not_exists.mp hf) hk]
            exact Nat.zero_le _
      | cons g below =>
          obtain ⟨k, frames, _, rfl⟩ := Moment.next?_eq_some h
          have hf : Moment.ahead ⟨l, f :: g :: below⟩ = Moment.ahead ⟨l, g :: below⟩ :=
            Moment.ahead_append [f]
          rw [hf, Moment.ahead_append (l := l)]

theorem Moment.ahead_le_of_reaches (h : Reaches m n) : n.ahead ≤ m.ahead := by
  induction h with
  | refl => exact Nat.le_refl _
  | tail _ hn ih => exact (Moment.ahead_le hn).trans ih

/-- What is above the rest of a program is over when the program goes on. -/
theorem reaches_return (frames : List Frame) (hn : Reaches m n) (hk : Reaches m k)
    (hs : n.stack = frames ++ [.program p]) (ht : k.stack = [.program p]) : Reaches n k := by
  rcases StateTransition.reaches_total hn hk with h | h
  · exact h
  · rcases h.cases_head with rfl | ⟨i, hi, hin⟩
    · exact .refl
    · have hlt := Moment.ahead_lt hi ht
      have hle := Moment.ahead_le_of_reaches hin
      simp only [Moment.ahead, hs, ht, List.getLast?_concat, List.getLast?_singleton] at hlt hle
      omega

/-- The program at the bottom of the stack comes to each of its actions once. -/
theorem reaches_once (hn : Reaches m n) (hk : Reaches m k) (hs : n.stack = [.program p])
    (ht : k.stack = [.program p]) : n = k :=
  reaches_antisymm (reaches_return [] hn hk hs ht) (reaches_return [] hk hn ht hs)

end NetKit.EventLoop
