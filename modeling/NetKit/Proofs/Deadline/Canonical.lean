import Mathlib.Data.Int.Order.Basic
import Mathlib.Data.Nat.Basic
import Mathlib.Order.Compare
import NetKit.Deadline

/-!
# The form and the order of deadlines

A deadline is made in one of two forms: forever, or a point that fits the signed 64-bit range of
nanoseconds. In these forms the order by seconds and then by nanoseconds is that of the points, with
forever after all of them.
-/

namespace NetKit

/-- What a clock shows that has run for no more than 292 years. -/
def Reading.IsSound (r : Reading) : Prop :=
  0 ≤ r.secs ∧ r.secs ≤ 9223372035 ∧ r.nanos < 1000000000

instance (r : Reading) : Decidable r.IsSound := inferInstanceAs (Decidable (_ ∧ _ ∧ _))

namespace Deadline

open Saturating

/-- Made by some constructor at a sound reading of the clock, then set and moved. -/
inductive Reachable : Deadline → Prop
  | default : Reachable default
  | new (t : TimerType) : Reachable (new t)
  | current {now : Reading} (h : now.IsSound) (t : TimerType) : Reachable (current now t)
  | forever (t : TimerType) : Reachable (forever t)
  | ofMillis {now : Reading} (h : now.IsSound) (millis : Int) (t : TimerType) :
      Reachable (ofMillis now millis t)
  | ofSpan {now : Reading} (h : now.IsSound) (s : Span) : Reachable (ofSpan now s)
  | setMillis {d : Deadline} (hd : Reachable d) (millis : Int) (t : TimerType) :
      Reachable (d.setMillis millis t)
  | setPrecise {d : Deadline} (hd : Reachable d) (secs nanos : Int) (t : TimerType) :
      Reachable (d.setPrecise secs nanos t)
  | setRemaining {d : Deadline} {now : Reading} (hd : Reachable d) (h : now.IsSound)
      (millis : Int) (t : TimerType) : Reachable (d.setRemaining now millis t)
  | setPreciseRemaining {d : Deadline} {now : Reading} (hd : Reachable d) (h : now.IsSound)
      (secs nanos : Int) (t : TimerType) : Reachable (d.setPreciseRemaining now secs nanos t)
  | setTimer {d : Deadline} (hd : Reachable d) (t : TimerType) : Reachable (d.setTimer t)
  | addNanos {d : Deadline} (hd : Reachable d) (n : Int) : Reachable (d.addNanos n)
  | addSpan {d : Deadline} (hd : Reachable d) (s : Span) : Reachable (d.addSpan s)
  | subSpan {d : Deadline} (hd : Reachable d) (s : Span) : Reachable (d.subSpan s)

variable {d a b : Deadline} {now : Reading}

/-- The nanoseconds from the origin that both parts stand for. -/
def total (d : Deadline) : Int := d.secs * nanosPerSec + d.nanos

/-- A point in range, its nanoseconds less than a second. The last point stands for forever. -/
structure IsPoint (d : Deadline) : Prop where
  nanos_lt : d.nanos < 1000000000
  minInt64_le : minInt64 ≤ d.total
  lt_maxInt64 : d.total < maxInt64

def IsCanonical (d : Deadline) : Prop := d = forever d.timer ∨ d.IsPoint

/-! ## What is made -/

theorem total_atNanos (n : Int) (t : TimerType) : (atNanos n t).total = n := by
  simp only [total, atNanos, nanosPerSec]
  omega

theorem isPoint_atNanos {n : Int} (h : InRange n) (hn : n ≠ maxInt64) (t : TimerType) :
    (atNanos n t).IsPoint where
  nanos_lt := by
    simp only [atNanos, nanosPerSec]
    omega
  minInt64_le := (total_atNanos n t).symm ▸ h.1
  lt_maxInt64 := (total_atNanos n t).symm ▸ lt_of_le_of_ne h.2 hn

theorem isCanonical_ofNanos {n : Int} (h : InRange n) (t : TimerType) :
    (ofNanos n t).IsCanonical := by
  rw [ofNanos]
  split
  · exact .inl rfl
  · rename_i hn
    exact .inr (isPoint_atNanos h (by simpa using hn) t)

theorem isCanonical_forever (t : TimerType) : (forever t).IsCanonical := .inl rfl

theorem isCanonical_new (t : TimerType) : (new t).IsCanonical :=
  .inr ⟨by simp [new], by simp [new, total, minInt64], by simp [new, total, maxInt64]⟩

theorem isCanonical_current (h : now.IsSound) (t : TimerType) : (current now t).IsCanonical := by
  obtain ⟨hfirst, hlast, hnanos⟩ := h
  refine .inr ⟨hnanos, ?_, ?_⟩
  · simp only [current, total, nanosPerSec, minInt64]
    omega
  · simp only [current, total, nanosPerSec, maxInt64]
    omega

theorem isCanonical_setPrecise (d : Deadline) (secs nanos : Int) (t : TimerType) :
    (d.setPrecise secs nanos t).IsCanonical := by
  rw [setPrecise]
  split
  · exact isCanonical_forever t
  · exact isCanonical_ofNanos (clamp_inRange _) t

theorem isCanonical_setMillis (d : Deadline) (millis : Int) (t : TimerType) :
    (d.setMillis millis t).IsCanonical := by
  rw [setMillis]
  split
  · exact isCanonical_forever t
  · exact isCanonical_setPrecise d _ _ t

theorem IsCanonical.addNanos (h : d.IsCanonical) (n : Int) : (d.addNanos n).IsCanonical := by
  rw [Deadline.addNanos]
  split
  · exact h
  · exact isCanonical_ofNanos (clamp_inRange _) d.timer

theorem isCanonical_setPreciseRemaining (d : Deadline) (h : now.IsSound) (secs nanos : Int)
    (t : TimerType) : (d.setPreciseRemaining now secs nanos t).IsCanonical := by
  rw [setPreciseRemaining]
  split
  · exact isCanonical_forever t
  · exact (isCanonical_current h t).addNanos _

theorem isCanonical_setRemaining (d : Deadline) (h : now.IsSound) (millis : Int) (t : TimerType) :
    (d.setRemaining now millis t).IsCanonical := by
  rw [setRemaining]
  split
  · exact isCanonical_forever t
  · exact isCanonical_setPreciseRemaining d h _ _ t

theorem IsCanonical.setTimer (h : d.IsCanonical) (t : TimerType) : (d.setTimer t).IsCanonical := by
  rcases h with h | h
  · rw [h]
    exact isCanonical_forever t
  · exact .inr ⟨h.nanos_lt, h.minInt64_le, h.lt_maxInt64⟩

theorem Reachable.isCanonical (h : Reachable d) : d.IsCanonical := by
  induction h with
  | default => exact isCanonical_new .precise
  | new t => exact isCanonical_new t
  | current h t => exact isCanonical_current h t
  | forever t => exact isCanonical_forever t
  | ofMillis h millis t => exact isCanonical_setRemaining _ h millis t
  | ofSpan h s => exact isCanonical_setPreciseRemaining _ h _ _ _
  | setMillis _ millis t => exact isCanonical_setMillis _ millis t
  | setPrecise _ secs nanos t => exact isCanonical_setPrecise _ secs nanos t
  | setRemaining _ h millis t => exact isCanonical_setRemaining _ h millis t
  | setPreciseRemaining _ h secs nanos t => exact isCanonical_setPreciseRemaining _ h secs nanos t
  | setTimer _ t ih => exact ih.setTimer t
  | addNanos _ n ih => exact ih.addNanos n
  | addSpan _ s ih => exact ih.addNanos _
  | subSpan _ s ih => exact ih.addNanos _

/-! ## The two forms -/

theorem IsPoint.secs_bounds (h : d.IsPoint) : -9223372037 ≤ d.secs ∧ d.secs ≤ 9223372036 := by
  obtain ⟨hnanos, hfirst, hlast⟩ := h
  simp only [total, nanosPerSec, minInt64, maxInt64] at hfirst hlast
  omega

theorem IsPoint.isForever (h : d.IsPoint) : d.isForever = false := by
  have hsecs := h.secs_bounds.2
  rw [Deadline.isForever, beq_eq_false_iff_ne, maxInt64]
  omega

theorem IsCanonical.eq_forever (h : d.IsCanonical) (hd : d.isForever = true) :
    d = forever d.timer := by
  rcases h with h | h
  · exact h
  · cases hd.symm.trans h.isForever

theorem IsCanonical.isPoint (h : d.IsCanonical) (hd : d.isForever = false) : d.IsPoint := by
  rcases h with h | h
  · rw [h] at hd
    cases hd
  · exact h

theorem IsCanonical.nanos_lt (h : d.IsCanonical) : d.nanos < 1000000000 := by
  rcases h with h | h
  · rw [h]
    exact Nat.zero_lt_succ _
  · exact h.nanos_lt

/-! ## The order -/

theorem compare_forever (s t : TimerType) : (forever s).compare (forever t) = .eq := rfl

theorem IsPoint.compare_forever (h : d.IsPoint) (t : TimerType) :
    (forever t).compare d = .gt ∧ d.compare (forever t) = .lt := by
  have hsecs : d.secs < maxInt64 := h.secs_bounds.2.trans_lt (by decide)
  have hgt : Ord.compare maxInt64 d.secs = .gt := compare_gt_iff_gt.mpr hsecs
  have hlt : Ord.compare d.secs maxInt64 = .lt := compare_lt_iff_lt.mpr hsecs
  exact ⟨by rw [compare, forever, hgt]; rfl, by rw [compare, forever, hlt]; rfl⟩

theorem IsPoint.compare_eq (ha : a.IsPoint) (hb : b.IsPoint) :
    a.compare b = Ord.compare a.total b.total := by
  have hna := ha.nanos_lt
  have hnb := hb.nanos_lt
  rw [compare]
  rcases lt_trichotomy a.secs b.secs with hlt | heq | hgt
  · have htotal : a.total < b.total := by
      simp only [total, nanosPerSec]
      omega
    rw [compare_lt_iff_lt.mpr hlt, compare_lt_iff_lt.mpr htotal]
    rfl
  · rw [heq, compare_eq_iff_eq.mpr rfl, Ordering.eq_then]
    simp only [total, heq]
    rcases lt_trichotomy a.nanos b.nanos with hlt | heq | hgt
    · rw [compare_lt_iff_lt.mpr hlt, compare_lt_iff_lt.mpr (by omega)]
    · rw [heq, compare_eq_iff_eq.mpr rfl, compare_eq_iff_eq.mpr rfl]
    · rw [compare_gt_iff_gt.mpr hgt, compare_gt_iff_gt.mpr (by omega)]
  · have htotal : b.total < a.total := by
      simp only [total, nanosPerSec]
      omega
    rw [compare_gt_iff_gt.mpr hgt, compare_gt_iff_gt.mpr htotal]
    rfl

/-- Every deadline that can be made is forever in one form, or has less than a second of nanoseconds
above seconds that are far from those of forever. Forever is equal to itself, whatever the timer,
and comes after all else; the others are in the order of the points that they stand for. -/
theorem canonical_and_ordered (ha : Reachable a) (hb : Reachable b) :
    a.nanos < 1000000000 ∧
    (a.isForever = true ∧ a.secs = maxInt64 ∧ a.nanos = 0 ∨
      a.isForever = false ∧ -9223372037 ≤ a.secs ∧ a.secs ≤ 9223372036) ∧
    (a.isForever = true → b.isForever = true → a.compare b = .eq) ∧
    (a.isForever = true → b.isForever = false → a.compare b = .gt ∧ b.compare a = .lt) ∧
    (a.isForever = false → b.isForever = false →
      a.compare b =
        Ord.compare (a.secs * 1000000000 + a.nanos) (b.secs * 1000000000 + b.nanos)) := by
  have hca := ha.isCanonical
  have hcb := hb.isCanonical
  refine ⟨hca.nanos_lt, ?_, fun hfa hfb => ?_, fun hfa hfb => ?_, fun hfa hfb => ?_⟩
  · cases hfa : a.isForever with
    | true =>
        rw [hca.eq_forever hfa]
        exact .inl ⟨rfl, rfl, rfl⟩
    | false => exact .inr ⟨rfl, (hca.isPoint hfa).secs_bounds⟩
  · rw [hca.eq_forever hfa, hcb.eq_forever hfb]
    exact compare_forever _ _
  · rw [hca.eq_forever hfa]
    exact (hcb.isPoint hfb).compare_forever _
  · exact (hca.isPoint hfa).compare_eq (hcb.isPoint hfb)

/-- The earliest deadline is a point; the longest time after the last reading makes forever. -/
theorem forever_after_earliest :
    let first := (new .precise).setPrecise minInt64 0 .precise
    let never := (current ⟨9223372035, 999999999⟩ .coarse).addNanos maxInt64
    Reachable first ∧ Reachable never ∧ first.secs = -9223372037 ∧ never.secs = maxInt64 ∧
      never.compare first = .gt ∧ first.compare never = .lt := by
  intro first never
  have hfirst : Reachable first := .setPrecise (.new .precise) _ _ _
  have hnever : Reachable never := .addNanos (.current (by decide) .coarse) _
  have hgt := (canonical_and_ordered hnever hfirst).2.2.2.1 (by decide) (by decide)
  exact ⟨hfirst, hnever, by decide, by decide, hgt⟩

end Deadline
end NetKit
