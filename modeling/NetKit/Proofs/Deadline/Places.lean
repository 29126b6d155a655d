import NetKit.Proofs.Deadline.Canonical

/-!
# Where deadlines stand

Each deadline stands at one number in the signed 64-bit range, forever at the last. Deadlines are in
the order of their places, and as near to a point as can be told where that point is clamped to.
-/

namespace NetKit.Deadline

open Saturating

variable {a b d : Deadline} {n point : Int}

/-! ## Made of nanoseconds -/

theorem isForever_ofNanos_iff (h : InRange n) (t : TimerType) :
    (ofNanos n t).isForever = true ↔ n = maxInt64 := by
  by_cases hn : n = maxInt64
  · simp [ofNanos, hn]
  · simp [ofNanos, hn, (isPoint_atNanos h hn t).isForever]

theorem total_ofNanos (hn : n ≠ maxInt64) (t : TimerType) : (ofNanos n t).total = n := by
  rw [ofNanos, if_neg (by simpa using hn)]
  exact total_atNanos n t

theorem timer_ofNanos (n : Int) (t : TimerType) : (ofNanos n t).timer = t := by
  rw [ofNanos]
  split <;> rfl

/-! ## Places -/

/-- The point of a deadline, with forever at the end of all. -/
def place (d : Deadline) : Int := if d.isForever then maxInt64 else d.total

theorem place_of_isForever (h : d.isForever = true) : d.place = maxInt64 := if_pos h

theorem IsPoint.place_eq (h : d.IsPoint) : d.place = d.total := by
  rw [place, h.isForever]
  rfl

theorem IsPoint.isForever_of_place_le (h : b.IsPoint) (hle : a.place ≤ b.place) :
    a.isForever = false := by
  by_contra ha
  rw [Bool.not_eq_false] at ha
  rw [place_of_isForever ha, h.place_eq] at hle
  exact absurd h.lt_maxInt64 (not_lt.mpr hle)

theorem IsCanonical.inRange_place (h : d.IsCanonical) : InRange d.place := by
  cases hd : d.isForever with
  | true =>
      rw [place_of_isForever hd]
      decide
  | false =>
      have hp := h.isPoint hd
      rw [hp.place_eq]
      exact ⟨hp.minInt64_le, hp.lt_maxInt64.le⟩

theorem place_ofNanos (h : InRange n) (t : TimerType) : (ofNanos n t).place = n := by
  by_cases hn : n = maxInt64
  · rw [place_of_isForever ((isForever_ofNanos_iff h t).mpr hn), hn]
  · rw [place, if_neg (mt (isForever_ofNanos_iff h t).mp hn), total_ofNanos hn]

theorem ofNanos_place (h : d.IsCanonical) : ofNanos d.place d.timer = d := by
  cases hd : d.isForever with
  | true =>
      rw [place_of_isForever hd]
      exact (h.eq_forever hd).symm
  | false =>
      have hp := h.isPoint hd
      have hlt := hp.nanos_lt
      rw [hp.place_eq, ofNanos, if_neg (by simpa using hp.lt_maxInt64.ne), atNanos]
      obtain ⟨secs, nanos, t⟩ := d
      simp only [total, nanosPerSec, mk.injEq, and_true] at hlt ⊢
      omega

theorem IsCanonical.le_iff_place (ha : a.IsCanonical) (hb : b.IsCanonical) :
    a.le b = true ↔ a.place ≤ b.place := by
  rw [le]
  cases hfb : b.isForever with
  | true =>
      rw [place_of_isForever hfb]
      refine iff_of_true ?_ ha.inRange_place.2
      rw [hb.eq_forever hfb]
      cases hfa : a.isForever with
      | true =>
          rw [ha.eq_forever hfa]
          rfl
      | false =>
          rw [((ha.isPoint hfa).compare_forever b.timer).2]
          rfl
  | false =>
      have hpb := hb.isPoint hfb
      cases hfa : a.isForever with
      | true =>
          refine iff_of_false ?_ fun hle => ?_
          · rw [ha.eq_forever hfa, (hpb.compare_forever a.timer).1]
            simp
          · cases (hpb.isForever_of_place_le hle).symm.trans hfa
      | false =>
          have hpa := ha.isPoint hfa
          rw [hpa.place_eq, hpb.place_eq, hpa.compare_eq hpb, Ordering.isLE_iff_ne_gt,
            compare_gt_iff_gt, not_lt]

/-! ## Points out of range -/

/-- As near to the point as can be told: forever from the last one on, and never before the
first. -/
structure Saturates (d : Deadline) (point : Int) : Prop where
  isForever_iff : d.isForever = true ↔ maxInt64 ≤ point
  total_eq : d.isForever = false → d.secs * 1000000000 + d.nanos = max point minInt64
  nanos_lt : d.nanos < 1000000000

theorem IsCanonical.saturates_iff (h : d.IsCanonical) :
    d.Saturates point ↔ d.place = clamp point := by
  cases hd : d.isForever with
  | true =>
      rw [place_of_isForever hd]
      constructor
      · intro hs
        have hlast := hs.isForever_iff.mp hd
        simp only [clamp, minInt64, maxInt64] at hlast ⊢
        omega
      · intro hc
        refine ⟨iff_of_true hd ?_, fun hf => ?_, h.nanos_lt⟩
        · simp only [clamp, minInt64, maxInt64] at hc ⊢
          omega
        · cases hd.symm.trans hf
  | false =>
      have hp := h.isPoint hd
      have hlast := hp.lt_maxInt64
      rw [hp.place_eq]
      constructor
      · intro hs
        have hpoint := mt hs.isForever_iff.mpr (by simp [hd])
        have htotal : d.total = max point minInt64 := hs.total_eq hd
        rw [htotal]
        simp only [clamp, minInt64, maxInt64] at hpoint ⊢
        omega
      · intro hc
        rw [hc] at hlast
        refine ⟨iff_of_false (by simp [hd]) ?_, fun _ => hc.trans ?_, h.nanos_lt⟩
        · simp only [clamp, minInt64, maxInt64] at hlast ⊢
          omega
        · simp only [clamp, minInt64, maxInt64] at hlast ⊢
          omega

end NetKit.Deadline
