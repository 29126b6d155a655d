import Mathlib.Order.Bounds.Basic
import NetKit.Proofs.Deadline.Moving

/-!
# The time that remains

What remains of a deadline is the exact difference to the clock, rounded up to milliseconds, and it
is none exactly when the deadline has expired.
-/

namespace NetKit

/-- The nanoseconds that the clock shows. -/
def Reading.total (r : Reading) : Int := r.secs * 1000000000 + r.nanos

namespace Deadline

open Saturating

variable {d : Deadline} {now first : Reading} {millis : Int}

theorem deadlineNanos_current (h : 0 ≤ now.secs) (t : TimerType) :
    (current now t).deadlineNanos = clamp now.total := by
  simp only [deadlineNanos, isForever, current, Reading.total, beq_iff_eq]
  split
  · rename_i hs
    simp only [clamp, minInt64, maxInt64] at hs ⊢
    omega
  · simp only [add, mul, clamp, nanosPerSec, minInt64, maxInt64]
    omega

theorem isForever_current_iff (now : Reading) (t : TimerType) :
    (current now t).isForever = true ↔ now.secs = maxInt64 := by
  simp [isForever, current]

theorem place_current (h : now.IsSound) (t : TimerType) : (current now t).place = now.total := by
  have hs : now.secs ≠ maxInt64 := by
    have := h.2.1
    rw [maxInt64]
    omega
  rw [place, if_neg (mt (isForever_current_iff now t).mp hs)]
  rfl

/-! ## What remains -/

theorem remainingNanos_of_isForever (h : d.isForever = true) (now : Reading) :
    d.remainingNanos now = -1 := if_pos h

/-- What is read too late has expired long ago, so it does not matter here. -/
theorem IsPoint.remainingNanos_eq (hd : d.IsPoint) (h : 0 ≤ now.secs) :
    d.remainingNanos now = max 0 (d.total - now.total) := by
  rw [remainingNanos, if_neg (by simp [hd.isForever]), deadlineNanos_current h]
  have hlast := hd.lt_maxInt64
  have hnow : 0 ≤ now.total := by
    rw [Reading.total]
    omega
  by_cases hr : d.IsReadable
  · rw [hd.deadlineNanos_of_readable hr]
    simp only [sub, clamp, minInt64, maxInt64] at hlast ⊢
    omega
  · obtain ⟨hread, hearly⟩ := hd.deadlineNanos_of_not_readable hr
    simp only [sub, clamp, minInt64, maxInt64]
    omega

theorem IsPoint.remainingNanos_nonneg (hd : d.IsPoint) (h : 0 ≤ now.secs) :
    0 ≤ d.remainingNanos now := by
  rw [hd.remainingNanos_eq h]
  exact le_max_left _ _

/-- The clock's millisecond leaves room for rounding up. -/
theorem IsCanonical.inRange_remainingNanos (hd : d.IsCanonical) (h : 0 ≤ now.secs)
    (hms : nanosPerMilli ≤ now.total) : InRange (d.remainingNanos now + nanosPerMilli) := by
  cases hf : d.isForever with
  | true =>
      rw [remainingNanos_of_isForever hf]
      decide
  | false =>
      have hlast := (hd.isPoint hf).lt_maxInt64
      rw [(hd.isPoint hf).remainingNanos_eq h]
      simp only [InRange, nanosPerMilli, minInt64, maxInt64] at hms hlast ⊢
      omega

/-! ## In milliseconds -/

theorem remainingMillis_of_isForever (h : d.isForever = true) (now : Reading) :
    d.remainingMillis now = -1 := by
  simp [remainingMillis, remainingNanos_of_isForever h]

theorem remainingMillis_of_nonneg (h : 0 ≤ d.remainingNanos now) :
    d.remainingMillis now = (d.remainingNanos now + nanosPerMilli - 1) / nanosPerMilli :=
  if_neg (not_lt.mpr h)

/-- The milliseconds that remain are the nanoseconds rounded up. -/
theorem isLeast_remainingMillis (h : 0 ≤ d.remainingNanos now) :
    IsLeast {m : Int | d.remainingNanos now ≤ m * nanosPerMilli} (d.remainingMillis now) := by
  rw [remainingMillis_of_nonneg h]
  constructor
  · simp only [Set.mem_ofPred_eq, nanosPerMilli]
    omega
  · intro m hm
    simp only [Set.mem_ofPred_eq, nanosPerMilli] at hm ⊢
    omega

theorem remainingMillis_nonneg (h : 0 ≤ d.remainingNanos now) : 0 ≤ d.remainingMillis now := by
  rw [remainingMillis_of_nonneg h]
  simp only [nanosPerMilli]
  omega

theorem remainingMillis_eq_zero_iff (h : 0 ≤ d.remainingNanos now) :
    d.remainingMillis now = 0 ↔ d.remainingNanos now = 0 := by
  rw [remainingMillis_of_nonneg h]
  simp only [nanosPerMilli]
  omega

theorem IsCanonical.remainingMillis_eq_neg_one_iff (hd : d.IsCanonical) (h : 0 ≤ now.secs) :
    d.remainingMillis now = -1 ↔ d.isForever = true := by
  refine ⟨fun hm => ?_, fun hf => remainingMillis_of_isForever hf now⟩
  by_contra hf
  rw [Bool.not_eq_true] at hf
  have := remainingMillis_nonneg ((hd.isPoint hf).remainingNanos_nonneg h)
  omega

/-! ## Expiry -/

theorem IsCanonical.hasExpired_iff (hd : d.IsCanonical) (h : now.IsSound) :
    d.hasExpired now = true ↔ d.isForever = false ∧ d.total ≤ now.total := by
  rw [hasExpired, Bool.and_eq_true, Bool.not_eq_true']
  refine and_congr_right fun hf => ?_
  rw [hd.le_iff_place (isCanonical_current h d.timer), place_current h, (hd.isPoint hf).place_eq]

theorem IsCanonical.remainingMillis_eq_zero_iff (hd : d.IsCanonical) (h : now.IsSound) :
    d.remainingMillis now = 0 ↔ d.hasExpired now = true := by
  rw [hd.hasExpired_iff h]
  cases hf : d.isForever with
  | true => simp [remainingMillis_of_isForever hf]
  | false =>
      have hp := hd.isPoint hf
      rw [Deadline.remainingMillis_eq_zero_iff (hp.remainingNanos_nonneg h.1),
        hp.remainingNanos_eq h.1]
      simp only [true_and]
      omega

theorem IsCanonical.isLeast_remainingMillis (hd : d.IsCanonical) (h : now.IsSound)
    (hf : d.isForever = false) (he : d.hasExpired now = false) :
    IsLeast {m : Int | d.total - now.total ≤ m * nanosPerMilli} (d.remainingMillis now) := by
  have hp := hd.isPoint hf
  have hlate : ¬d.total ≤ now.total := fun hle => by
    cases he.symm.trans ((hd.hasExpired_iff h).mpr ⟨hf, hle⟩)
  have hdiff : d.remainingNanos now = d.total - now.total := by
    rw [hp.remainingNanos_eq h.1]
    omega
  rw [← hdiff]
  exact Deadline.isLeast_remainingMillis (hp.remainingNanos_nonneg h.1)

/-! ## A deadline some milliseconds ahead -/

theorem ofMillis_eq_addNanos (first : Reading) (h : 0 ≤ millis) (t : TimerType) :
    ofMillis first millis t = (current first t).addNanos (clamp (millis * nanosPerMilli)) := by
  have hsum : add (mul (millis / 1000) nanosPerSec) (millis % 1000 * nanosPerMilli) =
      clamp (millis * nanosPerMilli) := by
    simp only [add, mul, clamp, nanosPerSec, nanosPerMilli, minInt64, maxInt64]
    omega
  rw [ofMillis, setRemaining, if_neg (not_lt.mpr h), setPreciseRemaining,
    if_neg (not_lt.mpr (Int.ediv_nonneg h (by decide))), hsum]

theorem isForever_ofMillis_iff (hs : 0 ≤ first.secs) (h : 0 ≤ millis) (t : TimerType) :
    (ofMillis first millis t).isForever = true ↔
      maxInt64 ≤ first.total + millis * nanosPerMilli := by
  rw [ofMillis_eq_addNanos first h]
  cases hf : (current first t).isForever with
  | true =>
      rw [addNanos_of_isForever hf]
      rw [isForever_current_iff] at hf
      refine iff_of_true ((isForever_current_iff first t).mpr hf) ?_
      simp only [Reading.total, nanosPerMilli, maxInt64] at hf ⊢
      omega
  | false =>
      rw [isForever_addNanos_iff hf, deadlineNanos_current hs]
      simp only [Reading.total, clamp, nanosPerMilli, minInt64, maxInt64]
      omega

theorem isPoint_ofMillis (hs : 0 ≤ first.secs) (h : 0 ≤ millis) {t : TimerType}
    (hf : (ofMillis first millis t).isForever = false) :
    (ofMillis first millis t).IsPoint ∧
      (ofMillis first millis t).total = first.total + millis * nanosPerMilli := by
  have hlt := mt (isForever_ofMillis_iff hs h t).mpr (by simp [hf])
  rw [ofMillis_eq_addNanos first h] at hf ⊢
  have hcur := isForever_of_addNanos hf
  have hp : ((current first t).addNanos (clamp (millis * nanosPerMilli))).IsPoint := by
    rw [addNanos_eq_ofNanos hcur] at hf ⊢
    exact (isCanonical_ofNanos (clamp_inRange _) t).isPoint hf
  refine ⟨hp, ?_⟩
  rw [← hp.place_eq, place_addNanos hcur, deadlineNanos_current hs]
  simp only [Reading.total, clamp, nanosPerMilli, minInt64, maxInt64] at hlt ⊢
  omega

/-! ## Agreement -/

/-- At a clock that has run for a millisecond and no more than 292 years: minus one millisecond
remains of forever alone, none of what has expired alone, and of any other deadline the least number
of milliseconds that reaches it, with no sum out of range. A deadline made some milliseconds ahead is
forever exactly if it ends past the range, and else has the rest of them left at any reading. -/
theorem remaining_agrees_with_expiry (hd : Reachable d) (h : now.IsSound)
    (hms : nanosPerMilli ≤ now.total) :
    (d.remainingMillis now = -1 ↔ d.isForever = true) ∧
    (d.remainingMillis now = 0 ↔ d.hasExpired now = true) ∧
    (d.isForever = false → d.hasExpired now = false →
      IsLeast {m : Int | d.secs * 1000000000 + d.nanos - now.total ≤ m * 1000000}
        (d.remainingMillis now)) ∧
    InRange (d.remainingNanos now + nanosPerMilli) ∧
    ∀ (millis : Int) (t : TimerType) (first later : Reading), 0 ≤ millis → 0 ≤ first.secs →
      0 ≤ later.secs →
      InRange (millis % 1000 * nanosPerMilli) ∧
      ((ofMillis first millis t).isForever = true ↔ maxInt64 ≤ first.total + millis * 1000000) ∧
      ((ofMillis first millis t).isForever = false →
        (ofMillis first millis t).remainingNanos later =
          max 0 (first.total + millis * 1000000 - later.total)) := by
  have hca := hd.isCanonical
  refine ⟨hca.remainingMillis_eq_neg_one_iff h.1, hca.remainingMillis_eq_zero_iff h,
    hca.isLeast_remainingMillis h, hca.inRange_remainingNanos h.1 hms,
    fun millis t first later hm hs hl => ⟨?_, isForever_ofMillis_iff hs hm t, fun hf => ?_⟩⟩
  · simp only [InRange, nanosPerMilli, minInt64, maxInt64]
    omega
  · obtain ⟨hp, htotal⟩ := isPoint_ofMillis hs hm hf
    rw [hp.remainingNanos_eq hl, htotal]
    rfl

/-- The last deadline of all, seen as early as can be. -/
theorem remaining_agrees_with_expiry_at_last :
    let last := (new .precise).setPrecise 9223372036 854775806 .precise
    let now : Reading := ⟨0, 1000000⟩
    Reachable last ∧ now.IsSound ∧ nanosPerMilli ≤ now.total ∧
      InRange (last.remainingNanos now + nanosPerMilli) ∧
      IsLeast {m : Int | last.secs * 1000000000 + last.nanos - now.total ≤ m * 1000000}
        9223372036854 ∧
      (ofMillis now 9223372036853 .coarse).remainingNanos ⟨9223372036, 0⟩ = 854000000 := by
  intro last now
  have hlast : Reachable last := .setPrecise (.new .precise) _ _ _
  have hnow : now.IsSound := by decide
  obtain ⟨_, _, hleast, hrange, hmade⟩ := remaining_agrees_with_expiry hlast hnow (by decide)
  obtain ⟨_, _, hleft⟩ :=
    hmade 9223372036853 .coarse now ⟨9223372036, 0⟩ (by decide) (by decide) (by decide)
  have hmillis : last.remainingMillis now = 9223372036854 := by decide
  exact ⟨hlast, hnow, by decide, hrange, hmillis ▸ hleast (by decide) (by decide),
    (hleft (by decide)).trans (by simp [now, Reading.total])⟩

end Deadline
end NetKit
