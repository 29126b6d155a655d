import NetKit.Proofs.Deadline.Places

/-!
# Setting a deadline to seconds and nanoseconds

The deadline is as near to the point that the two numbers stand for as can be told, unless the
seconds alone lead past the range and the nanoseconds back.
-/

namespace NetKit.Deadline

open Saturating

variable {secs nanos : Int}

/-- The seconds lead past the range, and the nanoseconds back. The seconds that stand for forever
are no such. -/
def DoublesBack (secs nanos : Int) : Prop :=
  secs ≠ maxInt64 ∧
    (maxInt64 < secs * nanosPerSec ∧ nanos < 0 ∨ secs * nanosPerSec < minInt64 ∧ 0 < nanos)

instance (secs nanos : Int) : Decidable (DoublesBack secs nanos) :=
  inferInstanceAs (Decidable (_ ∧ (_ ∧ _ ∨ _ ∧ _)))

/-- The nanoseconds that are kept of the two numbers. -/
def kept (secs nanos : Int) : Int :=
  if secs = maxInt64 then maxInt64 else add (mul secs nanosPerSec) nanos

theorem inRange_kept (secs nanos : Int) : InRange (kept secs nanos) := by
  rw [kept]
  split
  · decide
  · exact clamp_inRange _

theorem setPrecise_eq_ofNanos (d : Deadline) (secs nanos : Int) (t : TimerType) :
    d.setPrecise secs nanos t = ofNanos (kept secs nanos) t := by
  by_cases hs : secs = maxInt64 <;> simp [setPrecise, kept, hs, ofNanos]

theorem kept_eq_clamp_iff (hn : InRange nanos) :
    kept secs nanos = clamp (secs * nanosPerSec + nanos) ↔ ¬DoublesBack secs nanos := by
  rw [kept, DoublesBack]
  split
  · simp only [InRange, clamp, nanosPerSec, minInt64, maxInt64] at *
    omega
  · simp only [InRange, add, mul, clamp, nanosPerSec, minInt64, maxInt64] at *
    omega

theorem kept_of_doublesBack (hn : InRange nanos) (h : DoublesBack secs nanos) :
    kept secs nanos ≠ maxInt64 ∧
      kept secs nanos = (if 0 < secs then maxInt64 else minInt64) + nanos := by
  obtain ⟨hs, hback⟩ := h
  rw [kept, if_neg hs]
  split <;> simp only [InRange, add, mul, clamp, nanosPerSec, minInt64, maxInt64] at * <;> omega

/-- A deadline set to seconds and nanoseconds is as near to their sum as can be told, exactly unless
the seconds alone lead past the range and the nanoseconds back. Then the nanoseconds are counted
from the end of the range, and the deadline is never forever. -/
theorem setPrecise_saturates_iff (d : Deadline) (hn : InRange nanos) (t : TimerType) :
    (d.setPrecise secs nanos t).timer = t ∧
    ((d.setPrecise secs nanos t).Saturates (secs * 1000000000 + nanos) ↔
      ¬DoublesBack secs nanos) ∧
    (DoublesBack secs nanos → (d.setPrecise secs nanos t).isForever = false ∧
      (d.setPrecise secs nanos t).secs * 1000000000 + (d.setPrecise secs nanos t).nanos =
        (if 0 < secs then maxInt64 else minInt64) + nanos) := by
  have hr := inRange_kept secs nanos
  rw [setPrecise_eq_ofNanos]
  refine ⟨timer_ofNanos _ t, ?_, fun h => ?_⟩
  · rw [(isCanonical_ofNanos hr t).saturates_iff, place_ofNanos hr]
    exact kept_eq_clamp_iff hn
  · obtain ⟨hne, hkept⟩ := kept_of_doublesBack hn h
    refine ⟨?_, (total_ofNanos hne t).trans hkept⟩
    rw [← Bool.not_eq_true, isForever_ofNanos_iff hr]
    exact hne

/-- The first point of all is reached from above. -/
theorem setPrecise_saturates_at_first :
    InRange (-854775808) ∧
      ((new .precise).setPrecise (-9223372036) (-854775808) .coarse).Saturates
        (-9223372036 * 1000000000 + -854775808) :=
  ⟨by decide, (setPrecise_saturates_iff _ (by decide) _).2.1.mpr (by decide)⟩

/-- One nanosecond before a second past the end is no longer forever, and a second before it, a point
that can be told, is told as another. -/
theorem doublesBack_loses_point :
    let past := (new .precise).setPrecise 9223372037 (-1) .precise
    let last := (new .precise).setPrecise 9223372037 (-1000000000) .precise
    maxInt64 ≤ 9223372037 * 1000000000 + -1 ∧ past.isForever = false ∧
      (9223372037 * 1000000000 + -1000000000 : Int) < maxInt64 ∧ last.isForever = false ∧
      last.secs * 1000000000 + last.nanos ≠
        max (9223372037 * 1000000000 + -1000000000) minInt64 ∧
      ¬∀ secs nanos : Int, InRange secs → InRange nanos →
        ((new .precise).setPrecise secs nanos .precise).Saturates (secs * 1000000000 + nanos) := by
  refine ⟨by decide, by decide, by decide, by decide, by decide, fun h => ?_⟩
  have hforever := (h 9223372037 (-1) (by decide) (by decide)).isForever_iff.mpr (by decide)
  exact absurd hforever (by decide)

end NetKit.Deadline
