import NetKit.Proofs.Deadline.Moving
import NetKit.Proofs.Deadline.Setting

/-!
# Setting a deadline to milliseconds

Milliseconds that can be told in nanoseconds are read back, except those of the first second in
range: their whole seconds are before the range, and lead the deadline past what was set.
-/

namespace NetKit.Deadline

open Saturating

variable {d : Deadline} {n millis : Int}

theorem setMillis_eq_ofNanos (d : Deadline) (millis : Int) (t : TimerType) :
    d.setMillis millis t =
      ofNanos (kept (millis / 1000) (millis % 1000 * nanosPerMilli)) t := by
  by_cases hm : millis = maxInt64
  · rw [hm, setMillis, if_pos (beq_self_eq_true _)]
    rfl
  · rw [setMillis, if_neg (by simpa using hm), setPrecise_eq_ofNanos]

/-- The parts of a second are nonnegative, so only whole seconds before the range are led back. -/
theorem kept_millis (millis : Int) :
    kept (millis / 1000) (millis % 1000 * nanosPerMilli) =
      if -9223372036000 ≤ millis then clamp (millis * 1000000)
      else minInt64 + millis % 1000 * 1000000 := by
  rw [kept]
  split <;> split <;>
    simp only [add, mul, clamp, nanosPerSec, nanosPerMilli, minInt64, maxInt64] at * <;> omega

/-! ## Reading -/

theorem IsPoint.deadlineMillis_eq (h : d.IsPoint) : d.deadlineMillis = d.total / 1000000 := by
  have hlt := h.nanos_lt
  have hsecs := h.secs_bounds
  rw [deadlineMillis, if_neg (by simp [h.isForever])]
  simp only [total, add, mul, clamp, nanosPerSec, minInt64, maxInt64]
  omega

theorem isPoint_ofNanos (h : InRange n) (hn : n ≠ maxInt64) (t : TimerType) :
    (ofNanos n t).IsPoint :=
  (isCanonical_ofNanos h t).isPoint (by
    rw [← Bool.not_eq_true, isForever_ofNanos_iff h]
    exact hn)

theorem deadlineMillis_ofNanos (h : InRange n) (hn : n ≠ maxInt64) (t : TimerType) :
    (ofNanos n t).deadlineMillis = n / 1000000 := by
  rw [(isPoint_ofNanos h hn t).deadlineMillis_eq, total_ofNanos hn]

theorem deadlineNanos_ofNanos (h : InRange n) (hn : n ≠ maxInt64)
    (hfirst : -9223372036000000000 ≤ n) (t : TimerType) : (ofNanos n t).deadlineNanos = n := by
  have hp := isPoint_ofNanos h hn t
  have hreadable : (ofNanos n t).IsReadable := by
    rw [hp.isReadable_iff, total_ofNanos hn]
    exact hfirst
  rw [hp.deadlineNanos_of_readable hreadable, total_ofNanos hn]

/-! ## Setting and reading -/

theorem setMillis_of_inRange (hr : InRange (millis * 1000000)) (hm : -9223372036000 ≤ millis)
    (d : Deadline) (t : TimerType) :
    (d.setMillis millis t).deadlineMillis = millis ∧
      (d.setMillis millis t).deadlineNanos = millis * 1000000 := by
  have hne : millis * 1000000 ≠ maxInt64 := by
    rw [maxInt64]
    omega
  rw [setMillis_eq_ofNanos, kept_millis, if_pos hm, clamp_of_inRange hr,
    deadlineMillis_ofNanos hr hne, deadlineNanos_ofNanos hr hne (by omega)]
  exact ⟨Int.mul_ediv_cancel _ (by decide), rfl⟩

theorem setMillis_of_lt (hr : InRange (millis * 1000000)) (hm : millis < -9223372036000)
    (d : Deadline) (t : TimerType) :
    (d.setMillis millis t).deadlineMillis = millis + 145 ∧
      millis * 1000000 + 145224192 ≤ (d.setMillis millis t).deadlineNanos := by
  have hkept : minInt64 + millis % 1000 * 1000000 = millis * 1000000 + 145224192 := by
    simp only [InRange, minInt64, maxInt64] at hr ⊢
    omega
  have hin : InRange (millis * 1000000 + 145224192) := by
    simp only [InRange, minInt64, maxInt64] at hr ⊢
    omega
  have hne : millis * 1000000 + 145224192 ≠ maxInt64 := by
    rw [maxInt64]
    omega
  rw [setMillis_eq_ofNanos, kept_millis, if_neg (not_le.mpr hm), hkept]
  refine ⟨?_, ?_⟩
  · rw [deadlineMillis_ofNanos hin hne]
    omega
  · calc millis * 1000000 + 145224192
        = (ofNanos (millis * 1000000 + 145224192) t).total := (total_ofNanos hne t).symm
      _ ≤ _ := (isPoint_ofNanos hin hne t).total_le_deadlineNanos

theorem setMillis_of_maxInt64_lt (hm : maxInt64 < millis * 1000000) (d : Deadline) (t : TimerType) :
    d.setMillis millis t = forever t := by
  have hclamp : clamp (millis * 1000000) = maxInt64 := by
    simp only [clamp, minInt64, maxInt64] at hm ⊢
    omega
  have hfirst : -9223372036000 ≤ millis := by
    rw [maxInt64] at hm
    omega
  rw [setMillis_eq_ofNanos, kept_millis, if_pos hfirst, hclamp]
  rfl

/-- Milliseconds that can be told in nanoseconds are read back in both units, exactly unless they
are in the first second of the range. There the deadline is read 145 milliseconds late, and later
still in nanoseconds. Milliseconds past the range set the deadline to forever. -/
theorem setMillis_reads_back_iff (d : Deadline) (millis : Int) (t : TimerType) :
    (d.setMillis millis t).timer = t ∧
    (InRange (millis * 1000000) →
      ((d.setMillis millis t).deadlineMillis = millis ∧
          (d.setMillis millis t).deadlineNanos = millis * 1000000 ↔ -9223372036000 ≤ millis) ∧
      (millis < -9223372036000 →
        (d.setMillis millis t).deadlineMillis = millis + 145 ∧
          millis * 1000000 + 145224192 ≤ (d.setMillis millis t).deadlineNanos)) ∧
    (maxInt64 < millis * 1000000 →
      (d.setMillis millis t).isForever = true ∧
        (d.setMillis millis t).deadlineMillis = maxInt64) := by
  refine ⟨?_, fun hr => ⟨⟨fun h => ?_, fun hm => setMillis_of_inRange hr hm d t⟩,
    fun hm => setMillis_of_lt hr hm d t⟩, fun hm => ?_⟩
  · rw [setMillis_eq_ofNanos]
    exact timer_ofNanos _ t
  · by_contra hm
    have hlate := (setMillis_of_lt hr (not_le.mp hm) d t).1
    rw [h.1] at hlate
    omega
  · rw [setMillis_of_maxInt64_lt hm]
    exact ⟨rfl, rfl⟩

/-- The first milliseconds that are read back, and the first that are forever. -/
theorem setMillis_reads_back_at_ends :
    let first := (new .precise).setMillis (-9223372036000) .coarse
    let never := (new .precise).setMillis 9223372036855 .coarse
    InRange (-9223372036000 * 1000000) ∧ first.deadlineMillis = -9223372036000 ∧
      first.deadlineNanos = -9223372036000 * 1000000 ∧
      maxInt64 < 9223372036855 * 1000000 ∧ never.isForever = true := by
  intro first never
  obtain ⟨_, hfirst, _⟩ := setMillis_reads_back_iff (new .precise) (-9223372036000) .coarse
  obtain ⟨_, _, hnever⟩ := setMillis_reads_back_iff (new .precise) 9223372036855 .coarse
  obtain ⟨hmillis, hnanos⟩ := (hfirst (by decide)).1.mpr (by decide)
  exact ⟨by decide, hmillis, hnanos, by decide, (hnever (by decide)).1⟩

/-- The earliest whole number of milliseconds that fits is read 145 of them late. -/
theorem earliest_millis_are_lost :
    let first := (new .precise).setMillis (-9223372036854) .precise
    InRange (-9223372036854 * 1000000) ∧ first.isForever = false ∧
      first.deadlineMillis = -9223372036709 ∧
      first.deadlineNanos = -9223372036854 * 1000000 + 290448384 ∧
      ¬∀ millis : Int, InRange millis → InRange (millis * 1000000) →
        ((new .precise).setMillis millis .precise).deadlineMillis = millis := by
  refine ⟨by decide, by decide, by decide, by decide, fun h => ?_⟩
  have hback := h (-9223372036854) (by decide) (by decide)
  exact absurd hback (by decide)

end NetKit.Deadline
