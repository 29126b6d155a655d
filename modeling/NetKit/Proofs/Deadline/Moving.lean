import NetKit.Proofs.Deadline.Places

/-!
# Moving a deadline

A deadline moves from where it is read. It is read where it stands, but for the points whose seconds
alone are before the first that can be told: those are read too late.
-/

namespace NetKit.Deadline

open Saturating

variable {a b d : Deadline} {n : Int}

/-! ## Where a deadline is read -/

/-- The seconds alone are not before the first point that can be told. -/
def IsReadable (d : Deadline) : Prop := minInt64 ≤ d.secs * nanosPerSec

instance (d : Deadline) : Decidable d.IsReadable := inferInstanceAs (Decidable (_ ≤ _))

theorem IsPoint.deadlineNanos_eq (h : d.IsPoint) :
    d.deadlineNanos = max minInt64 (d.secs * nanosPerSec) + d.nanos := by
  have hlt := h.nanos_lt
  have hsecs := h.secs_bounds
  have hlast := h.lt_maxInt64
  rw [deadlineNanos, if_neg (by simp [h.isForever])]
  simp only [total, add, mul, clamp, nanosPerSec, minInt64, maxInt64] at *
  omega

theorem IsPoint.deadlineNanos_of_readable (h : d.IsPoint) (hr : d.IsReadable) :
    d.deadlineNanos = d.total := by
  rw [h.deadlineNanos_eq, max_eq_right hr, total]

theorem IsPoint.isReadable_iff (h : d.IsPoint) :
    d.IsReadable ↔ -9223372036000000000 ≤ d.total := by
  have hlt := h.nanos_lt
  simp only [IsReadable, total, nanosPerSec, minInt64]
  omega

/-- A point that is read too late is in the first second, and is read after it. -/
theorem IsPoint.deadlineNanos_of_not_readable (h : d.IsPoint) (hr : ¬d.IsReadable) :
    d.deadlineNanos = d.total + 145224192 ∧ d.deadlineNanos < -9223372035000000000 := by
  have hlt := h.nanos_lt
  have hsecs := h.secs_bounds
  rw [h.deadlineNanos_eq]
  simp only [IsReadable, total, nanosPerSec, minInt64] at *
  omega

theorem IsPoint.deadlineNanos_eq_total_iff (h : d.IsPoint) :
    d.deadlineNanos = d.total ↔ d.IsReadable := by
  refine ⟨fun he => ?_, h.deadlineNanos_of_readable⟩
  by_contra hr
  have := (h.deadlineNanos_of_not_readable hr).1
  omega

theorem IsPoint.total_le_deadlineNanos (h : d.IsPoint) : d.total ≤ d.deadlineNanos := by
  by_cases hr : d.IsReadable
  · exact (h.deadlineNanos_of_readable hr).ge
  · have := (h.deadlineNanos_of_not_readable hr).1
    omega

theorem deadlineNanos_of_isForever (h : d.isForever = true) : d.deadlineNanos = maxInt64 :=
  if_pos h

theorem inRange_deadlineNanos (d : Deadline) : InRange d.deadlineNanos := by
  rw [deadlineNanos]
  split
  · decide
  · exact clamp_inRange _

/-! ## Moves -/

theorem addNanos_of_isForever (h : d.isForever = true) (n : Int) : d.addNanos n = d := if_pos h

theorem addNanos_eq_ofNanos (h : d.isForever = false) (n : Int) :
    d.addNanos n = ofNanos (add d.deadlineNanos n) d.timer := by
  rw [addNanos, h]
  rfl

theorem place_addNanos (h : d.isForever = false) (n : Int) :
    (d.addNanos n).place = clamp (d.deadlineNanos + n) := by
  rw [addNanos_eq_ofNanos h, add, place_ofNanos (clamp_inRange _)]

theorem isForever_addNanos_iff (h : d.isForever = false) (n : Int) :
    (d.addNanos n).isForever = true ↔ maxInt64 ≤ d.deadlineNanos + n := by
  rw [addNanos_eq_ofNanos h, add, isForever_ofNanos_iff (clamp_inRange _)]
  simp only [clamp, minInt64, maxInt64]
  omega

theorem isForever_of_addNanos (h : (d.addNanos n).isForever = false) : d.isForever = false := by
  by_contra hd
  rw [Bool.not_eq_false] at hd
  rw [addNanos_of_isForever hd, hd] at h
  cases h

theorem IsCanonical.total_addNanos (hd : d.IsCanonical) (h : (d.addNanos n).isForever = false) :
    (d.addNanos n).total = max (d.deadlineNanos + n) minInt64 := by
  have hfd := isForever_of_addNanos h
  have hlt := mt (isForever_addNanos_iff hfd n).mpr (by simp [h])
  rw [← ((hd.addNanos n).isPoint h).place_eq, place_addNanos hfd]
  simp only [clamp, minInt64, maxInt64] at hlt ⊢
  omega

/-- The moved deadline is read where it should stand exactly if it can be read at all. -/
theorem IsCanonical.deadlineNanos_addNanos_iff (hd : d.IsCanonical)
    (h : (d.addNanos n).isForever = false) :
    (d.addNanos n).deadlineNanos = max (d.deadlineNanos + n) minInt64 ↔
      (d.addNanos n).IsReadable := by
  rw [← hd.total_addNanos h]
  exact ((hd.addNanos n).isPoint h).deadlineNanos_eq_total_iff

/-- Nothing is read before a deadline that can be read, but what stands before it. -/
theorem IsCanonical.deadlineNanos_le (ha : a.IsCanonical) (hb : b.IsCanonical)
    (h : a.place ≤ b.place) (hr : a.IsReadable) : a.deadlineNanos ≤ b.deadlineNanos := by
  cases hfb : b.isForever with
  | true =>
      rw [deadlineNanos_of_isForever hfb]
      exact (inRange_deadlineNanos a).2
  | false =>
      have hpb := hb.isPoint hfb
      have hpa := ha.isPoint (hpb.isForever_of_place_le h)
      rw [hpa.place_eq, hpb.place_eq] at h
      rw [hpa.deadlineNanos_of_readable hr]
      exact h.trans hpb.total_le_deadlineNanos

/-- A move keeps the order of two deadlines exactly if they are read in it, or the later of them
ends at the first point. -/
theorem IsCanonical.addNanos_le_iff (ha : a.IsCanonical) (hb : b.IsCanonical) (h : a.le b = true)
    (hn : InRange n) :
    (a.addNanos n).le (b.addNanos n) = true ↔
      a.deadlineNanos ≤ b.deadlineNanos ∨ a.deadlineNanos + n ≤ minInt64 := by
  rw [(ha.addNanos n).le_iff_place (hb.addNanos n)]
  have hle := (ha.le_iff_place hb).mp h
  cases hfb : b.isForever with
  | true =>
      rw [addNanos_of_isForever hfb, place_of_isForever hfb, deadlineNanos_of_isForever hfb]
      exact iff_of_true (ha.addNanos n).inRange_place.2 (.inl (inRange_deadlineNanos a).2)
  | false =>
      have hfa := (hb.isPoint hfb).isForever_of_place_le hle
      rw [place_addNanos hfa, place_addNanos hfb]
      -- What is read out of order is read in the first seconds, too far from the end to reach it.
      have hfar : a.deadlineNanos ≤ b.deadlineNanos ∨ a.deadlineNanos < -9223372035000000000 := by
        by_cases hra : a.IsReadable
        · exact .inl (ha.deadlineNanos_le hb hle hra)
        · exact .inr ((ha.isPoint hfa).deadlineNanos_of_not_readable hra).2
      simp only [InRange, clamp, minInt64, maxInt64] at hn hfar ⊢
      omega

/-- A deadline that moved ahead comes back exactly if it can be read. -/
theorem IsCanonical.addNanos_neg_iff (hd : d.IsCanonical) (hn : 0 ≤ n)
    (h : (d.addNanos n).isForever = false) :
    (d.addNanos n).addNanos (-n) = d ↔ d.IsReadable := by
  have hfd := isForever_of_addNanos h
  have hp := hd.isPoint hfd
  have hq := (hd.addNanos n).isPoint h
  have hrange := inRange_deadlineNanos d
  have htotal : (d.addNanos n).total = d.deadlineNanos + n := by
    rw [hd.total_addNanos h, max_eq_left (hrange.1.trans (Int.le_add_of_nonneg_right hn))]
  constructor
  · intro hback
    by_contra hr
    have hplace := place_addNanos h (-n)
    rw [hback, hp.place_eq] at hplace
    have hread := (hp.deadlineNanos_of_not_readable hr).1
    have hle := hq.total_le_deadlineNanos
    simp only [InRange, clamp, minInt64, maxInt64] at hrange hplace
    omega
  · intro hr
    have hread := hp.deadlineNanos_of_readable hr
    have hrq : (d.addNanos n).IsReadable := by
      rw [hq.isReadable_iff, htotal, hread]
      have := hp.isReadable_iff.mp hr
      omega
    rw [addNanos_eq_ofNanos h, hq.deadlineNanos_of_readable hrq, htotal, hread, add,
      Int.add_neg_cancel_right, clamp_of_inRange (hread ▸ hrange), ← hp.place_eq,
      addNanos_eq_ofNanos hfd, timer_ofNanos]
    exact ofNanos_place hd

theorem clampedNanos_nonneg (x : Span) : 0 ≤ x.clampedNanos := by
  simp only [Span.clampedNanos, Span.totalNanos, clamp, minInt64, maxInt64]
  omega

/-- A move adds to what is read, as near as can be told, and forever stays. The moved deadline is
read there exactly if it can be read. The order of two deadlines is kept exactly if they are read in
it, or the later of them ends at the first point; and a span that was added and taken away leads
back exactly if the deadline can be read. -/
theorem addNanos_exact_iff_readable (ha : Reachable a) (hb : Reachable b) (hn : InRange n)
    (x : Span) :
    (a.isForever = true → a.addNanos n = a) ∧
    (a.isForever = false →
      (a.addNanos n).timer = a.timer ∧
      ((a.addNanos n).isForever = true ↔ maxInt64 ≤ a.deadlineNanos + n) ∧
      ((a.addNanos n).isForever = false →
        ((a.addNanos n).deadlineNanos = max (a.deadlineNanos + n) minInt64 ↔
          (a.addNanos n).IsReadable))) ∧
    (a.le b = true →
      ((a.addNanos n).le (b.addNanos n) = true ↔
        a.deadlineNanos ≤ b.deadlineNanos ∨ a.deadlineNanos + n ≤ minInt64) ∧
      (a.IsReadable → a.deadlineNanos ≤ b.deadlineNanos)) ∧
    ((a.addSpan x).isForever = false → ((a.addSpan x).subSpan x = a ↔ a.IsReadable)) := by
  have hca := ha.isCanonical
  have hcb := hb.isCanonical
  refine ⟨fun h => addNanos_of_isForever h n, fun h => ⟨?_, ?_, ?_⟩, fun h => ⟨?_, ?_⟩, fun h => ?_⟩
  · rw [addNanos_eq_ofNanos h, timer_ofNanos]
  · exact isForever_addNanos_iff h n
  · exact hca.deadlineNanos_addNanos_iff
  · exact hca.addNanos_le_iff hcb h hn
  · exact hca.deadlineNanos_le hcb ((hca.le_iff_place hcb).mp h)
  · exact hca.addNanos_neg_iff (clampedNanos_nonneg x) h

/-- The first deadline that can be read moves by the longest span and back. -/
theorem addNanos_exact_at_first_readable :
    let first := (new .precise).setPrecise (-9223372036) 0 .coarse
    let last := current ⟨9223372035, 999999999⟩ .precise
    let longest : Span := ⟨9223372036, 854775807⟩
    Reachable first ∧ Reachable last ∧ InRange maxInt64 ∧
      (first.addNanos maxInt64).deadlineNanos = max (first.deadlineNanos + maxInt64) minInt64 ∧
      (first.addNanos maxInt64).le (last.addNanos maxInt64) = true ∧
      (first.addSpan longest).subSpan longest = first := by
  intro first last longest
  have hfirst : Reachable first := .setPrecise (.new .precise) _ _ _
  have hlast : Reachable last := .current (by decide) _
  have hmax : InRange maxInt64 := by decide
  obtain ⟨_, hmove, hle, hback⟩ := addNanos_exact_iff_readable hfirst hlast hmax longest
  exact ⟨hfirst, hlast, hmax, ((hmove (by decide)).2.2 (by decide)).mpr (by decide),
    (hle (by decide)).1.mpr (.inl ((hle (by decide)).2 (by decide))),
    (hback (by decide)).mpr (by decide)⟩

/-- Points before the first second that can be read change when they are moved by nothing, and come
after ones that they stood before. -/
theorem unreadable_moved_by_nothing :
    let first := (new .precise).setPrecise minInt64 0 .precise
    let early := (new .precise).setPrecise (-9223372036) (-1) .precise
    let late := (new .precise).setPrecise (-9223372036) 0 .precise
    (Reachable first ∧ first.isForever = false ∧ (first.addNanos 0).isForever = false ∧
      (first.addNanos 0).deadlineNanos ≠ max (first.deadlineNanos + 0) minInt64) ∧
    (Reachable early ∧ Reachable late ∧ early.le late = true ∧
      (early.addNanos 0).le (late.addNanos 0) = false) ∧
    (first.addSpan ⟨0, 0⟩).isForever = false ∧ (first.addSpan ⟨0, 0⟩).subSpan ⟨0, 0⟩ ≠ first := by
  intro first early late
  have hset (secs nanos : Int) : Reachable ((new .precise).setPrecise secs nanos .precise) :=
    .setPrecise (.new .precise) secs nanos .precise
  exact ⟨⟨hset _ _, by decide⟩, ⟨hset _ _, hset _ _, by decide⟩, by decide⟩

end NetKit.Deadline
