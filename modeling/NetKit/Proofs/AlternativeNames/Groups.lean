import Mathlib.Data.List.TakeWhile
import Mathlib.Tactic.NthRewrite
import NetKit.Certificate.AlternativeNames

/-!
# Names grouped by kind

Sorting by kind moves no name past another of its kind. In a sorted list bisection finds where the
names of a kind begin and end, so a group holds all names of its kind and no others.
-/

namespace NetKit

/-! ## Bisection -/

namespace Bisection

variable {α : Type} {p : α → Bool} {l : List α}

theorem narrow_eq {low high n : Nat} (hlow : low ≤ n) (hhigh : n ≤ high)
    (hpass : ∀ i < n, l[i]?.any p = true) (hfail : ∀ i, n ≤ i → l[i]?.any p = false) :
    narrow p l low high = n := by
  fun_induction narrow p l low high with
  | case1 low high hlt middle hany ih =>
      refine ih ?_ hhigh
      by_contra hle
      rw [hfail middle (by omega)] at hany
      cases hany
  | case2 low high hlt middle hany ih =>
      refine ih hlow ?_
      by_contra hle
      exact hany (hpass middle (by omega))
  | case3 low high hge => omega

/-- No element that passes follows one that fails. -/
def IsSplit (p : α → Bool) (l : List α) : Prop := l.Pairwise fun a b => p b = true → p a = true

theorem IsSplit.dropWhile_eq (h : IsSplit p l) : l.dropWhile p = l.filter fun a => !p a := by
  induction l with
  | nil => rfl
  | cons a l ih =>
      obtain ⟨ha, hl⟩ := List.pairwise_cons.mp h
      cases hp : p a with
      | true => simp [hp, ih hl]
      | false =>
          have hall : ∀ b ∈ l, p b = false := fun b hb => by
            cases hpb : p b with
            | false => rfl
            | true => rw [ha b hb hpb] at hp; cases hp
          have hfilter : (l.filter fun b => !p b) = l :=
            List.filter_eq_self.mpr fun b hb => by simp [hall b hb]
          simp [hp, hfilter]

theorem IsSplit.filter_append (h : IsSplit p l) : l.filter p ++ l.filter (fun a => !p a) = l := by
  have hfilter : l.filter p = l.takeWhile p := by
    have htake : (l.takeWhile p).filter p = l.takeWhile p :=
      List.filter_eq_self.mpr fun a ha => List.mem_takeWhile_imp ha
    have hdrop : (l.dropWhile p).filter p = [] := by
      rw [h.dropWhile_eq, List.filter_filter]
      simp
    nth_rewrite 1 [← List.takeWhile_append_dropWhile (l := l) (p := p)]
    rw [List.filter_append, htake, hdrop, List.append_nil]
  rw [hfilter, ← h.dropWhile_eq, List.takeWhile_append_dropWhile]

theorem IsSplit.partitionPoint_eq (h : IsSplit p l) :
    partitionPoint p l = (l.filter p).length := by
  refine narrow_eq (Nat.zero_le _) (List.length_filter_le p l) ?_ ?_
  · intro i hi
    have hmem := (List.mem_filter.mp (List.getElem_mem hi)).2
    rw [← h.filter_append, List.getElem?_append_left hi, List.getElem?_eq_getElem hi]
    exact hmem
  · intro i hi
    rw [← h.filter_append, List.getElem?_append_right hi]
    cases hget : (l.filter fun a => !p a)[i - (l.filter p).length]? with
    | none => rfl
    | some a => simpa using (List.mem_filter.mp (List.mem_of_getElem? hget)).2

theorem IsSplit.take_partitionPoint (h : IsSplit p l) :
    l.take (partitionPoint p l) = l.filter p := by
  rw [h.partitionPoint_eq]
  nth_rewrite 2 [← h.filter_append]
  rw [List.take_left]

theorem IsSplit.drop_partitionPoint (h : IsSplit p l) :
    l.drop (partitionPoint p l) = l.filter fun a => !p a := by
  rw [h.partitionPoint_eq]
  nth_rewrite 2 [← h.filter_append]
  rw [List.drop_left]

end Bisection

namespace AlternativeNames

open Bisection (IsSplit partitionPoint)

variable {names entries : List AlternativeName} {m : AlternativeNames} {k : NameKind}

theorem rank_inj {a b : NameKind} : a.rank = b.rank ↔ a = b := by
  cases a <;> cases b <;> decide

/-! ## Sorting -/

/-- Lower kinds come first. -/
def IsSorted (l : List AlternativeName) : Prop := l.Pairwise fun a b => a.kind.rank ≤ b.kind.rank

/-- The same names in the order of their kinds, those of one kind in the order that they had. -/
structure IsStableSort (names entries : List AlternativeName) : Prop where
  perm : entries.Perm names
  sorted : IsSorted entries
  stable : ∀ k, (entries.filter fun n => n.kind = k) = names.filter fun n => n.kind = k

theorem notAfter_trans (a b c : AlternativeName) (hab : decide (a.kind.rank ≤ b.kind.rank) = true)
    (hbc : decide (b.kind.rank ≤ c.kind.rank) = true) :
    decide (a.kind.rank ≤ c.kind.rank) = true :=
  decide_eq_true (Nat.le_trans (of_decide_eq_true hab) (of_decide_eq_true hbc))

theorem notAfter_total (a b : AlternativeName) :
    (decide (a.kind.rank ≤ b.kind.rank) || decide (b.kind.rank ≤ a.kind.rank)) = true := by
  simpa using Nat.le_total a.kind.rank b.kind.rank

theorem isSorted_ofList (names : List AlternativeName) : IsSorted (ofList names).entries :=
  (List.pairwise_mergeSort notAfter_trans notAfter_total names).imp fun hab =>
    of_decide_eq_true hab

/-- The names of one kind are a sorted part of the list, which sorting leaves in its order. -/
theorem filter_kind_ofList (names : List AlternativeName) (k : NameKind) :
    ((ofList names).entries.filter fun n => n.kind = k) = names.filter fun n => n.kind = k := by
  have hperm : (ofList names).entries.Perm names := List.mergeSort_perm names _
  have hsub : (names.filter fun n => n.kind = k).Sublist (ofList names).entries := by
    refine List.sublist_mergeSort notAfter_trans notAfter_total ?_ List.filter_sublist
    refine List.pairwise_of_forall_mem_list fun a ha b hb => ?_
    have hak : a.kind = k := by simpa using (List.mem_filter.mp ha).2
    have hbk : b.kind = k := by simpa using (List.mem_filter.mp hb).2
    simp [hak, hbk]
  have hfilter := hsub.filter fun n => decide (n.kind = k)
  rw [List.filter_filter] at hfilter
  simp only [Bool.and_self] at hfilter
  exact (hfilter.eq_of_length (hperm.filter _).length_eq.symm).symm

theorem isStableSort_ofList (names : List AlternativeName) :
    IsStableSort names (ofList names).entries where
  perm := List.mergeSort_perm names _
  sorted := isSorted_ofList names
  stable := filter_kind_ofList names

/-! ## Groups -/

theorem IsSorted.isSplit_lt (h : IsSorted entries) (k : NameKind) :
    IsSplit (fun n => n.kind.rank < k.rank) entries :=
  h.imp fun hab hb => decide_eq_true (Nat.lt_of_le_of_lt hab (of_decide_eq_true hb))

theorem IsSorted.isSplit_le (h : IsSorted entries) (k : NameKind) :
    IsSplit (fun n => n.kind.rank ≤ k.rank) entries :=
  h.imp fun hab hb => decide_eq_true (Nat.le_trans hab (of_decide_eq_true hb))

theorem IsSorted.group_eq (h : IsSorted m.entries) (k : NameKind) :
    m.group k = m.entries.filter fun n => n.kind = k := by
  have hle := (h.isSplit_le k).take_partitionPoint
  have hlt : partitionPoint (fun n => n.kind.rank < k.rank) m.entries =
      partitionPoint (fun n => n.kind.rank < k.rank)
        (m.entries.filter fun n => n.kind.rank ≤ k.rank) := by
    rw [(h.isSplit_lt k).partitionPoint_eq,
      IsSplit.partitionPoint_eq (IsSorted.isSplit_lt (h.filter _) k), List.filter_filter]
    congr 1
    refine List.filter_congr fun n _ => ?_
    rw [Bool.eq_iff_iff]
    simp only [Bool.and_eq_true, decide_eq_true_eq]
    omega
  rw [group, hle, hlt, (IsSorted.isSplit_lt (h.filter _) k).drop_partitionPoint,
    List.filter_filter]
  refine List.filter_congr fun n _ => ?_
  rw [Bool.eq_iff_iff]
  simp only [Bool.and_eq_true, Bool.not_eq_true', decide_eq_false_iff_not, decide_eq_true_eq,
    ← rank_inj]
  omega

theorem IsSorted.values_eq (h : IsSorted m.entries) (k : NameKind) :
    m.values k = (m.entries.filter fun n => n.kind = k).map (·.value) := by
  rw [values, h.group_eq]

end AlternativeNames
end NetKit
