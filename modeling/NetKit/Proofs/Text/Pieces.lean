import NetKit.Proofs.Text.Trim
import NetKit.Text.Blank
import NetKit.Text.Search

/-!
# Texts taken apart at marks

Pieces that do not hold the mark are found again in the text that has the mark between them.
-/

namespace NetKit.Text

variable {α : Type} {p : α → Bool} {a : α} {l rest : List α}

/-! ## All pieces -/

theorem splitBy_eq_splitOnP (p : α → Bool) (l : List α) : splitBy p l = l.splitOnP p := by
  induction l with
  | nil => rw [splitBy, List.splitOnP_nil]
  | cons a l ih =>
    rw [splitBy, List.splitOnP_cons_eq_if_modifyHead, ih]
    cases hl : l.splitOnP p with
    | nil => exact absurd hl (List.splitOnP_ne_nil p l)
    | cons piece pieces => rfl

theorem splitBy_ne_nil (p : α → Bool) (l : List α) : splitBy p l ≠ [] :=
  splitBy_eq_splitOnP p l ▸ List.splitOnP_ne_nil p l

theorem splitBy_of_not_mem [BEq α] [LawfulBEq α] (h : a ∉ l) : splitBy (· == a) l = [l] := by
  rw [splitBy_eq_splitOnP, ← List.splitOn_eq_splitOnP, List.splitOn_eq_singleton h]

theorem splitBy_append [BEq α] [LawfulBEq α] (h : a ∉ l) (rest : List α) :
    splitBy (· == a) (l ++ a :: rest) = l :: splitBy (· == a) rest := by
  simp only [splitBy_eq_splitOnP, ← List.splitOn_eq_splitOnP]
  exact List.splitOn_append_cons_self_of_not_mem h rest

theorem splitBy_append_self [BEq α] [LawfulBEq α] (a : α) (l rest : List α) :
    splitBy (· == a) (l ++ a :: rest) = splitBy (· == a) l ++ splitBy (· == a) rest := by
  simp only [splitBy_eq_splitOnP]
  exact List.splitOnP_append_cons l rest (beq_self_eq_true a)

theorem splitBy_pieces [BEq α] [LawfulBEq α] (a : α) {ls : List (List α)} (hl : a ∉ l)
    (hls : ∀ piece ∈ ls, a ∉ piece) :
    splitBy (· == a) (l ++ ls.flatMap (a :: ·)) = l :: ls := by
  induction ls generalizing l with
  | nil => rw [List.flatMap_nil, List.append_nil, splitBy_of_not_mem hl]
  | cons piece ls ih =>
    rw [List.forall_mem_cons] at hls
    rw [List.flatMap_cons, List.cons_append, splitBy_append hl, ih hls.1 hls.2]

/-- What stands in front of a text, without marks, is in front of its first piece. -/
theorem splitBy_front {front : List α} (h : ∀ a ∈ front, p a = false) (l : List α) :
    splitBy p (front ++ l) = (splitBy p l).modifyHead (front ++ ·) := by
  induction front with
  | nil =>
    obtain ⟨piece, pieces, hl⟩ := List.exists_cons_of_ne_nil (splitBy_ne_nil p l)
    rw [List.nil_append, hl]
    rfl
  | cons a front ih =>
    rw [List.forall_mem_cons] at h
    obtain ⟨piece, pieces, hl⟩ := List.exists_cons_of_ne_nil (splitBy_ne_nil p l)
    rw [List.cons_append, splitBy, ih h.2, h.1, hl]
    rfl

/-- What stands behind a text, without marks, is behind its last piece. -/
theorem splitBy_back {back : List α} (h : ∀ a ∈ back, p a = false) (l : List α) :
    ∃ pieces last, splitBy p l = pieces ++ [last] ∧
      splitBy p (l ++ back) = pieces ++ [last ++ back] := by
  induction l with
  | nil =>
    refine ⟨[], [], rfl, ?_⟩
    rw [splitBy_eq_splitOnP, List.nil_append, List.splitOnP_eq_singleton h]
    rfl
  | cons a l ih =>
    obtain ⟨pieces, last, hl, hback⟩ := ih
    rw [List.cons_append, splitBy, splitBy, hl, hback]
    split
    · exact ⟨[] :: pieces, last, rfl, rfl⟩
    · cases pieces with
      | nil => exact ⟨[], a :: last, rfl, rfl⟩
      | cons piece pieces => exact ⟨(a :: piece) :: pieces, last, rfl, rfl⟩

theorem of_mem_splitBy {piece : List α} (h : piece ∈ splitBy p l) :
    ∀ a ∈ piece, a ∈ l ∧ p a = false := by
  induction l generalizing piece with
  | nil =>
    rw [splitBy, List.mem_singleton] at h
    simp [h]
  | cons b l ih =>
    intro a ha
    rw [splitBy_eq_splitOnP, List.splitOnP_cons_eq_if_modifyHead, ← splitBy_eq_splitOnP] at h
    split at h
    · rcases List.mem_cons.mp h with rfl | hpiece
      · cases ha
      · exact ⟨List.mem_cons_of_mem b (ih hpiece a ha).1, (ih hpiece a ha).2⟩
    · rename_i hb
      obtain ⟨first, others, hpieces⟩ := List.exists_cons_of_ne_nil (splitBy_ne_nil p l)
      rw [hpieces] at h ih
      rw [List.modifyHead_cons] at h
      rcases List.mem_cons.mp h with rfl | hpiece
      · rcases List.mem_cons.mp ha with rfl | hfirst
        · exact ⟨List.mem_cons_self, by simpa using hb⟩
        · have := ih List.mem_cons_self a hfirst
          exact ⟨List.mem_cons_of_mem b this.1, this.2⟩
      · have := ih (List.mem_cons_of_mem first hpiece) a ha
        exact ⟨List.mem_cons_of_mem b this.1, this.2⟩

theorem intercalate_cons (a : α) (l : List α) (ls : List (List α)) :
    [a].intercalate (l :: ls) = l ++ ls.flatMap (a :: ·) := by
  induction ls generalizing l with
  | nil => simp
  | cons piece ls ih =>
    rw [List.intercalate_cons_cons, ih, List.flatMap_cons]
    simp

/-! ## The first piece -/

theorem splitOnce_append (hl : ∀ b ∈ l, p b = false) (ha : p a = true) (rest : List α) :
    splitOnce p (l ++ a :: rest) = some (l, rest) := by
  have hp : ∀ b ∈ l, (!p b) = true := fun b hb => by rw [hl b hb, Bool.not_false]
  rw [splitOnce, List.dropWhile_append_of_pos hp, List.takeWhile_append_of_pos hp]
  simp [ha]

theorem splitOnce_eq_none (h : ∀ b ∈ l, p b = false) : splitOnce p l = none := by
  have hdrop : l.dropWhile (fun b => !p b) = [] :=
    List.dropWhile_eq_nil_iff.mpr fun b hb => by rw [h b hb, Bool.not_false]
  rw [splitOnce, hdrop]

theorem not_of_splitOnce_eq_none (h : splitOnce p l = none) : ∀ b ∈ l, p b = false := by
  rw [splitOnce] at h
  split at h
  · rename_i hdrop
    intro b hb
    simpa using List.dropWhile_eq_nil_iff.mp hdrop b hb
  · cases h

theorem of_splitOnce {before after : List α} (h : splitOnce p l = some (before, after)) :
    (∃ a, p a = true ∧ l = before ++ a :: after) ∧ ∀ b ∈ before, p b = false := by
  rw [splitOnce] at h
  split at h
  · cases h
  · rename_i a _ hdrop
    cases h
    refine ⟨⟨a, ?_, ?_⟩, fun b hb => ?_⟩
    · have hhead := List.head?_dropWhile_not (fun b => !p b) l
      rw [hdrop] at hhead
      simpa using hhead
    · rw [← hdrop, List.takeWhile_append_dropWhile]
    · simpa using List.mem_takeWhile_imp hb

theorem mem_dropWhile_ne_iff [BEq α] [LawfulBEq α] {b : α} (hb : b ≠ a) :
    b ∈ l.dropWhile (· != a) ↔ ∃ before after, l = before ++ a :: after ∧ b ∈ after := by
  induction l with
  | nil => simp
  | cons c l ih =>
    by_cases hc : c = a
    · rw [hc, List.dropWhile_cons_of_neg (by simp)]
      constructor
      · intro hmem
        exact ⟨[], l, rfl, (List.mem_cons.mp hmem).resolve_left hb⟩
      · rintro ⟨before, after, hl, hmem⟩
        rw [hl]
        exact List.mem_append_right _ (List.mem_cons_of_mem a hmem)
    · rw [List.dropWhile_cons_of_pos (by simpa using hc), ih]
      constructor
      · rintro ⟨before, after, rfl, hmem⟩
        exact ⟨c :: before, after, rfl, hmem⟩
      · rintro ⟨before, after, hl, hmem⟩
        cases before with
        | nil => exact absurd (List.cons.inj hl).1 hc
        | cons d before => exact ⟨before, after, (List.cons.inj hl).2, hmem⟩

/-! ## Pieces inside -/

theorem occursIn_iff [BEq α] [LawfulBEq α] {part : List α} :
    occursIn part l = true ↔ part <:+: l := by
  induction l with
  | nil => simp [occursIn]
  | cons a l ih => rw [occursIn, Bool.or_eq_true, List.isPrefixOf_iff_prefix, ih, List.infix_cons_iff]

/-- A part without the mark does not reach over one. -/
theorem infix_append_mark_iff {part : List α} (h : a ∉ part) :
    part <:+: l ++ [a] ++ rest ↔ part <:+: l ∨ part <:+: rest := by
  have hends : ∀ {front : List α}, front ⊆ part → front <:+ l ++ [a] → front = [] := by
    intro front hsub hsuffix
    rcases List.suffix_concat_iff.mp hsuffix with rfl | ⟨m, rfl, -⟩
    · rfl
    · exact absurd (hsub (by simp)) h
  rw [List.infix_append_iff]
  constructor
  · rintro (hfront | hrest | ⟨front, back, rfl, hfront, hback⟩)
    · rcases List.infix_concat_iff.mp hfront with hsuffix | hl
      · exact .inl (hends (List.Subset.refl part) hsuffix ▸ List.nil_infix)
      · exact .inl hl
    · exact .inr hrest
    · obtain rfl := hends (List.subset_append_left front back) hfront
      exact .inr hback.isInfix
  · rintro (hl | hrest)
    · exact .inl (hl.trans (List.prefix_append l [a]).isInfix)
    · exact .inr (.inl hrest)

theorem infix_flatMap_iff {part : List α} (hne : part ≠ []) (h : a ∉ part) (ls : List (List α)) :
    part <:+: ls.flatMap (· ++ [a]) ↔ ∃ l ∈ ls, part <:+: l := by
  induction ls with
  | nil => simp [hne]
  | cons l ls ih => rw [List.flatMap_cons, infix_append_mark_iff h, ih, List.exists_mem_cons_iff]

end NetKit.Text
