import Mathlib.Data.List.DropRight
import NetKit.Text.Blank

/-!
# What trimming leaves

A trimmed list is a piece of the list, begins and ends with an element that is kept, and is trimmed
no further.
-/

namespace NetKit.Text

variable {α : Type} {p : α → Bool} {l : List α} {a : α}

theorem dropWhileEnd_eq_rdropWhile (p : α → Bool) (l : List α) : dropWhileEnd p l = l.rdropWhile p :=
  rfl

theorem trimBy_sublist (p : α → Bool) (l : List α) : (trimBy p l).Sublist l :=
  (List.rdropWhile_prefix p _).sublist.trans (List.dropWhile_sublist p)

theorem not_of_head?_trimBy (h : (trimBy p l).head? = some a) : p a = false := by
  have hprefix : trimBy p l <+: l.dropWhile p := List.rdropWhile_prefix p _
  obtain ⟨rest, hrest⟩ := hprefix
  have hhead : (l.dropWhile p).head? = some a := by
    rw [← hrest, List.head?_append, h, Option.some_or]
  have hnot := List.head?_dropWhile_not p l
  rw [hhead] at hnot
  simpa using hnot

theorem not_of_getLast?_trimBy (h : (trimBy p l).getLast? = some a) : p a = false := by
  rw [trimBy, dropWhileEnd_eq_rdropWhile] at h
  have hne : (l.dropWhile p).rdropWhile p ≠ [] := by
    intro he
    rw [he] at h
    cases h
  rw [List.getLast?_eq_some_getLast hne] at h
  cases h
  simpa using List.rdropWhile_last_not p _ hne

theorem dropWhileEnd_eq_self (h : ∀ a, l.getLast? = some a → p a = false) :
    dropWhileEnd p l = l := by
  rw [dropWhileEnd_eq_rdropWhile, List.rdropWhile_eq_self_iff]
  intro hne
  simp [h _ (List.getLast?_eq_some_getLast hne)]

theorem trimBy_eq_self (hhead : ∀ a, l.head? = some a → p a = false)
    (hlast : ∀ a, l.getLast? = some a → p a = false) : trimBy p l = l := by
  have hdrop : l.dropWhile p = l := by
    cases l with
    | nil => rfl
    | cons a l => simp [hhead a rfl]
  rw [trimBy, hdrop, dropWhileEnd_eq_self hlast]

/-! ## What is trimmed off -/

theorem trimBy_split (p : α → Bool) (l : List α) :
    ∃ front back, l = front ++ trimBy p l ++ back ∧ ∀ a ∈ front ++ back, p a = true := by
  refine ⟨l.takeWhile p, (l.dropWhile p).rtakeWhile p, ?_, fun a ha => ?_⟩
  · rw [trimBy, dropWhileEnd_eq_rdropWhile, List.append_assoc, List.rdropWhile_append_rtakeWhile,
      List.takeWhile_append_dropWhile]
  · rcases List.mem_append.mp ha with ha | ha
    · exact List.mem_takeWhile_imp ha
    · exact List.mem_rtakeWhile_imp ha

theorem dropWhile_front {front m : List α} (hfront : ∀ a ∈ front, p a = true)
    (hhead : ∀ a, m.head? = some a → p a = false) : (front ++ m).dropWhile p = m := by
  rw [List.dropWhile_append_of_pos hfront]
  cases m with
  | nil => rfl
  | cons a m => simp [hhead a rfl]

/-- There is one way to take a list apart so. -/
theorem trimBy_of_split {front m back : List α} (hends : ∀ a ∈ front ++ back, p a = true)
    (hhead : ∀ a, m.head? = some a → p a = false)
    (hlast : ∀ a, m.getLast? = some a → p a = false) : trimBy p (front ++ m ++ back) = m := by
  have hfront : ∀ a ∈ front, p a = true := fun a ha => hends a (List.mem_append_left back ha)
  have hback : ∀ a ∈ back, p a = true := fun a ha => hends a (List.mem_append_right front ha)
  cases m with
  | nil =>
      have hall : (front ++ [] ++ back).dropWhile p = [] := by
        simpa using fun a ha => (List.mem_append.mp ha).elim (hfront a) (hback a)
      rw [trimBy, hall]
      rfl
  | cons b m =>
      have hstart : (front ++ (b :: m ++ back)).dropWhile p = b :: m ++ back :=
        dropWhile_front hfront fun a ha => hhead a ha
      have hfinish : (back.reverse ++ (b :: m).reverse).dropWhile p = (b :: m).reverse :=
        dropWhile_front (by simpa using hback) fun a ha => hlast a (by rwa [List.head?_reverse] at ha)
      rw [trimBy, List.append_assoc, hstart, dropWhileEnd, List.reverse_append, hfinish,
        List.reverse_reverse]

/-- What is trimmed off may as well not be there. -/
theorem trimBy_ends {front back : List α} (hends : ∀ a ∈ front ++ back, p a = true) (l : List α) :
    trimBy p (front ++ l ++ back) = trimBy p l := by
  obtain ⟨front', back', hl, hends'⟩ := trimBy_split p l
  rw [List.forall_mem_append] at hends hends'
  have hwhole : front ++ l ++ back = (front ++ front') ++ trimBy p l ++ (back' ++ back) := by
    conv_lhs => rw [hl]
    simp only [List.append_assoc]
  rw [hwhole]
  refine trimBy_of_split ?_ (fun _ => not_of_head?_trimBy) fun _ => not_of_getLast?_trimBy
  simp only [List.forall_mem_append]
  exact ⟨⟨hends.1, hends'.1⟩, hends'.2, hends.2⟩

/-! ## Marks at the ends -/

section Marks

variable [BEq α] [LawfulBEq α] {rest : List α}

theorem takeWhile_marks (a : α) (l : List α) :
    l.takeWhile (· == a) = List.replicate (l.takeWhile (· == a)).length a :=
  List.eq_replicate_of_mem fun _ hb => eq_of_beq (List.mem_takeWhile_imp (p := (· == a)) hb)

theorem marks_append (a : α) (l : List α) :
    List.replicate (l.takeWhile (· == a)).length a ++ l.dropWhile (· == a) = l := by
  rw [← takeWhile_marks, List.takeWhile_append_dropWhile]

theorem append_marks (a : α) (l : List α) :
    dropWhileEnd (· == a) l ++ List.replicate (l.reverse.takeWhile (· == a)).length a = l := by
  have hreverse := congrArg List.reverse (marks_append a l.reverse)
  rwa [List.reverse_append, List.reverse_replicate, List.reverse_reverse] at hreverse

theorem takeWhile_marks_append (h : ∀ b, rest.head? = some b → b ≠ a) (n : Nat) :
    (List.replicate n a ++ rest).takeWhile (· == a) = List.replicate n a ∧
      (List.replicate n a ++ rest).dropWhile (· == a) = rest := by
  have hmarks : ∀ b ∈ List.replicate n a, (b == a) = true :=
    fun b hb => beq_iff_eq.mpr (List.eq_of_mem_replicate hb)
  rw [List.takeWhile_append_of_pos hmarks, List.dropWhile_append_of_pos hmarks]
  cases rest with
  | nil => simp
  | cons b rest => simp [h b rfl]

theorem dropWhileEnd_append_marks (h : ∀ b, l.getLast? = some b → b ≠ a) (n : Nat) :
    dropWhileEnd (· == a) (l ++ List.replicate n a) = l ∧
      ((l ++ List.replicate n a).reverse.takeWhile (· == a)).length = n := by
  have hhead : ∀ b, l.reverse.head? = some b → b ≠ a := fun b hb => h b (by simpa using hb)
  obtain ⟨htake, hdrop⟩ := takeWhile_marks_append hhead n
  rw [dropWhileEnd, List.reverse_append, List.reverse_replicate, htake, hdrop]
  exact ⟨List.reverse_reverse l, List.length_replicate⟩

end Marks

/-! ## Blanks -/

theorem trim_trim (l : List Char) : trim (trim l) = trim l :=
  trimBy_eq_self (fun _ => not_of_head?_trimBy) fun _ => not_of_getLast?_trimBy

theorem trim_front {front : List Char} (h : ∀ c ∈ front, isBlank c = true) (l : List Char) :
    trim (front ++ l) = trim l := by
  have hends : trim (front ++ l ++ []) = trim l := trimBy_ends (by simpa using h) l
  rwa [List.append_nil] at hends

theorem trim_back {back : List Char} (h : ∀ c ∈ back, isBlank c = true) (l : List Char) :
    trim (l ++ back) = trim l := by
  have hends : trim ([] ++ l ++ back) = trim l := trimBy_ends (by simpa using h) l
  rwa [List.nil_append] at hends

theorem trim_cons_blank {c : Char} (h : isBlank c = true) (l : List Char) :
    trim (c :: l) = trim l := by
  rw [trim, trim, trimBy, trimBy, List.dropWhile_cons_of_pos h]

end NetKit.Text
