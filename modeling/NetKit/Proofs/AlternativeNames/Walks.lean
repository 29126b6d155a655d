import Mathlib.Data.List.Basic
import NetKit.Proofs.AlternativeNames.Groups

/-!
# What walks meet

A cursor faces the names that it has not passed. One move passes the first of them, or the whole
group that it begins; so a walk meets the names of its cursor, their values or their kinds, one
after the other, and nothing from the end on.
-/

namespace NetKit.AlternativeNames

open Bisection (IsSplit)

/-! ## Cursors -/

namespace Cursor

variable {c : Cursor} {n : AlternativeName} {l : List AlternativeName}

/-- The cursor stands at the last name in front of `l`, which is the rest of its names. -/
def Faces (c : Cursor) (l : List AlternativeName) : Prop :=
  ∃ passed, c.entries = passed ++ l ∧ c.position = (passed.length : Int) - 1

theorem faces_start (entries : List AlternativeName) : Faces { entries } entries :=
  ⟨[], rfl, rfl⟩

theorem advance_atEnd (h : c.atEnd = true) : c.advance = (false, c) := by
  rw [advance, if_pos h]

theorem advanceKey_atEnd (h : c.atEnd = true) : c.advanceKey = (false, c) := by
  rw [advanceKey, advance_atEnd h]

theorem Faces.atEnd_eq (h : c.Faces l) : c.atEnd = false := by
  obtain ⟨passed, hentries, hposition⟩ := h
  rw [atEnd, hentries, hposition, List.length_append, beq_eq_false_iff_ne]
  omega

/-- One place further. -/
def succ (c : Cursor) : Cursor := { c with position := c.position + 1 }

theorem Faces.succ (h : c.Faces (n :: l)) : c.succ.Faces l := by
  obtain ⟨passed, hentries, hposition⟩ := h
  exact ⟨passed ++ [n], by simp [Cursor.succ, hentries], by simp [Cursor.succ, hposition]⟩

theorem Faces.current?_succ (h : c.Faces (n :: l)) : c.succ.current? = some n := by
  obtain ⟨passed, hentries, hposition⟩ := h
  simp [Cursor.succ, current?, hentries, hposition]

theorem Faces.advance_cons (h : c.Faces (n :: l)) : c.advance = (true, c.succ) := by
  have hnext : atEnd { c with position := c.position + 1 } = false := h.succ.atEnd_eq
  simp [advance, h.atEnd_eq, hnext, Cursor.succ]

theorem Faces.atEnd_succ (h : c.Faces []) : c.succ.atEnd = true := by
  obtain ⟨passed, hentries, hposition⟩ := h
  simp [atEnd, Cursor.succ, hentries, hposition]

theorem Faces.advance_nil (h : c.Faces []) : c.advance = (false, c.succ) := by
  have hnext : atEnd { c with position := c.position + 1 } = true := h.atEnd_succ
  simp [advance, h.atEnd_eq, hnext, Cursor.succ]

theorem Faces.advanceKey_nil (h : c.Faces []) : c.advanceKey = (false, c.succ) := by
  rw [advanceKey, h.advance_nil]

theorem Faces.restOfGroup_succ (h : c.Faces (n :: l)) (k : NameKind) :
    c.succ.restOfGroup k = (l.takeWhile fun a => a.kind == k).length := by
  obtain ⟨passed, hentries, hposition⟩ := h.succ
  simp [restOfGroup, hentries, hposition]

/-- A move by key ends at the last name of the group, where the cursor faces the next group. -/
theorem Faces.advanceKey_cons (h : c.Faces (n :: l)) :
    ∃ c' last, c.advanceKey = (true, c') ∧ c'.current? = some last ∧ last.kind = n.kind ∧
      c'.Faces (l.dropWhile fun a => a.kind == n.kind) := by
  have hkey : c.advanceKey = (true,
      { c.succ with position := c.succ.position + c.succ.restOfGroup n.kind }) := by
    rw [advanceKey, h.advance_cons]
    simp only [h.current?_succ]
  rw [h.restOfGroup_succ] at hkey
  obtain ⟨passed, hentries, hposition⟩ := h
  generalize hgroup : (l.takeWhile fun a => a.kind == n.kind) = group at hkey
  have hl : group ++ (l.dropWhile fun a => a.kind == n.kind) = l := by
    rw [← hgroup, List.takeWhile_append_dropWhile]
  rw [← hl] at hentries
  have hkinds : ∀ a ∈ group, a.kind = n.kind := by
    intro a ha
    rw [← hgroup] at ha
    simpa using List.mem_takeWhile_imp ha
  have hlt : group.length < (n :: group).length := by simp
  refine ⟨_, (n :: group)[group.length], hkey, ?_, ?_, passed ++ n :: group, ?_, ?_⟩
  · have hat : c.position + 1 + group.length = ((passed.length + group.length : Nat) : Int) := by
      omega
    simp only [current?, Cursor.succ, hat, hentries, Int.toNat_natCast]
    rw [if_neg (by omega), List.getElem?_append_right (by omega), Nat.add_sub_cancel_left,
      ← List.cons_append, List.getElem?_append_left hlt, List.getElem?_eq_getElem hlt]
  · rcases List.mem_cons.mp (List.getElem_mem hlt) with hfirst | hlater
    · rw [hfirst]
    · exact hkinds _ hlater
  · simp [Cursor.succ, hentries]
  · simp only [Cursor.succ, hposition, List.length_append, List.length_cons]
    omega

end Cursor

/-! ## Walks -/

/-- A walk meets these items one after the other, and nothing however often it is asked again. -/
inductive Walk.Meets : Walk → List Item → Prop
  | over {w v : Walk} (hnext : w.next = (none, v)) (hover : v.next = (none, v)) : Meets w []
  | item {w v : Walk} {x : Item} {items : List Item} (hnext : w.next = (some x, v))
      (hrest : Meets v items) : Meets w (x :: items)

variable {c : Cursor} {l : List AlternativeName} {k : NameKind}

/-- A walk that moves name by name meets every name that its cursor faces, as it shows it. -/
theorem meets_of_advance {walk : Cursor → Walk} {item : AlternativeName → Item}
    (hnext : ∀ c, (walk c).next =
      (if c.advance.1 then c.advance.2.current?.map item else none, walk c.advance.2))
    (h : c.Faces l) : (walk c).Meets (l.map item) := by
  induction l generalizing c with
  | nil =>
      refine .over (v := walk c.succ) ?_ ?_
      · simp [hnext, h.advance_nil]
      · simp [hnext, Cursor.advance_atEnd h.atEnd_succ]
  | cons n l ih =>
      refine .item (v := walk c.succ) ?_ (ih h.succ)
      simp [hnext, h.advance_cons, h.current?_succ]

theorem meets_entries (h : c.Faces l) : (Walk.entries c).Meets (l.map .entry) :=
  meets_of_advance (fun _ => rfl) h

theorem meets_values (h : c.Faces l) : (Walk.values c).Meets (l.map fun n => .value n.value) :=
  meets_of_advance (fun _ => rfl) h

/-! ## Kinds -/

/-- The kinds of the groups, one after the other. -/
def kindsOf : List AlternativeName → List NameKind
  | [] => []
  | n :: l => n.kind :: kindsOf (l.dropWhile fun a => a.kind == n.kind)
termination_by l => l.length
decreasing_by exact Nat.lt_succ_of_le (List.dropWhile_sublist _).length_le

theorem meets_keys (h : c.Faces l) : (Walk.keys c).Meets ((kindsOf l).map .key) := by
  fun_induction kindsOf l generalizing c with
  | case1 =>
      refine .over (v := .keys c.succ) ?_ ?_
      · simp [Walk.next, h.advanceKey_nil]
      · simp [Walk.next, Cursor.advanceKey_atEnd h.atEnd_succ]
  | case2 n l ih =>
      obtain ⟨c', last, hkey, hcurrent, hkind, hfaces⟩ := h.advanceKey_cons
      refine .item (v := .keys c') ?_ (ih hfaces)
      simp [Walk.next, hkey, hcurrent, hkind]

theorem collect_advanceKey {fuel : Nat} (h : c.Faces l) (hfuel : l.length < fuel) :
    Cursor.collect Cursor.advanceKey (·.kind) fuel c = kindsOf l := by
  fun_induction kindsOf l generalizing c fuel with
  | case1 =>
      obtain ⟨fuel, rfl⟩ := Nat.exists_eq_add_of_lt hfuel
      simp [Cursor.collect, h.advanceKey_nil]
  | case2 n l ih =>
      cases fuel with
      | zero => cases hfuel
      | succ fuel =>
          obtain ⟨c', last, hkey, hcurrent, hkind, hfaces⟩ := h.advanceKey_cons
          have hle : (l.dropWhile fun a => a.kind == n.kind).length ≤ l.length :=
            (List.dropWhile_sublist _).length_le
          have hlt : l.length < fuel := by simpa using hfuel
          have hrest := ih hfaces (Nat.lt_of_le_of_lt hle hlt)
          simp only [Cursor.collect, hkey, hcurrent, hkind, hrest]

theorem keys_eq (m : AlternativeNames) : m.keys = kindsOf m.entries :=
  collect_advanceKey (Cursor.faces_start _) (Nat.lt_succ_self _)

theorem mem_kindsOf : k ∈ kindsOf l ↔ ∃ n ∈ l, n.kind = k := by
  fun_induction kindsOf l with
  | case1 => simp
  | case2 n l ih =>
      have hsplit : ∀ a, a ∈ l ↔ a ∈ l.takeWhile (fun a => a.kind == n.kind) ∨
          a ∈ l.dropWhile fun a => a.kind == n.kind := fun a => by
        rw [← List.mem_append, List.takeWhile_append_dropWhile]
      rw [List.mem_cons, ih]
      constructor
      · rintro (rfl | ⟨a, ha, hak⟩)
        · exact ⟨n, List.mem_cons_self, rfl⟩
        · exact ⟨a, List.mem_cons_of_mem _ ((hsplit a).mpr (.inr ha)), hak⟩
      · rintro ⟨a, ha, rfl⟩
        rcases List.mem_cons.mp ha with rfl | ha
        · exact .inl rfl
        · rcases (hsplit a).mp ha with hfirst | hlater
          · exact .inl (by simpa using List.mem_takeWhile_imp hfirst)
          · exact .inr ⟨a, hlater, rfl⟩

theorem IsSorted.isSplit_kind {n : AlternativeName} (h : IsSorted (n :: l)) :
    IsSplit (fun a => a.kind == n.kind) l := by
  obtain ⟨hn, hl⟩ := List.pairwise_cons.mp h
  refine List.Pairwise.imp_of_mem (fun {a b} ha _ hab hb => ?_) hl
  rw [beq_iff_eq, ← rank_inj] at hb ⊢
  have hna := hn a ha
  omega

/-- In a sorted list the names behind the first group are those of other kinds. -/
theorem IsSorted.mem_dropWhile {n a : AlternativeName} (h : IsSorted (n :: l)) :
    a ∈ l.dropWhile (fun a => a.kind == n.kind) ↔ a ∈ l ∧ a.kind ≠ n.kind := by
  rw [h.isSplit_kind.dropWhile_eq]
  simp

theorem IsSorted.kindsOf_ascending (h : IsSorted l) :
    (kindsOf l).Pairwise fun a b => a.rank < b.rank := by
  fun_induction kindsOf l with
  | case1 => exact .nil
  | case2 n l ih =>
      obtain ⟨hn, hl⟩ := List.pairwise_cons.mp h
      refine .cons ?_ (ih (hl.sublist (List.dropWhile_sublist _)))
      intro k hk
      obtain ⟨a, ha, rfl⟩ := mem_kindsOf.mp hk
      obtain ⟨ha, hne⟩ := h.mem_dropWhile.mp ha
      rw [ne_eq, ← rank_inj] at hne
      have hle := hn a ha
      omega

/-- The groups of a sorted list make it up. -/
theorem IsSorted.flatMap_kindsOf (h : IsSorted l) :
    ((kindsOf l).flatMap fun k => l.filter fun n => n.kind = k) = l := by
  fun_induction kindsOf l with
  | case1 => rfl
  | case2 n l ih =>
      have hrest := ih ((List.pairwise_cons.mp h).2.sublist (List.dropWhile_sublist _))
      have hother : ∀ k ∈ kindsOf (l.dropWhile fun a => a.kind == n.kind),
          ((n :: l).filter fun a => a.kind = k) =
            (l.dropWhile fun a => a.kind == n.kind).filter fun a => a.kind = k := by
        intro k hk
        obtain ⟨a, ha, rfl⟩ := mem_kindsOf.mp hk
        have hne := (h.mem_dropWhile.mp ha).2
        rw [h.isSplit_kind.dropWhile_eq, List.filter_filter,
          List.filter_cons_of_neg (by simpa using hne.symm)]
        refine List.filter_congr fun b _ => ?_
        by_cases hb : b.kind = a.kind <;> simp [hb, hne]
      have hfirst : ((n :: l).filter fun a => a.kind = n.kind) =
          n :: l.filter fun a => a.kind == n.kind := by
        rw [List.filter_cons_of_pos (by simp)]
        rfl
      rw [List.flatMap_cons, List.flatMap_congr hother, hrest, hfirst, List.cons_append,
        h.isSplit_kind.dropWhile_eq, h.isSplit_kind.filter_append]

/-! ## The multimap -/

/-- Names made of a list are the same names, stably sorted by kind. The walk over them meets all of
them, the walk over the values of a kind meets those of the names of that kind in their order, and
the walk over the kinds meets each kind that occurs once, in order, so that both together give the
names again. -/
theorem ofList_is_stable_multimap (names : List AlternativeName) :
    IsStableSort names (ofList names).entries ∧
    (ofList names).walk.Meets ((ofList names).entries.map .entry) ∧
    (∀ k,
      ((ofList names).valueWalk k).Meets
        (((names.filter fun n => n.kind = k).map (·.value)).map .value) ∧
      (ofList names).values k = (names.filter fun n => n.kind = k).map (·.value) ∧
      ((ofList names).contains k = true ↔ (names.filter fun n => n.kind = k).map (·.value) ≠ [])) ∧
    ((ofList names).keyWalk.Meets ((ofList names).keys.map .key) ∧
      (ofList names).keys.Pairwise (fun a b => a.rank < b.rank) ∧
      ∀ k, k ∈ (ofList names).keys ↔ ∃ n ∈ names, n.kind = k) ∧
    ((ofList names).keys.flatMap fun k => ((ofList names).values k).map (AlternativeName.mk k)) =
      (ofList names).entries := by
  have hsort := isStableSort_ofList names
  have hsorted := hsort.sorted
  have hgroup (k : NameKind) : (ofList names).group k = names.filter fun n => n.kind = k := by
    rw [hsorted.group_eq, hsort.stable]
  refine ⟨hsort, meets_entries (Cursor.faces_start _), fun k => ⟨?_, ?_, ?_⟩, ⟨?_, ?_, ?_⟩, ?_⟩
  · rw [List.map_map, ← hgroup]
    exact meets_values (Cursor.faces_start _)
  · rw [values, hgroup]
  · rw [contains, hgroup]
    simp
  · rw [keys_eq]
    exact meets_keys (Cursor.faces_start _)
  · rw [keys_eq]
    exact hsorted.kindsOf_ascending
  · intro k
    rw [keys_eq, mem_kindsOf]
    simp only [hsort.perm.mem_iff]
  · rw [keys_eq]
    have hmade (k : NameKind) : ((ofList names).values k).map (AlternativeName.mk k) =
        (ofList names).entries.filter fun n => n.kind = k := by
      rw [hsorted.values_eq, List.map_map]
      refine (List.map_congr_left fun n hn => ?_).trans (List.map_id _)
      obtain rfl : n.kind = k := by simpa using (List.mem_filter.mp hn).2
      rfl
    simp only [hmade]
    exact hsorted.flatMap_kindsOf

end NetKit.AlternativeNames
