import NetKit.Proofs.Handles.Copies

/-!
# What a change shows

A change is read through the handle that it was asked of and through no other. What else it shows is
whether the value was opened: a handle that shared its value is then alone, with a value of its own in
memory, even where the value is left as it was.
-/

namespace NetKit.Handles

variable {α ε : Type} {base : Nat} {s t : Handles α} {e : ε} {h k c : Nat} {a : α}

/-- Nothing that handles show has changed: neither what each reads, nor how many share it, nor how
many values are in memory. -/
structure Unseen (s t : Handles α) : Prop where
  reads : ∀ k, t.get? k = s.get? k
  refs : ∀ k, t.refs k = s.refs k
  live : t.live = s.live

theorem Unseen.refl (s : Handles α) : Unseen s s := ⟨fun _ => rfl, fun _ => rfl, rfl⟩

/-! ## What is counted when a value is replaced -/

/-- The cell of a handle that reads a value. -/
theorem Counted.cell_of_get? (hs : Counted base [] s) (ha : s.get? h = some a) :
    ∃ c x, s.cell? h = some c ∧ List.lookup c s.cells = some x ∧ s.refs h = x.count := by
  have hsome := hs.get?_isSome h
  rw [ha] at hsome
  obtain ⟨c, hc⟩ := Option.isSome_iff_exists.mp hsome.symm
  obtain ⟨x, hx, hv⟩ := hs.content hc
  exact ⟨c, x, hc, hx, by simp [refs, hv]⟩

theorem Counted.refs_pos (hs : Counted base [] s) (ha : s.get? h = some a) : 0 < s.refs h := by
  obtain ⟨c, x, _, hx, hrefs⟩ := hs.cell_of_get? ha
  rw [hrefs]
  exact hs.positive c x hx

/-- A value that is not shared is replaced where it stands. -/
theorem Counted.set_of_unshared (hs : Counted base [] s) (ha : s.get? h = some a)
    (hone : s.refs h = 1) (b : α) : (∀ k, (s.set h b).refs k = s.refs k) ∧ (s.set h b).live = s.live := by
  obtain ⟨c, x, hc, hx, hrefs⟩ := hs.cell_of_get? ha
  have hset : s.set h b = { s with cells := Keyed.put c { x with value := b } s.cells } := by
    simp [Handles.set, hc, hx, ← hrefs, hone]
  rw [hset]
  refine ⟨fun k => ?_, rfl⟩
  simp only [refs, content?, cell?]
  cases List.lookup k s.holds with
  | none => rfl
  | some d =>
      by_cases hd : d = c
      · simp [hd, hx]
      · simp [hd]

/-- A value that is shared is left to the other handles. -/
theorem Counted.set_of_shared (hs : Counted base [] s) (ha : s.get? h = some a)
    (hmany : 1 < s.refs h) (b : α) : (s.set h b).refs h = 1 ∧ (s.set h b).live = s.live + 1 := by
  obtain ⟨c, x, hc, hx, hrefs⟩ := hs.cell_of_get? ha
  have hnot : ¬ x.count ≤ 1 := by omega
  have hne : c ≠ s.fresh := Nat.ne_of_lt (hs.fresh c x hx)
  have hset : s.set h b =
      Handles.release { s.alloc b with holds := Keyed.put h s.fresh s.holds } c := by
    rw [cell?] at hc
    simp [Handles.set, hc, hx, hnot, Handles.insert, Handles.point, Handles.alloc, cell?]
  have hold : List.lookup c (s.alloc b).cells = some x := by
    simp [Handles.alloc, Keyed.lookup_cons_ite, hne, hx]
  have hfresh : List.lookup s.fresh (s.alloc b).cells = some { value := b } := by
    simp [Handles.alloc]
  rw [hset]
  simp only [Handles.release, hold, if_neg hnot]
  refine ⟨?_, rfl⟩
  simp [refs, content?, cell?, hne.symm, hfresh]

/-- What is read where one handle was given the value that it had. -/
theorem reads_of_same (ha : s.get? h = some a)
    (ht : ∀ k, t.get? k = if k = h then some a else s.get? k) (k : Nat) : t.get? k = s.get? k := by
  rw [ht k]
  split
  · rename_i hk
    rw [hk, ha]
  · rfl

theorem Counted.get?_set_same (hs : Counted base [] s) (ha : s.get? h = some a) (k : Nat) :
    (s.set h a).get? k = s.get? k := by
  refine reads_of_same ha (fun k => ?_) k
  rw [hs.get?_set h a k, ha, Option.map_some]

/-- Opening a value is seen exactly if the value is shared. -/
theorem Counted.unseen_set_iff (hs : Counted base [] s) (ha : s.get? h = some a) :
    Unseen s (s.set h a) ↔ ¬ 1 < s.refs h := by
  constructor
  · intro hunseen hmany
    obtain ⟨-, hlive⟩ := hs.set_of_shared ha hmany a
    have hsame := hunseen.live
    omega
  · intro hnot
    have hpos := hs.refs_pos ha
    obtain ⟨hrefs, hlive⟩ := hs.set_of_unshared ha (by omega) a
    exact ⟨hs.get?_set_same ha, hrefs, hlive⟩

/-! ## Changes of a value -/

variable [Editable α ε]

theorem result_of_refused (h : Editable.change? e a = none) : Editable.result e a = a := by
  simp [Editable.result, h]

theorem edit?_closed (ha : s.get? h = some a) (hclosed : Editable.opens e a = false) :
    s.edit? h e = some ((Editable.change? e a).isSome, s) := by
  simp [Handles.edit?, ha, hclosed]

/-- A change that leaves the value as it is can be told from no change at all exactly when it opens a
value that is shared. -/
theorem Counted.edit?_kept (hs : Counted base [] s) (ha : s.get? h = some a)
    (hkept : Editable.result e a = a) :
    ∃ t, s.edit? h e = some ((Editable.change? e a).isSome, t) ∧
      (∀ k, t.get? k = s.get? k) ∧
      (Unseen s t ↔ s.refs h = 1 ∨ Editable.opens e a = false) ∧
      (¬ Unseen s t → t.refs h = 1 ∧ t.live = s.live + 1) := by
  cases hopens : Editable.opens e a with
  | true =>
      have hpos := hs.refs_pos ha
      refine ⟨s.set h a, ?_, hs.get?_set_same ha, ?_, fun hseen => ?_⟩
      · simp [Handles.edit?, ha, hopens, hkept]
      · rw [hs.unseen_set_iff ha]
        simp only [Bool.true_eq_false, or_false]
        omega
      · have hmany : 1 < s.refs h := by
          by_contra hnot
          exact hseen ((hs.unseen_set_iff ha).mpr hnot)
        exact hs.set_of_shared ha hmany a
  | false =>
      refine ⟨s, edit?_closed ha hopens, fun _ => rfl, ?_, fun hseen => absurd (.refl s) hseen⟩
      exact ⟨fun _ => .inr rfl, fun _ => .refl s⟩

variable [DecidableEq α]

theorem Counted.edit? (hs : Counted base [] s) (ha : s.get? h = some a) (e : ε) :
    ∃ t, s.edit? h e = some ((Editable.change? e a).isSome, t) ∧
      ∀ k, t.get? k = if k = h then some (Editable.result e a) else s.get? k := by
  have hagrees : Agrees base s s.get? := ⟨hs, fun _ => rfl⟩
  have hreads := (hagrees.step (.edit h e)).2.reads
  simp only [Handles.step, Copies.step, Handles.edit?, ha, Option.map_some] at hreads ⊢
  refine ⟨_, rfl, fun k => ?_⟩
  rw [hreads k, Function.update_apply]

/-! ## Histories -/

/-- The handles after some operations, from none on. -/
def IsReached (s : Handles α) : Prop :=
  ∃ (base : Nat) (os : List (Op α ε)), (Op.run Handles.step { live := base } os).2 = s

theorem IsReached.counted (hs : s.IsReached) : ∃ base, Counted base [] s := by
  obtain ⟨base, os, rfl⟩ := hs
  exact ⟨base, ((Agrees.start base).run os).2.counted⟩

end NetKit.Handles
