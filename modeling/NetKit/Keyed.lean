/-!
Values by number, in a list. A number is looked up at its first place.
-/
namespace NetKit.Keyed
variable {β : Type}

def erase (k : Nat) (l : List (Nat × β)) : List (Nat × β) := l.filter fun p => p.1 != k

/-- Puts a value in the place of what the number had. -/
def put (k : Nat) (b : β) (l : List (Nat × β)) : List (Nat × β) := (k, b) :: erase k l

theorem lookup_cons_ite (i : Nat) (p : Nat × β) (l : List (Nat × β)) :
    List.lookup i (p :: l) = if i = p.1 then some p.2 else List.lookup i l := by
  obtain ⟨k, b⟩ := p
  by_cases hi : i = k
  · simp [hi]
  · have hb : (i == k) = false := by simpa using hi
    simp [List.lookup_cons, hb, hi]

@[simp] theorem lookup_erase (i k : Nat) (l : List (Nat × β)) :
    List.lookup i (erase k l) = if i = k then none else List.lookup i l := by
  induction l with
  | nil => simp [erase]
  | cons p l ih =>
      by_cases hp : p.1 = k
      · have he : erase k (p :: l) = erase k l := by simp [erase, hp]
        rw [he, ih, lookup_cons_ite, hp]
        by_cases hi : i = k <;> simp [hi]
      · have he : erase k (p :: l) = p :: erase k l := by simp [erase, hp]
        rw [he, lookup_cons_ite, lookup_cons_ite, ih]
        by_cases hi : i = p.1 <;> simp_all

@[simp] theorem lookup_put (i k : Nat) (b : β) (l : List (Nat × β)) :
    List.lookup i (put k b l) = if i = k then some b else List.lookup i l := by
  rw [put, lookup_cons_ite, lookup_erase]
  by_cases hi : i = k <;> simp [hi]

theorem mem_keys_iff (k : Nat) (l : List (Nat × β)) :
    k ∈ l.map Prod.fst ↔ (List.lookup k l).isSome := by
  induction l with
  | nil => simp
  | cons p l ih =>
      rw [lookup_cons_ite, List.map_cons, List.mem_cons, ih]
      by_cases hk : k = p.1 <;> simp [hk]

theorem erase_of_lookup_eq_none {k : Nat} {l : List (Nat × β)} (h : List.lookup k l = none) :
    erase k l = l := by
  refine List.filter_eq_self.mpr ?_
  intro p hp
  have hk : k ∉ l.map Prod.fst := by simp [mem_keys_iff, h]
  have hne : p.1 ≠ k := fun he => hk (he ▸ List.mem_map_of_mem hp)
  simpa using hne

theorem mem_of_lookup {k : Nat} {b : β} {l : List (Nat × β)} (h : List.lookup k l = some b) :
    (k, b) ∈ l := by
  induction l with
  | nil => cases h
  | cons p l ih =>
      rw [lookup_cons_ite] at h
      split at h
      · rename_i hk
        cases h
        rw [hk]
        exact List.mem_cons_self
      · exact List.mem_cons_of_mem _ (ih h)

theorem lookup_eq_some_iff {k : Nat} {b : β} {l : List (Nat × β)} (hl : (l.map Prod.fst).Nodup) :
    List.lookup k l = some b ↔ (k, b) ∈ l := by
  refine ⟨mem_of_lookup, fun hb => ?_⟩
  induction l with
  | nil => cases hb
  | cons p l ih =>
      rw [List.map_cons, List.nodup_cons] at hl
      rw [lookup_cons_ite]
      rcases List.mem_cons.mp hb with rfl | hb
      · simp
      · have hne : k ≠ p.1 := fun he => hl.1 (he ▸ List.mem_map_of_mem hb)
        rw [if_neg hne]
        exact ih hl.2 hb

theorem keys_erase (k : Nat) (l : List (Nat × β)) :
    (erase k l).map Prod.fst = (l.map Prod.fst).filter (· != k) := by
  simp [erase, List.filter_map, Function.comp_def]

theorem nodup_keys_erase (k : Nat) {l : List (Nat × β)} (h : (l.map Prod.fst).Nodup) :
    ((erase k l).map Prod.fst).Nodup := by
  rw [keys_erase]
  exact h.sublist List.filter_sublist

theorem nodup_keys_put (k : Nat) (b : β) {l : List (Nat × β)} (h : (l.map Prod.fst).Nodup) :
    ((put k b l).map Prod.fst).Nodup := by
  rw [put, List.map_cons, List.nodup_cons]
  exact ⟨by simp [keys_erase], nodup_keys_erase k h⟩

theorem perm_cons_erase {k : Nat} {b : β} {l : List (Nat × β)} (hl : (l.map Prod.fst).Nodup)
    (h : List.lookup k l = some b) : l.Perm ((k, b) :: erase k l) := by
  induction l with
  | nil => cases h
  | cons p l ih =>
      obtain ⟨i, x⟩ := p
      rw [List.map_cons, List.nodup_cons] at hl
      by_cases hk : k = i
      · subst hk
        have hn : List.lookup k l = none :=
          Option.not_isSome_iff_eq_none.mp (mt (mem_keys_iff k l).mpr hl.1)
        have he : erase k ((k, x) :: l) = l := by
          simpa [erase] using erase_of_lookup_eq_none hn
        simp only [List.lookup_cons_self, Option.some.injEq] at h
        rw [he, h]
      · rw [lookup_cons_ite, if_neg hk] at h
        have he : erase k ((i, x) :: l) = (i, x) :: erase k l := by simp [erase, Ne.symm hk]
        rw [he]
        exact ((ih hl.2 h).cons (i, x)).trans (List.Perm.swap _ _ _)

theorem length_erase_of_lookup {k : Nat} {b : β} {l : List (Nat × β)}
    (hl : (l.map Prod.fst).Nodup) (h : List.lookup k l = some b) :
    (erase k l).length + 1 = l.length :=
  (perm_cons_erase hl h).length_eq.symm

end NetKit.Keyed
