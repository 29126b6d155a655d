import Mathlib.Data.List.Forall2

/-!
# Answers that are not failures

What a step of an `Except` computation was, when the computation has an answer.
-/

namespace NetKit.Answer

variable {ε ε' α β γ : Type}

theorem bind_eq_ok {r : Except ε α} {g : α → Except ε β} {b : β} :
    (r >>= g) = .ok b ↔ ∃ a, r = .ok a ∧ g a = .ok b := by
  cases r <;> simp [bind, Except.bind]

theorem map_eq_ok {r : Except ε α} {g : α → β} {b : β} :
    r.map g = .ok b ↔ ∃ a, r = .ok a ∧ g a = b := by
  cases r <;> simp [Except.map]

theorem fmap_eq_map (g : α → β) (r : Except ε α) : g <$> r = r.map g := rfl

theorem exists_map_eq_ok {r : Except ε α} {g : α → β} :
    (∃ b, r.map g = .ok b) ↔ ∃ a, r = .ok a := by
  cases r <;> simp [Except.map]

theorem exists_error_iff {r : Except ε α} : (∃ e, r = .error e) ↔ ¬ ∃ a, r = .ok a := by
  cases r <;> simp

theorem mapError_eq_ok {r : Except ε α} {g : ε → ε'} {a : α} :
    r.mapError g = .ok a ↔ r = .ok a := by
  cases r with
  | error e => constructor <;> intro h <;> cases h
  | ok b =>
    constructor <;> intro h <;> cases h
    · rfl
    · rfl

/-! ## Lists of answers -/

theorem mapM_eq_ok_iff {g : α → Except ε β} {as : List α} {bs : List β} :
    as.mapM g = .ok bs ↔ as.map g = bs.map .ok := by
  induction as generalizing bs with
  | nil =>
    rw [List.mapM_nil, List.map_nil, List.nil_eq, List.map_eq_nil_iff]
    exact ⟨fun h => (Except.ok.inj h).symm, fun h => h ▸ rfl⟩
  | cons a as ih =>
    simp only [List.mapM_cons, bind_eq_ok, ih]
    constructor
    · rintro ⟨b, hb, bs, hbs, h⟩
      cases h
      rw [List.map_cons, hb, hbs, List.map_cons]
    · intro h
      cases bs with
      | nil => cases h
      | cons b bs =>
        obtain ⟨hb, hbs⟩ := List.cons.inj h
        exact ⟨b, hb, bs, hbs, rfl⟩

theorem exists_of_mem_mapM {g : α → Except ε β} {as : List α} {bs : List β}
    (h : as.mapM g = .ok bs) {b : β} (hb : b ∈ bs) : ∃ a ∈ as, g a = .ok b := by
  have hmem : Except.ok b ∈ as.map g := mapM_eq_ok_iff.mp h ▸ List.mem_map_of_mem hb
  exact List.mem_map.mp hmem

theorem mapM_eq_some_iff {g : α → Option β} {as : List α} {bs : List β} :
    as.mapM g = some bs ↔ as.map g = bs.map some := by
  induction as generalizing bs with
  | nil => cases bs <;> simp
  | cons a as ih =>
    cases hg : g a with
    | none => cases bs <;> simp [hg]
    | some b =>
      cases bs with
      | nil => simp [hg, Option.bind_eq_some_iff]
      | cons c bs => simpa [hg, Option.bind_eq_some_iff, ih] using and_comm

theorem forall₂_of_mapM {g : α → Option β} {as : List α} {bs : List β}
    (h : as.mapM g = some bs) : List.Forall₂ (fun a b => g a = some b) as bs := by
  rwa [mapM_eq_some_iff, ← List.forall₂_eq_eq_eq, List.forall₂_map_left_iff,
    List.forall₂_map_right_iff] at h

theorem map_eq_of_mapM {g : α → Option β} {l : β → γ} {k : α → γ} {as : List α} {bs : List β}
    (hg : ∀ a b, g a = some b → k a = l b) (h : as.mapM g = some bs) : as.map k = bs.map l := by
  rw [← List.forall₂_eq_eq_eq, List.forall₂_map_left_iff, List.forall₂_map_right_iff]
  exact (forall₂_of_mapM h).imp hg

theorem mapM_congr {g : α → Option β} {k : γ → Option β} {as : List α} {cs : List γ}
    (h : List.Forall₂ (fun a c => g a = k c) as cs) : as.mapM g = cs.mapM k := by
  induction h with
  | nil => rfl
  | cons hac _ ih => rw [List.mapM_cons, List.mapM_cons, hac, ih]

theorem mapM_eq_none_iff {g : α → Option β} {as : List α} :
    as.mapM g = none ↔ ∃ a ∈ as, g a = none := by
  induction as with
  | nil => simp
  | cons a as ih =>
    cases hg : g a with
    | none => simp [hg]
    | some b =>
      have hrest : (a :: as).mapM g = none ↔ as.mapM g = none := by
        cases hcs : as.mapM g <;> simp [hg, hcs]
      rw [hrest, ih]
      simp [hg]

theorem mem_iff_of_mapM {g : α → Option β} {as : List α} {bs : List β} {b : β}
    (h : as.mapM g = some bs) : b ∈ bs ↔ ∃ a ∈ as, g a = some b := by
  have hmem : some b ∈ as.map g ↔ some b ∈ bs.map some := by rw [mapM_eq_some_iff.mp h]
  simpa [eq_comm] using hmem.symm

end NetKit.Answer
