import NetKit.Proofs.Handles.Edits
import NetKit.Proofs.Headers.Kept
import NetKit.Proofs.Headers.Lookups

/-!
# Changes of a header list

A change is made as a whole or not at all. It is made exactly when its field is valid and its index is
in the list, and what it makes of the list is a relation of its own. Replacing a name leaves the name
with one field, in the place of the first one that it had.
-/

namespace NetKit.Headers

open NetKit.Field

variable {h k : Headers} {f g old : Field} {fs gs before after : List Field} {n : Bytes} {i : Nat}
  {e : Edit}

/-! ## What a change asks for and what it makes -/

/-- The field is valid, and the index is in the list or, to insert, at its end. -/
def Edit.IsAllowed : Edit → Headers → Prop
  | .append f, _ => f.IsValid
  | .insert i f, h => f.IsValid ∧ i ≤ h.size
  | .replace i f, h => f.IsValid ∧ i < h.size
  | .replaceOrAppend f, _ => f.IsValid
  | .removeAt i, h => i < h.size
  | .removeAll _, _ => True
  | .clear, _ => True
  | .reserve _, _ => True

theorem isSome_change?_iff : (change? e h).isSome = true ↔ e.IsAllowed h := by
  cases e with
  | append f => simp [change?, append, Edit.IsAllowed, isSome_checked?_iff]
  | insert i f =>
      simp only [change?, insert, Edit.IsAllowed, size]
      split
      · simp; omega
      · simp [isSome_checked?_iff]; omega
  | replace i f =>
      simp only [change?, replace, Edit.IsAllowed, size]
      split
      · simp; omega
      · simp [isSome_checked?_iff]; omega
  | replaceOrAppend f => simp [change?, replaceOrAppend, Edit.IsAllowed, isSome_checked?_iff]
  | removeAll name => simp [change?, Edit.IsAllowed]
  | removeAt i => simp [change?, removeAt?, Edit.IsAllowed, size]
  | clear => simp [change?, Edit.IsAllowed]
  | reserve m => simp [change?, Edit.IsAllowed]

/-! ## Places in a list -/

/-- The first field of the name is looked for and given the value; of those behind it the ones with
another name are retained. -/
theorem replaceNamed_eq (g : Field) (fs : List Field) :
    replaceNamed g fs = (fs.findIdx? (·.name == g.name)).map fun i =>
      (fs.set i g).take (i + 1) ++ (fs.drop (i + 1)).filter (·.name != g.name) := by
  induction fs with
  | nil => rfl
  | cons x fs ih =>
      by_cases hx : x.name = g.name
      · simp [replaceNamed, List.findIdx?_cons, hx]
      · simp [replaceNamed, List.findIdx?_cons, hx, ih, Function.comp_def]

/-- The first field of the name, or none of them. -/
theorem replaceNamed_cases (g : Field) (fs : List Field) :
    (∃ before old after, fs = before ++ old :: after ∧ (∀ x ∈ before, x.name ≠ g.name) ∧
        old.name = g.name ∧
        replaceNamed g fs = some (before ++ g :: after.filter fun x => x.name != g.name)) ∨
      (∀ x ∈ fs, x.name ≠ g.name) ∧ replaceNamed g fs = none := by
  induction fs with
  | nil => exact .inr ⟨by simp, rfl⟩
  | cons x fs ih =>
      by_cases hx : x.name = g.name
      · exact .inl ⟨[], x, fs, rfl, by simp, hx, by simp [replaceNamed, hx]⟩
      · rcases ih with ⟨before, old, after, rfl, hbefore, hold, hreplaced⟩ | ⟨hnone, hkept⟩
        · refine .inl ⟨x :: before, old, after, rfl, ?_, hold, ?_⟩
          · simpa using ⟨hx, hbefore⟩
          · simp [replaceNamed, hx, hreplaced]
        · exact .inr ⟨by simpa using ⟨hx, hnone⟩, by simp [replaceNamed, hx, hkept]⟩

open NetKit.Handles

/-- No field has the name, letter case aside. -/
def Lacks (n : Bytes) (fs : List Field) : Prop := ∀ x ∈ fs, ¬ SameName x.name n

theorem Lacks.filter_named (h : Lacks n fs) : (fs.filter fun x => x.named n) = [] :=
  List.filter_eq_nil_iff.mpr fun x hx => mt named_iff.mp (h x hx)

theorem lacks_filter (n : Bytes) (fs : List Field) : Lacks n (fs.filter fun x => !x.named n) := by
  intro x hx hsame
  have hnot := (List.mem_filter.mp hx).2
  rw [named_iff.mpr hsame] at hnot
  cases hnot

/-- Among the fields of a list that can be read, a kept name is found as it stands. -/
theorem named_eq (hr : h.IsReachable) (hkept : f.IsKeptAs g) {x : Field} (hx : x ∈ h.fields) :
    x.named f.name = (x.name == g.name) := by
  rw [Bool.eq_iff_iff, named_iff, beq_iff_eq, hkept.name]
  exact (hr.allSafe x hx).sameName_iff

theorem lacks_of_ne (hr : h.IsReachable) (hkept : f.IsKeptAs g) (hsub : fs ⊆ h.fields)
    (hne : ∀ x ∈ fs, x.name ≠ g.name) : Lacks f.name fs := by
  intro x hx hsame
  rw [← named_iff, named_eq hr hkept (hsub hx), beq_iff_eq] at hsame
  exact hne x hx hsame

/-- A valid field is always taken. Where fields have its name, letter case aside, the first of them
is given its trimmed value and the later ones go; where none has, its kept form is added at the end.
So the name has that one field, and the fields of other names are as they were. -/
theorem replaceOrAppend_keeps_one (hr : h.IsReachable) (hf : f.IsValid) :
    ∃ g k, f.IsKeptAs g ∧ h.replaceOrAppend f = some k ∧
      ((∃ before old after, h.fields = before ++ old :: after ∧
          Lacks f.name before ∧ SameName old.name f.name ∧
          k.fields = before ++ { old with value := g.value } ::
            after.filter fun x => !x.named f.name) ∨
        Lacks f.name h.fields ∧ k.fields = h.fields ++ [g]) ∧
      (k.fields.filter fun x => x.named f.name) = [g] ∧ k.others f.name = h.others f.name := by
  obtain ⟨g, hg⟩ := hf.checked?
  have hkept := (checked?_eq_some_iff_kept.mp hg).2
  have hown : g.named f.name = true := named_checked? hg
  refine ⟨g, ⟨(replaceNamed g h.fields).getD (h.fields ++ [g])⟩, hkept, ?_, ?_⟩
  · rw [replaceOrAppend, hg, Option.map_some]
  rcases replaceNamed_cases g h.fields with
    ⟨before, old, after, hfields, hbefore, hold, hreplaced⟩ | ⟨hnone, hreplaced⟩
  · have hlacks : Lacks f.name before := by
      refine lacks_of_ne hr hkept (fun x hx => ?_) hbefore
      simp [hfields, hx]
    have hnamed : old.named f.name = true := by
      rw [named_eq hr hkept (by simp [hfields]), hold, beq_self_eq_true]
    have hput : ({ old with value := g.value } : Field) = g := by rw [hold]
    have hlater : (after.filter fun x => x.name != g.name) = after.filter fun x => !x.named f.name := by
      refine List.filter_congr fun x hx => ?_
      rw [named_eq hr hkept (by simp [hfields, hx]), bne]
    rw [hreplaced, Option.getD_some, hlater]
    refine ⟨.inl ⟨before, old, after, hfields, hlacks, named_iff.mp hnamed, by rw [hput]⟩, ?_, ?_⟩
    · simp [hlacks.filter_named, hown, (lacks_filter f.name after).filter_named]
    · simp [others, hfields, hown, hnamed]
  · have hlacks : Lacks f.name h.fields := lacks_of_ne hr hkept (List.Subset.refl _) hnone
    rw [hreplaced, Option.getD_none]
    refine ⟨.inr ⟨hlacks, rfl⟩, ?_, ?_⟩
    · simp [hlacks.filter_named, hown]
    · simp [others, hown]

/-- Fields `a: 1`, `b: 2` and `A: 3`, with `A: 4` in the place of those named `a`. -/
theorem replaceOrAppend_keeps_one_of_two :
    let h := Headers.ofFields [⟨[0x61], [0x31]⟩, ⟨[0x62], [0x32]⟩, ⟨[0x41], [0x33]⟩]
    let f : Field := ⟨[0x41], [0x20, 0x34]⟩
    h.IsReachable ∧ f.IsValid ∧ ∃ g k, f.IsKeptAs g ∧ h.replaceOrAppend f = some k ∧
      k.fields = [⟨[0x61], [0x34]⟩, ⟨[0x62], [0x32]⟩] ∧
      (k.fields.filter fun x => x.named f.name) = [g] := by
  intro h f
  have hr : h.IsReachable := (AllSafe.ofFields _).isReachable
  have hf : f.IsValid := isSome_checked?_iff.mp (by decide)
  obtain ⟨g, k, hkept, hk, -, hone, -⟩ := replaceOrAppend_keeps_one hr hf
  have hfields : h.replaceOrAppend f = some ⟨[⟨[0x61], [0x34]⟩, ⟨[0x62], [0x32]⟩]⟩ := by decide
  obtain rfl := Option.some.inj (hfields.symm.trans hk)
  exact ⟨hr, hf, g, _, hkept, hk, rfl, hone⟩

end NetKit.Headers
