import Mathlib.Data.List.Forall2
import NetKit.Proofs.Headers.Safety

/-!
# The values of a name

All ways of looking a name up agree on one list of values, whatever the case of its letters. A field
is added at the end of that list, and all of the list can be removed; the fields of other names stay
as they are.
-/

namespace NetKit

namespace Field

variable {f : Field} {a b : UInt8} {m n : Bytes}

/-! ## Names, letter case aside -/

/-- The same octet, or a capital letter and its small one. -/
def SameLetter (a b : UInt8) : Prop :=
  a = b ∨ ((0x41 ≤ a ∧ a ≤ 0x5A) ∧ b = a + 0x20) ∨ ((0x41 ≤ b ∧ b ≤ 0x5A) ∧ a = b + 0x20)

def SameName : Bytes → Bytes → Prop := List.Forall₂ SameLetter

theorem toLower_eq_iff : toLower a = toLower b ↔ SameLetter a b := by
  have ha := a.toNat_lt
  have hb := b.toNat_lt
  simp only [toLower, isUpper, SameLetter, Bool.and_eq_true, decide_eq_true_eq,
    UInt8.le_iff_toNat_le, ← UInt8.toNat_inj]
  split <;> split <;> simp_all [UInt8.toNat_add] <;> omega

theorem map_toLower_eq_iff : m.map toLower = n.map toLower ↔ SameName m n := by
  rw [← List.forall₂_eq_eq_eq, List.forall₂_map_left_iff, List.forall₂_map_right_iff, SameName]
  simp only [toLower_eq_iff]

theorem named_iff : f.named n = true ↔ SameName f.name n := by
  rw [named, beq_iff_eq, map_toLower_eq_iff]

theorem not_named_of_not_sameName (hm : ¬ SameName m n) (hf : f.named m = true) :
    f.named n = false := by
  rw [named, beq_iff_eq] at hf
  rw [named, beq_eq_false_iff_ne, hf]
  exact mt map_toLower_eq_iff.mp hm

theorem IsSafe.sameName_iff (h : f.IsSafe) : SameName f.name n ↔ f.name = n.map toLower := by
  rw [← map_toLower_eq_iff, h.map_toLower_name]

end Field

namespace Headers

open NetKit.Field

variable {h k : Headers} {f g : Field} {fs : List Field} {m n : Bytes}

/-! ## The list of values -/

/-- The values of the fields of a name, in the order of the fields. -/
inductive Lists (n : Bytes) : List Field → List Bytes → Prop
  | nil : Lists n [] []
  | named {f : Field} {fs : List Field} {vs : List Bytes} :
      SameName f.name n → Lists n fs vs → Lists n (f :: fs) (f.value :: vs)
  | other {f : Field} {fs : List Field} {vs : List Bytes} :
      ¬ SameName f.name n → Lists n fs vs → Lists n (f :: fs) vs

theorem lists_filter (fs : List Field) (n : Bytes) :
    Lists n fs ((fs.filter fun f => f.named n).map (·.value)) := by
  induction fs with
  | nil => exact .nil
  | cons f fs ih =>
    by_cases hf : f.named n = true
    · rw [List.filter_cons, if_pos hf]
      exact .named (named_iff.mp hf) ih
    · rw [List.filter_cons, if_neg hf]
      exact .other (mt named_iff.mpr hf) ih

theorem contains_iff : h.contains n = true ↔ h.values n ≠ [] := by
  simp [contains, values]

theorem value?_eq_head? : h.value? n = (h.values n).head? := by
  rw [value?, values, List.head?_map, List.head?_filter]

/-! ## Adding and removing -/

/-- The fields of other names. -/
def others (h : Headers) (n : Bytes) : List Field := h.fields.filter fun f => !f.named n

theorem values_eq_of_others (hm : ¬ SameName m n) :
    h.values m = ((h.others n).filter fun f => f.named m).map (·.value) := by
  rw [values, others, List.filter_filter]
  refine congrArg (List.map _) (List.filter_congr fun f _ => ?_)
  cases hf : f.named m with
  | false => rfl
  | true => rw [not_named_of_not_sameName hm hf]; rfl

theorem append_eq_some_iff : h.append f = some k ↔ ∃ g, f.checked? = some g ∧ ⟨h.fields ++ [g]⟩ = k :=
  Option.map_eq_some_iff

theorem named_checked? (hg : f.checked? = some g) : g.named f.name = true := by
  rw [named, beq_iff_eq, (IsSafe.of_checked? hg).map_toLower_name]
  obtain ⟨-, -, rfl⟩ := checked?_eq_some_iff.mp hg
  rfl

theorem values_append (hk : h.append f = some k) :
    k.values f.name = h.values f.name ++ [Text.trimBy isBlank f.value] := by
  obtain ⟨g, hg, rfl⟩ := append_eq_some_iff.mp hk
  rw [values, List.filter_append, List.map_append, List.filter_singleton, named_checked? hg]
  obtain ⟨-, -, rfl⟩ := checked?_eq_some_iff.mp hg
  rfl

theorem others_append (hk : h.append f = some k) : k.others f.name = h.others f.name := by
  obtain ⟨g, hg, rfl⟩ := append_eq_some_iff.mp hk
  simp [others, named_checked? hg]

theorem others_removeAll (h : Headers) (n : Bytes) : (h.removeAll n).others n = h.others n := by
  simp [others, removeAll]

theorem values_removeAll (h : Headers) (n : Bytes) : (h.removeAll n).values n = [] := by
  simp [values, removeAll]

/-- In a list that can be read, a name has the values of the fields that are named so, letter case
aside, and these are the fields that keep the name in small letters. All ways of looking it up tell
of these values. Adding a field puts its trimmed value behind them and removing the name leaves
none; both leave the fields of other names as they are, in their order. -/
theorem lookups_agree (hr : h.IsReachable) (n : Bytes) :
    (Lists n h.fields (h.values n) ∧
      ∀ f ∈ h.fields, SameName f.name n ↔ f.name = n.map toLower) ∧
    ((h.contains n = true ↔ h.values n ≠ []) ∧ h.value? n = (h.values n).head? ∧
      h.combined n = List.intercalate [0x2C, 0x20] (h.values n)) ∧
    (∀ v k, h.append ⟨n, v⟩ = some k →
      k.values n = h.values n ++ [Text.trimBy isBlank v] ∧ k.others n = h.others n ∧
        ∀ m, ¬ SameName m n → k.values m = h.values m) ∧
    (h.removeAll n).values n = [] ∧ (h.removeAll n).fields = h.others n ∧
      ∀ m, ¬ SameName m n → (h.removeAll n).values m = h.values m := by
  refine ⟨⟨lists_filter h.fields n, fun f hf => (hr.allSafe f hf).sameName_iff⟩,
    ⟨contains_iff, value?_eq_head?, rfl⟩, fun v k hk => ⟨values_append hk, others_append hk, ?_⟩,
    values_removeAll h n, rfl, fun m hm => ?_⟩
  · intro m hm
    rw [values_eq_of_others hm, others_append hk, ← values_eq_of_others hm]
  · rw [values_eq_of_others hm, others_removeAll, ← values_eq_of_others hm]

/-- Fields `a: 1`, `b: 2` and `A: 3`, asked for `A`. -/
theorem lookups_agree_on_two_values :
    let h := Headers.ofFields [⟨[0x61], [0x31]⟩, ⟨[0x62], [0x32]⟩, ⟨[0x41], [0x33]⟩]
    h.IsReachable ∧ Lists [0x41] h.fields [[0x31], [0x33]] ∧
      h.combined [0x41] = [0x31, 0x2C, 0x20, 0x33] ∧
      ∃ k, h.append ⟨[0x41], [0x20, 0x34]⟩ = some k ∧ k.values [0x41] = [[0x31], [0x33], [0x34]] := by
  intro h
  have hr : h.IsReachable := (AllSafe.ofFields _).isReachable
  obtain ⟨⟨hlists, -⟩, ⟨-, -, hcombined⟩, happend, -⟩ := lookups_agree hr [0x41]
  have hvalues : h.values [0x41] = [[0x31], [0x33]] := by decide
  rw [hvalues] at hlists hcombined
  have hk : h.append ⟨[0x41], [0x20, 0x34]⟩ = some ⟨h.fields ++ [⟨[0x61], [0x34]⟩]⟩ := by decide
  obtain ⟨hadded, -⟩ := happend _ _ hk
  rw [hvalues] at hadded
  exact ⟨hr, hlists, hcombined, _, hk, hadded⟩

end Headers
end NetKit
