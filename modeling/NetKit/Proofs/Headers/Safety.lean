import NetKit.Headers
import NetKit.Proofs.Handles.Invariants
import NetKit.Proofs.Text.Trim

/-!
# Header fields that are safe to send

Whatever names and values are asked for, the fields of a list have token names in lower case and
values without control characters or outer blanks; and every list of such fields can be built.
-/

namespace NetKit

namespace Field

/-! ## Names and values -/

/-- RFC 9110: a digit, a letter or one of ``!#$%&'*+-.^_`|~``. -/
def IsTokenOctet (b : UInt8) : Prop :=
  (0x30 ≤ b ∧ b ≤ 0x39) ∨ (0x41 ≤ b ∧ b ≤ 0x5A) ∨ (0x61 ≤ b ∧ b ≤ 0x7A) ∨
    b ∈ [0x21, 0x23, 0x24, 0x25, 0x26, 0x27, 0x2A, 0x2B, 0x2D, 0x2E, 0x5E, 0x5F, 0x60, 0x7C, 0x7E]

/-- A tab, a space, a visible character or one beyond ASCII. -/
def IsTextOctet (b : UInt8) : Prop := b = 0x09 ∨ b = 0x20 ∨ (0x21 ≤ b ∧ b ≤ 0x7E) ∨ 0x80 ≤ b

structure IsSafe (f : Field) : Prop where
  name_ne_nil : f.name ≠ []
  name : ∀ b ∈ f.name, IsTokenOctet b ∧ ¬ (0x41 ≤ b ∧ b ≤ 0x5A)
  value : ∀ b ∈ f.value, IsTextOctet b
  start : ∀ b, f.value.head? = some b → b ≠ 0x20 ∧ b ≠ 0x09
  finish : ∀ b, f.value.getLast? = some b → b ≠ 0x20 ∧ b ≠ 0x09

theorem tokenMarks_eq : tokenMarks =
    [0x21, 0x23, 0x24, 0x25, 0x26, 0x27, 0x2A, 0x2B, 0x2D, 0x2E, 0x5E, 0x5F, 0x60, 0x7C, 0x7E] := by
  decide

theorem isTokenChar_iff {b : UInt8} : isTokenChar b = true ↔ IsTokenOctet b := by
  simp only [isTokenChar, isAlphanumeric, isUpper, tokenMarks_eq, IsTokenOctet, Bool.or_eq_true,
    Bool.and_eq_true, decide_eq_true_eq, List.contains_iff_mem]
  tauto

theorem isValueChar_iff {b : UInt8} : isValueChar b = true ↔ IsTextOctet b := by
  simp only [isValueChar, isBlank, IsTextOctet, Bool.or_eq_true, Bool.and_eq_true,
    decide_eq_true_eq, beq_iff_eq]
  tauto

theorem isBlank_eq_false_iff {b : UInt8} : isBlank b = false ↔ b ≠ 0x20 ∧ b ≠ 0x09 := by
  simp [isBlank]

theorem toLower_token {b : UInt8} (h : IsTokenOctet b) :
    IsTokenOctet (toLower b) ∧ ¬ (0x41 ≤ toLower b ∧ toLower b ≤ 0x5A) := by
  unfold toLower isUpper
  split
  · -- A capital letter is moved to the small ones, without a carry.
    rename_i hupper
    simp only [Bool.and_eq_true, decide_eq_true_eq, UInt8.le_iff_toNat_le] at hupper
    have hsmall : (b + 0x20).toNat = b.toNat + 0x20 := by
      rw [UInt8.toNat_add]
      exact Nat.mod_eq_of_lt (by simp at hupper ⊢; omega)
    simp only [IsTokenOctet, UInt8.le_iff_toNat_le, hsmall] at hupper ⊢
    simp at hupper ⊢
    omega
  · rename_i hother
    exact ⟨h, by simpa using hother⟩

theorem toLower_eq_self {b : UInt8} (h : ¬ (0x41 ≤ b ∧ b ≤ 0x5A)) : toLower b = b := by
  simp only [toLower, isUpper, Bool.and_eq_true, decide_eq_true_eq, if_neg h]

/-! ## The kept form of a field -/

theorem checked?_eq_some_iff {f g : Field} :
    f.checked? = some g ↔
      isToken f.name = true ∧ f.value.all isValueChar = true ∧
        ⟨f.name.map toLower, Text.trimBy isBlank f.value⟩ = g := by
  simp only [checked?, Option.ite_none_right_eq_some, Bool.and_eq_true, Option.some.injEq,
    and_assoc]

theorem IsSafe.of_checked? {f g : Field} (h : f.checked? = some g) : g.IsSafe := by
  obtain ⟨hname, hvalue, rfl⟩ := checked?_eq_some_iff.mp h
  simp only [isToken, Bool.and_eq_true, Bool.not_eq_true', List.isEmpty_eq_false_iff,
    List.all_eq_true] at hname hvalue
  exact {
    name_ne_nil := by simpa using hname.1
    name := by
      intro b hb
      obtain ⟨c, hc, rfl⟩ := List.mem_map.mp hb
      exact toLower_token (isTokenChar_iff.mp (hname.2 c hc))
    value := fun b hb => isValueChar_iff.mp (hvalue b ((Text.trimBy_sublist ..).subset hb))
    start := fun b hb => isBlank_eq_false_iff.mp (Text.not_of_head?_trimBy hb)
    finish := fun b hb => isBlank_eq_false_iff.mp (Text.not_of_getLast?_trimBy hb) }

theorem IsSafe.disjoint_controls {f : Field} (h : f.IsSafe) :
    f.value.Disjoint [0x00, 0x0A, 0x0D, 0x7F] := by
  intro b hb hcontrol
  have htext := h.value b hb
  simp only [List.mem_cons, List.not_mem_nil, or_false] at hcontrol
  rcases hcontrol with rfl | rfl | rfl | rfl <;> revert htext <;> unfold IsTextOctet <;> decide

theorem IsSafe.map_toLower_name {f : Field} (h : f.IsSafe) : f.name.map toLower = f.name := by
  rw [List.map_congr_left fun b hb => toLower_eq_self (h.name b hb).2, List.map_id']

theorem IsSafe.checked? {f : Field} (h : f.IsSafe) : f.checked? = some f := by
  have hvalue : Text.trimBy isBlank f.value = f.value :=
    Text.trimBy_eq_self (fun b hb => isBlank_eq_false_iff.mpr (h.start b hb))
      fun b hb => isBlank_eq_false_iff.mpr (h.finish b hb)
  refine checked?_eq_some_iff.mpr ⟨?_, ?_, ?_⟩
  · simp only [isToken, Bool.and_eq_true, Bool.not_eq_true', List.isEmpty_eq_false_iff,
      List.all_eq_true]
    exact ⟨h.name_ne_nil, fun b hb => isTokenChar_iff.mpr (h.name b hb).1⟩
  · exact List.all_eq_true.mpr fun b hb => isValueChar_iff.mpr (h.value b hb)
  · rw [h.map_toLower_name, hvalue]

end Field

namespace Headers

open Handles

/-! ## Changes -/

def AllSafe (h : Headers) : Prop := ∀ f ∈ h.fields, f.IsSafe

theorem mem_replaceNamed {f g : Field} {fs gs : List Field} (h : replaceNamed f fs = some gs)
    (hg : g ∈ gs) : g = f ∨ g ∈ fs := by
  induction fs generalizing gs with
  | nil => cases h
  | cons k fs ih =>
      simp only [replaceNamed] at h
      split at h
      · cases h
        rcases List.mem_cons.mp hg with rfl | hg
        · exact .inl rfl
        · exact .inr (List.mem_cons_of_mem k (List.mem_filter.mp hg).1)
      · obtain ⟨rest, hrest, rfl⟩ := Option.map_eq_some_iff.mp h
        rcases List.mem_cons.mp hg with rfl | hg
        · exact .inr List.mem_cons_self
        · exact (ih hrest hg).imp_right (List.mem_cons_of_mem k)

/-- A field of the changed list was there before or is the kept form of the one asked for. -/
theorem mem_change? {e : Edit} {h k : Headers} {f : Field} (hk : change? e h = some k)
    (hf : f ∈ k.fields) : f ∈ h.fields ∨ ∃ g : Field, g.checked? = some f := by
  cases e with
  | append g =>
      obtain ⟨g', hg, rfl⟩ := Option.map_eq_some_iff.mp hk
      rcases List.mem_append.mp hf with hf | hf
      · exact .inl hf
      · exact .inr ⟨g, List.mem_singleton.mp hf ▸ hg⟩
  | insert i g =>
      simp only [change?, insert, Option.ite_none_left_eq_some] at hk
      obtain ⟨g', hg, rfl⟩ := Option.map_eq_some_iff.mp hk.2
      rcases List.mem_append.mp hf with hf | hf
      · exact .inl (List.mem_of_mem_take hf)
      · rcases List.mem_cons.mp hf with rfl | hf
        · exact .inr ⟨g, hg⟩
        · exact .inl (List.mem_of_mem_drop hf)
  | replace i g =>
      simp only [change?, replace, Option.ite_none_left_eq_some] at hk
      obtain ⟨g', hg, rfl⟩ := Option.map_eq_some_iff.mp hk.2
      rcases List.mem_or_eq_of_mem_set hf with hf | rfl
      · exact .inl hf
      · exact .inr ⟨g, hg⟩
  | replaceOrAppend g =>
      obtain ⟨g', hg, rfl⟩ := Option.map_eq_some_iff.mp hk
      have hmem : f = g' ∨ f ∈ h.fields := by
        cases hr : replaceNamed g' h.fields with
        | none =>
            rw [hr] at hf
            simpa [or_comm] using hf
        | some gs =>
            rw [hr] at hf
            exact mem_replaceNamed hr hf
      rcases hmem with rfl | hf
      · exact .inr ⟨g, hg⟩
      · exact .inl hf
  | removeAll name =>
      cases hk
      exact .inl (List.mem_filter.mp hf).1
  | removeAt i =>
      simp only [change?, removeAt?, Option.ite_none_right_eq_some] at hk
      obtain ⟨_, hk⟩ := hk
      cases hk
      exact .inl (List.mem_of_mem_eraseIdx hf)
  | clear =>
      cases hk
      cases hf
  | reserve n =>
      cases hk
      exact .inl hf

theorem AllSafe.change? {e : Edit} {h k : Headers} (hs : h.AllSafe) (hk : change? e h = some k) :
    k.AllSafe := by
  intro f hf
  rcases mem_change? hk hf with hf | ⟨g, hg⟩
  · exact hs f hf
  · exact .of_checked? hg

theorem AllSafe.ofFields (fs : List Field) : (ofFields fs).AllSafe := by
  intro f hf
  obtain ⟨g, _, hg⟩ := List.mem_filterMap.mp hf
  exact .of_checked? hg

theorem ofFields_fields {h : Headers} (hs : h.AllSafe) : Headers.ofFields h.fields = h := by
  have hall : h.fields.filterMap Field.checked? = h.fields.filterMap some :=
    List.filterMap_congr fun f hf => (hs f hf).checked?
  rw [Headers.ofFields, hall, List.filterMap_some]

/-! ## Lists read through handles -/

/-- Read through some handle after operations that make new lists of whatever fields are given. -/
def IsReachable (h : Headers) : Prop :=
  ∃ (os : List (Op Headers Edit)) (k : Nat),
    (∀ i a, .construct i a ∈ os → ∃ fs, a = Headers.ofFields fs) ∧
    (Op.run Handles.step {} os).2.get? k = some h

theorem IsReachable.allSafe {h : Headers} (hr : h.IsReachable) : h.AllSafe := by
  obtain ⟨os, k, hos, hget⟩ := hr
  refine of_get?_run (P := AllSafe) (fun i a hi => ?_) (fun e a b ha hb => ?_) hget
  · obtain ⟨fs, rfl⟩ := hos i a hi
    exact .ofFields fs
  · exact ha.change? hb

theorem AllSafe.isReachable {h : Headers} (hs : h.AllSafe) : h.IsReachable := by
  refine ⟨[.construct 0 h], 0, fun i a hi => ?_, rfl⟩
  cases List.mem_singleton.mp hi
  exact ⟨h.fields, (ofFields_fields hs).symm⟩

/-- The lists that can be read are those whose fields are all safe: the name is a token in lower
case, and the value is text without blanks around it. So no value holds a line end or another
control character that could begin a field of its own. -/
theorem isReachable_iff_safe (h : Headers) :
    h.IsReachable ↔
      ∀ f ∈ h.fields, f.IsSafe ∧ f.value.Disjoint [0x00, 0x0A, 0x0D, 0x7F] := by
  constructor
  · intro hr f hf
    have hsafe := hr.allSafe f hf
    exact ⟨hsafe, hsafe.disjoint_controls⟩
  · intro hs
    exact AllSafe.isReachable fun f hf => (hs f hf).1

end Headers
end NetKit
