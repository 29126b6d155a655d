import NetKit.Proofs.Headers.Safety

/-!
# What is kept of the fields that are given

A list is made of the valid ones among the fields that are given, with their names in small letters
and their values without the blanks around them. What it keeps, it would keep just so again.
-/

namespace NetKit

namespace Field

variable {f g : Field}

/-! ## One field -/

/-- The name is a token, and the value is text. -/
structure IsValid (f : Field) : Prop where
  name_ne_nil : f.name ≠ []
  name : ∀ b ∈ f.name, IsTokenOctet b
  value : ∀ b ∈ f.value, IsTextOctet b

/-- The name is put in small letters; spaces and tabs are left out at the ends of the value, until it
neither begins nor ends with one. -/
structure IsKeptAs (f g : Field) : Prop where
  name : g.name = f.name.map toLower
  value : ∃ front back, f.value = front ++ g.value ++ back ∧ ∀ b ∈ front ++ back, b = 0x20 ∨ b = 0x09
  start : ∀ b, g.value.head? = some b → b ≠ 0x20 ∧ b ≠ 0x09
  finish : ∀ b, g.value.getLast? = some b → b ≠ 0x20 ∧ b ≠ 0x09

theorem isBlank_iff {b : UInt8} : isBlank b = true ↔ b = 0x20 ∨ b = 0x09 := by
  simp [isBlank]

theorem isToken_iff {name : Bytes} :
    isToken name = true ↔ name ≠ [] ∧ ∀ b ∈ name, IsTokenOctet b := by
  simp [isToken, isTokenChar_iff]

theorem isKeptAs_iff : f.IsKeptAs g ↔ ⟨f.name.map toLower, Text.trimBy isBlank f.value⟩ = g := by
  constructor
  · rintro ⟨hname, ⟨front, back, hvalue, hends⟩, hstart, hfinish⟩
    have htrim : Text.trimBy isBlank (front ++ g.value ++ back) = g.value :=
      Text.trimBy_of_split (fun b hb => isBlank_iff.mpr (hends b hb))
        (fun b hb => isBlank_eq_false_iff.mpr (hstart b hb))
        fun b hb => isBlank_eq_false_iff.mpr (hfinish b hb)
    rw [hvalue, htrim, ← hname]
  · rintro rfl
    obtain ⟨front, back, hvalue, hends⟩ := Text.trimBy_split isBlank f.value
    exact {
      name := rfl
      value := ⟨front, back, hvalue, fun b hb => isBlank_iff.mp (hends b hb)⟩
      start := fun b hb => isBlank_eq_false_iff.mp (Text.not_of_head?_trimBy hb)
      finish := fun b hb => isBlank_eq_false_iff.mp (Text.not_of_getLast?_trimBy hb) }

theorem checked?_eq_some_iff_kept : f.checked? = some g ↔ f.IsValid ∧ f.IsKeptAs g := by
  rw [checked?_eq_some_iff, isKeptAs_iff, isToken_iff, List.all_eq_true]
  simp only [isValueChar_iff]
  constructor
  · rintro ⟨⟨hne, hname⟩, hvalue, hg⟩
    exact ⟨⟨hne, hname, hvalue⟩, hg⟩
  · rintro ⟨⟨hne, hname, hvalue⟩, hg⟩
    exact ⟨⟨hne, hname⟩, hvalue, hg⟩

theorem IsValid.checked? (hf : f.IsValid) : ∃ g, f.checked? = some g :=
  ⟨_, checked?_eq_some_iff_kept.mpr ⟨hf, isKeptAs_iff.mpr rfl⟩⟩

theorem isSome_checked?_iff : f.checked?.isSome = true ↔ f.IsValid := by
  constructor
  · intro h
    obtain ⟨g, hg⟩ := Option.isSome_iff_exists.mp h
    exact (checked?_eq_some_iff_kept.mp hg).1
  · intro hf
    exact Option.isSome_iff_exists.mpr hf.checked?

theorem checked?_eq_none (hf : ¬ f.IsValid) : f.checked? = none := by
  rw [← Option.not_isSome_iff_eq_none, isSome_checked?_iff]
  exact hf

end Field

namespace Headers

open NetKit.Field

/-! ## All of them -/

/-- The kept forms of the valid fields, in their order. -/
inductive Keeps : List Field → List Field → Prop
  | nil : Keeps [] []
  | valid {f g : Field} {fs gs : List Field} :
      f.IsValid → f.IsKeptAs g → Keeps fs gs → Keeps (f :: fs) (g :: gs)
  | invalid {f : Field} {fs gs : List Field} :
      ¬ f.IsValid → Keeps fs gs → Keeps (f :: fs) gs

theorem Keeps.eq {fs gs : List Field} (h : Keeps fs gs) : (ofFields fs).fields = gs := by
  induction h with
  | nil => rfl
  | valid hf hg _ ih =>
      have hchecked := checked?_eq_some_iff_kept.mpr ⟨hf, hg⟩
      simpa [ofFields, hchecked] using ih
  | invalid hf _ ih => simpa [ofFields, checked?_eq_none hf] using ih

end Headers
end NetKit
