import NetKit.Bytes

/-!
# Octets written over others

What stands where after a write, and what a reader gets from a position on.
-/

namespace NetKit.Bytes

/-- What stands at each place: the old octets before `p`, with zeros where there were none, then the
octets written, then the old ones again. -/
def Overwrites (old : Bytes) (p : Nat) (bs new : Bytes) : Prop :=
  ∀ i, new[i]? =
    if i < p then some (old[i]?.getD 0) else if i < p + bs.length then bs[i - p]? else old[i]?

theorem overwrites_overwrite (old : Bytes) (p : Nat) (bs : Bytes) :
    Overwrites old p bs (old.overwrite p bs) := by
  intro i
  have hhead : ((old ++ List.replicate (p - old.length) 0).take p).length = p := by
    simp only [List.length_take, List.length_append, List.length_replicate]
    omega
  rw [overwrite, List.append_assoc]
  by_cases hi : i < p
  · rw [if_pos hi, List.getElem?_append_left (by omega), List.getElem?_take_of_lt hi]
    by_cases hold : i < old.length
    · rw [List.getElem?_append_left hold, List.getElem?_eq_getElem hold, Option.getD_some]
    · rw [List.getElem?_append_right (by omega), List.getElem?_replicate_of_lt (by omega),
        List.getElem?_eq_none (by omega), Option.getD_none]
  · rw [if_neg hi, List.getElem?_append_right (by omega), hhead]
    by_cases hbs : i < p + bs.length
    · rw [if_pos hbs, List.getElem?_append_left (by omega)]
    · rw [if_neg hbs, List.getElem?_append_right (by omega), List.getElem?_drop]
      congr 1
      omega

/-- There is one way to write over octets. -/
theorem Overwrites.eq_overwrite {old bs new : Bytes} {p : Nat} (h : Overwrites old p bs new) :
    new = old.overwrite p bs :=
  List.ext_getElem? fun i => (h i).trans (overwrites_overwrite old p bs i).symm

theorem extract_min (bs : Bytes) (p n : Nat) :
    bs.extract (min p bs.length) (min (p + n) bs.length) = (bs.drop p).take n := by
  rw [List.extract_eq_take_drop]
  by_cases hp : p ≤ bs.length
  · rw [Nat.min_eq_left hp, List.take_eq_take_iff, List.length_drop]
    omega
  · rw [List.drop_eq_nil_of_le (by omega), List.drop_eq_nil_of_le (by omega)]
    simp

theorem length_overwrite (old : Bytes) (p : Nat) (bs : Bytes) :
    (old.overwrite p bs).length = max old.length (p + bs.length) := by
  simp only [overwrite, List.length_append, List.length_take, List.length_drop,
    List.length_replicate]
  omega

theorem overwrite_nil {old : Bytes} {p : Nat} (h : p ≤ old.length) : old.overwrite p [] = old := by
  simp [overwrite, Nat.sub_eq_zero_of_le h]

theorem overwrite_length (old bs : Bytes) : old.overwrite old.length bs = old ++ bs := by
  simp [overwrite]

/-- Octets are written behind the old ones if they are written at the end, or if there are none and
no gap is filled. -/
theorem overwrite_eq_append_iff {old bs : Bytes} {p : Nat} :
    old.overwrite p bs = old ++ bs ↔ p = old.length ∨ bs = [] ∧ p ≤ old.length := by
  constructor
  · intro h
    have hlength := congrArg List.length h
    rw [length_overwrite, List.length_append] at hlength
    rw [← List.length_eq_zero_iff]
    omega
  · rintro (rfl | ⟨rfl, hp⟩)
    · exact overwrite_length old bs
    · rw [overwrite_nil hp, List.append_nil]

end NetKit.Bytes
