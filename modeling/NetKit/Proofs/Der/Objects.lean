import NetKit.Der.Object
import NetKit.Proofs.Answers
import NetKit.Proofs.Der.Local

/-!
# Objects and the elements inside them

The items of a sequence are the elements that fill its content, each one read as an object. What has
a tag that is not universal is known by its octets, whatever the number of the tag.
-/

namespace NetKit.Der

open Answer

variable {bs rest : Bytes} {e : Element}

theorem anyElement_of_element (h : element bs = .ok (e, rest)) : anyElement bs = .ok (e, rest) := by
  rw [element_eq] at h
  obtain ⟨⟨header, after⟩, hheader, h⟩ := bind_eq_ok.mp h
  obtain ⟨n, hn, h⟩ := bind_eq_ok.mp h
  obtain ⟨⟨content, rest'⟩, htake, h⟩ := map_eq_ok.mp h
  cases h
  simp only [Header.definite] at hn
  rw [anyElement]
  refine bind_eq_ok.mpr ⟨_, hheader, ?_⟩
  split at hn
  · rename_i hlength
    cases hn
    simp only [hlength]
    exact bind_eq_ok.mpr ⟨_, htake, rfl⟩
  · cases hn

namespace Object

variable {o : Object} {es : List Element} {items : List Object} {fuel depth : Nat}

theorem whole_eq_ok_iff {n : Nat} : whole bs = .ok (o, n) ↔
    ∃ e rest, element bs = .ok (e, rest) ∧ ofElement maxDepth e = .ok o ∧ rest.length = n := by
  rw [whole]
  simp only [bind_eq_ok]
  constructor
  · rintro ⟨⟨e, rest⟩, helement, o', ho, h⟩
    cases h
    exact ⟨e, rest, helement, ho, rfl⟩
  · rintro ⟨e, rest, helement, ho, rfl⟩
    exact ⟨_, helement, o, ho, rfl⟩

theorem elements_of_element (h : element bs = .ok (e, rest)) :
    elements (fuel + 1) bs = (elements fuel rest).map (e :: ·) := by
  cases bs with
  | nil => cases h
  | cons b bs =>
    change (anyElement (b :: bs) >>= fun p => elements fuel p.2 >>= fun es => .ok (p.1 :: es)) = _
    rw [anyElement_of_element h]
    change (elements fuel rest >>= fun es => .ok (e :: es)) = _
    cases elements fuel rest <;> rfl

/-- What a universal sequence or set is read as. -/
theorem ofElement_sequence (hclass : e.header.tagClass = .universal) (htag : e.tag = Tag.sequence)
    (hconstructed : e.header.constructed = true) :
    ofElement (depth + 1) e = (elements e.content.length e.content >>= fun es =>
      es.mapM (ofElement depth) >>= fun items => .ok (.sequence items)) := by
  rw [ofElement, if_neg (not_not.mpr hclass), if_pos (.inl htag), if_pos hconstructed]
  simp only [if_pos htag]
  rfl

theorem of_ofElement_eq_sequence (h : ofElement (depth + 1) e = .ok (.sequence items)) :
    e.header.tagClass = .universal ∧ e.tag = Tag.sequence ∧ e.header.constructed = true := by
  rw [ofElement] at h
  split at h
  · cases h
  rename_i hclass
  split at h
  · split at h
    · rename_i hconstructed
      simp only [bind_eq_ok] at h
      obtain ⟨es, -, items', -, h⟩ := h
      split at h
      · rename_i htag
        exact ⟨not_not.mp hclass, htag, hconstructed⟩
      · cases h
    · cases h
  · split at h
    · split at h <;> cases h
    split at h
    · split at h <;> cases h
    split at h
    · cases h
    · split at h <;> cases h

/-- The items of a sequence are read from its elements one by one. -/
theorem ofElement_eq_sequence_iff : ofElement (depth + 1) e = .ok (.sequence items) ↔
    e.header.tagClass = .universal ∧ e.tag = Tag.sequence ∧ e.header.constructed = true ∧
      ∃ es, elements e.content.length e.content = .ok es ∧
        es.map (ofElement depth) = items.map .ok := by
  constructor
  · intro h
    obtain ⟨hclass, htag, hconstructed⟩ := of_ofElement_eq_sequence h
    rw [ofElement_sequence hclass htag hconstructed] at h
    simp only [bind_eq_ok, mapM_eq_ok_iff] at h
    obtain ⟨es, hes, items', hitems, h⟩ := h
    cases h
    exact ⟨hclass, htag, hconstructed, es, hes, hitems⟩
  · rintro ⟨hclass, htag, hconstructed, es, hes, hitems⟩
    rw [ofElement_sequence hclass htag hconstructed]
    exact bind_eq_ok.mpr ⟨es, hes, bind_eq_ok.mpr ⟨items, mapM_eq_ok_iff.mpr hitems, rfl⟩⟩

/-- The tag of a sequence stands for octets only outside the universal class. -/
theorem not_universal_of_octets {content : Bytes} (htag : e.tag = Tag.sequence)
    (h : ofElement depth e = .ok (.octets content)) : e.header.tagClass ≠ .universal := by
  intro hclass
  cases depth with
  | zero => cases h
  | succ depth =>
    cases hconstructed : e.header.constructed with
    | true =>
      rw [ofElement_sequence hclass htag hconstructed] at h
      obtain ⟨es, -, h⟩ := bind_eq_ok.mp h
      obtain ⟨items, -, h⟩ := bind_eq_ok.mp h
      cases h
    | false =>
      rw [ofElement, if_neg (not_not.mpr hclass), if_pos (.inl htag), hconstructed] at h
      cases h

end Object

end NetKit.Der
