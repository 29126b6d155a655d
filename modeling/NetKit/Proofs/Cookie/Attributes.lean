import NetKit.Proofs.Cookie.Lines

/-!
# Lines read attribute by attribute

One more attribute at the end of a line changes the cookie by this attribute alone, and blanks
around a line change nothing.
-/

namespace NetKit.SetCookie

open Text

variable {c : SetCookie} {line piece front back : List Char}

/-- The cookie of the pieces of a line. -/
def ofPieces (first : List Char) (pieces : List (List Char)) : Except Fault SetCookie :=
  match splitPair first with
  | (_, none) => .error .missingPair
  | (name, some value) =>
    if name.isEmpty then .error .emptyName
    else .ok (pieces.foldl readAttribute { name, value })

theorem parse_eq_ofPieces {first : List Char} {pieces : List (List Char)}
    (h : splitBy (· == ';') line = first :: pieces) : parse line = ofPieces first pieces := by
  rw [parse, h]
  rfl

/-! ## At the end -/

theorem ofPieces_append (first : List Char) (pieces : List (List Char)) (piece : List Char) :
    ofPieces first (pieces ++ [piece]) = (ofPieces first pieces).map (readAttribute · piece) := by
  rw [ofPieces, ofPieces]
  split
  · rfl
  · split
    · rfl
    · rw [List.foldl_append]
      rfl

theorem parse_append (h : ';' ∉ piece) (line : List Char) :
    parse (line ++ ';' :: piece) = (parse line).map (readAttribute · piece) := by
  obtain ⟨first, pieces, hline⟩ := List.exists_cons_of_ne_nil (splitBy_ne_nil (· == ';') line)
  have hmore : splitBy (· == ';') (line ++ ';' :: piece) = first :: (pieces ++ [piece]) := by
    rw [splitBy_append_self, hline, splitBy_of_not_mem h, List.cons_append]
  rw [parse_eq_ofPieces hmore, parse_eq_ofPieces hline, ofPieces_append]

/-! ## Blanks -/

theorem splitPair_of_not_mem (h : '=' ∉ line) : splitPair line = (trim line, none) := by
  have hnone : splitOnce (· == '=') line = none :=
    splitOnce_eq_none fun a ha => beq_false_of_ne fun he => h (he ▸ ha)
  rw [splitPair, hnone]

theorem not_mem_of_isBlank {mark : Char} (hmark : isBlank mark = false)
    (h : ∀ a ∈ line, isBlank a = true) : mark ∉ line := fun hmem => by
  cases hmark.symm.trans (h mark hmem)

theorem splitPair_front (h : ∀ a ∈ front, isBlank a = true) (cs : List Char) :
    splitPair (front ++ cs) = splitPair cs := by
  have hfront : '=' ∉ front := not_mem_of_isBlank (by decide) h
  by_cases hmem : '=' ∈ cs
  · obtain ⟨key, v, rfl, hkey⟩ := List.eq_append_cons_of_mem hmem
    rw [← List.append_assoc, splitPair_append (by simp [hfront, hkey]), splitPair_append hkey,
      trim_front h]
  · rw [splitPair_of_not_mem (by simp [hfront, hmem]), splitPair_of_not_mem hmem, trim_front h]

theorem splitPair_back (h : ∀ a ∈ back, isBlank a = true) (cs : List Char) :
    splitPair (cs ++ back) = splitPair cs := by
  have hback : '=' ∉ back := not_mem_of_isBlank (by decide) h
  by_cases hmem : '=' ∈ cs
  · obtain ⟨key, v, rfl, hkey⟩ := List.eq_append_cons_of_mem hmem
    rw [List.append_assoc, List.cons_append, splitPair_append hkey, splitPair_append hkey,
      trim_back h]
  · rw [splitPair_of_not_mem (by simp [hback, hmem]), splitPair_of_not_mem hmem, trim_back h]

theorem unsplit_of_isBlank (h : ∀ a ∈ line, isBlank a = true) : ∀ a ∈ line, (a == ';') = false :=
  fun a ha => beq_false_of_ne fun he => not_mem_of_isBlank (by decide) h (he ▸ ha)

theorem parse_front (h : ∀ a ∈ front, isBlank a = true) (line : List Char) :
    parse (front ++ line) = parse line := by
  obtain ⟨first, pieces, hline⟩ := List.exists_cons_of_ne_nil (splitBy_ne_nil (· == ';') line)
  have hfront := splitBy_front (unsplit_of_isBlank h) line
  rw [hline, List.modifyHead_cons] at hfront
  rw [parse_eq_ofPieces hfront, parse_eq_ofPieces hline, ofPieces, splitPair_front h, ofPieces]

theorem parse_back (h : ∀ a ∈ back, isBlank a = true) (line : List Char) :
    parse (line ++ back) = parse line := by
  obtain ⟨pieces, last, hline, hback⟩ := splitBy_back (unsplit_of_isBlank h) line
  cases pieces with
  | nil =>
    rw [parse_eq_ofPieces hback, parse_eq_ofPieces hline, ofPieces, splitPair_back h, ofPieces]
  | cons first pieces =>
    have hlast (c : SetCookie) : c.readAttribute (last ++ back) = c.readAttribute last := by
      rw [readAttribute, splitPair_back h, readAttribute]
    rw [List.cons_append] at hline hback
    rw [parse_eq_ofPieces hback, parse_eq_ofPieces hline, ofPieces_append, ofPieces_append]
    simp only [hlast]

theorem parse_trim (line : List Char) : parse (trim line) = parse line := by
  obtain ⟨front, back, hline, hends⟩ := trimBy_split isBlank line
  rw [List.forall_mem_append] at hends
  conv_rhs => rw [hline]
  rw [parse_back hends.2, parse_front hends.1, trim]

end NetKit.SetCookie
