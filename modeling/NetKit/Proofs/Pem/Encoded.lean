import NetKit.Proofs.Pem.Framed
import NetKit.Proofs.Text.Trim

/-!
# Encoded blocks are framed

What `encode` writes is a framed block that holds what was encoded, for every label without dashes
and line feeds.
-/

namespace NetKit.Pem

open String (utf8EncodeChar)

variable {cs label : List Char}

/-! ## Labels -/

theorem label?_beginLine (h : '-' ∉ label) : label? (beginLine label) = some label := by
  have hdrop : (beginLine label).drop 11 = label ++ dashes := by
    simp [beginLine, dashes]
  have htake : (label ++ dashes).takeWhile (· != '-') = label := by
    rw [List.takeWhile_append_of_pos fun c hc => bne_iff_ne.mpr (ne_of_mem_of_not_mem hc h)]
    simp [dashes]
  have hoccurs : Text.occursIn dashes (label ++ dashes) = true :=
    Text.occursIn_iff.mpr (List.suffix_append label dashes).isInfix
  simp only [label?, hdrop, hoccurs, if_true, htake]

/-! ## Pieces -/

theorem flatten_chunks (n : Nat) (cs : List Char) : (chunks n cs).flatten = cs := by
  fun_induction chunks n cs with
  | case1 => rfl
  | case2 => simp
  | case3 cs n _ ih => rw [List.flatten_cons, ih, List.take_append_drop]

theorem isWritten_of_mem_chunks {n : Nat} {bs : Bytes} {l : List Char}
    (hl : l ∈ chunks n (Base64.encode bs)) {c : Char} (hc : c ∈ l) : Base64.IsWritten c := by
  have hmem : c ∈ (chunks n (Base64.encode bs)).flatten := List.mem_flatten.mpr ⟨l, hl, hc⟩
  rw [flatten_chunks] at hmem
  exact Base64.isWritten_of_mem_encode hmem

/-- Nothing written in base 64 is blank or a dash. -/
theorem not_isBlank_and_ne_dash {c : Char} (h : Base64.IsWritten c) :
    Text.isBlank c = false ∧ c ≠ '-' := by
  have hc := h.of_all (p := fun c => !Text.isBlank c && c != '-') (by decide) (by decide)
  simpa using hc

/-! ## Lines -/

theorem lineOf_flatMap (cs : List Char) : lineOf (cs.flatMap utf8EncodeChar) = some cs := by
  rw [lineOf, Utf8.decode?_flatMap, Option.map_some, String.toList_ofList]

theorem mapM_lineOf (ls : List (List Char)) :
    (ls.map (·.flatMap utf8EncodeChar)).mapM lineOf = some ls := by
  induction ls with
  | nil => rfl
  | cons l ls ih => simp [List.mapM_cons, lineOf_flatMap, ih]

theorem lineFeed_not_mem (h : '\n' ∉ cs) : lineFeed ∉ cs.flatMap utf8EncodeChar := by
  intro hmem
  obtain ⟨c, hc, hb⟩ := List.mem_flatMap.mp hmem
  have hten : c.toNat = 10 := Utf8.eq_of_mem_encodeChar hb (by decide)
  have heq : c = '\n' := by rw [← Char.ofNat_toNat c, hten]
  exact h (heq ▸ hc)

theorem not_endMark (h : '-' ∉ cs) : ¬ endMark <+: cs.flatMap utf8EncodeChar := by
  rw [← endsBlock_iff (lineOf_flatMap cs), endsBlock, List.isPrefixOf_iff_prefix]
  intro hbegins
  exact h (hbegins.subset (by simp [dashes]))

theorem ofLines_map (ls : List (List Char)) :
    ofLines (ls.map (·.flatMap utf8EncodeChar)) =
      (ls.flatMap (· ++ ['\n'])).flatMap utf8EncodeChar := by
  rw [ofLines, List.flatMap_map, List.flatMap_assoc]
  refine List.flatMap_congr fun l _ => ?_
  rw [List.flatMap_append]
  rfl

/-! ## The block -/

/-- Whether a label can be told from the dashes around it and from the end of its line. -/
def IsLabel (label : List Char) : Prop := '-' ∉ label ∧ '\n' ∉ label

/-- The lines of an encoded block inside. -/
def innerLines (contents : Bytes) : List (List Char) :=
  chunks (Base64.encode contents).length (Base64.encode contents)

/-- No blanks stand at the ends of the lines. -/
theorem flatMap_trim_innerLines (bs : Bytes) :
    (innerLines bs).flatMap (Text.dropWhileEnd Text.isBlank) = Base64.encode bs := by
  have hself : ∀ l ∈ innerLines bs, Text.dropWhileEnd Text.isBlank l = l := fun l hl =>
    Text.dropWhileEnd_eq_self fun c hc =>
      (not_isBlank_and_ne_dash (isWritten_of_mem_chunks hl (List.mem_of_getLast? hc))).1
  rw [List.flatMap, List.map_congr_left hself, List.map_id'' fun _ => rfl,
    innerLines, flatten_chunks]

/-- The block that `encode` writes. -/
def framed (b : Block) (h : IsLabel b.label.toList) : Framed where
  head := (beginLine b.label.toList).flatMap utf8EncodeChar
  inner := (innerLines b.contents).map (·.flatMap utf8EncodeChar)
  foot := (endLine b.label.toList).flatMap utf8EncodeChar
  begins := by
    rw [beginLine, List.append_assoc, List.flatMap_append]
    exact List.prefix_append ..
  goesOn := by
    intro l hl
    obtain ⟨cs, hcs, rfl⟩ := List.mem_map.mp hl
    exact not_endMark fun hmem => (not_isBlank_and_ne_dash (isWritten_of_mem_chunks hcs hmem)).2 rfl
  ends := by
    rw [endLine, List.append_assoc, List.flatMap_append]
    exact List.prefix_append ..
  single := by
    intro l hl
    simp only [List.mem_cons, List.mem_append, List.mem_map, List.not_mem_nil, or_false] at hl
    rcases hl with rfl | ⟨cs, hcs, rfl⟩ | rfl
    · exact lineFeed_not_mem (by simp [beginLine, dashes, h.2])
    · refine lineFeed_not_mem fun hmem => ?_
      have hblank := (not_isBlank_and_ne_dash (isWritten_of_mem_chunks hcs hmem)).1
      revert hblank
      decide
    · exact lineFeed_not_mem (by simp [endLine, dashes, h.2])

theorem octets_framed (b : Block) (h : IsLabel b.label.toList) :
    (framed b h).octets = Utf8.encode (encode b) := by
  have hlines : (framed b h).lines =
      (beginLine b.label.toList :: innerLines b.contents ++ [endLine b.label.toList]).map
        (·.flatMap utf8EncodeChar) := by
    simp [Framed.lines, framed]
  rw [Framed.octets, hlines, ofLines_map, encode, Utf8.encode_ofList]
  rfl

theorem block?_framed (b : Block) (h : IsLabel b.label.toList) : (framed b h).block? = some b := by
  simp only [Framed.block?, framed, lineOf_flatMap, mapM_lineOf, label?_beginLine h.1,
    flatMap_trim_innerLines, Base64.decode?_encode, Option.bind_eq_bind, Option.bind_some,
    Option.pure_def, String.ofList_toList]

theorem decode_encode (b : Block) (h : IsLabel b.label.toList) :
    decode (Utf8.encode (encode b)) = [.ok b] := by
  have hlines := Framed.lines_flatMap_octets [framed b h]
  rw [List.flatMap_singleton, List.flatMap_singleton, octets_framed] at hlines
  have hread : read ((framed b h).lines.map lineOf ++ []) = _ :=
    Framed.read_of_block? (block?_framed b h)
  rwa [List.append_nil, read, ← hlines] at hread

/-- A word stands in what is written for a block only if it stands in one of its lines. -/
theorem infix_encode_iff {word : List Char} (b : Block) (hne : word ≠ []) (h : '\n' ∉ word) :
    word <:+: (encode b).toList ↔ word <:+: beginLine b.label.toList ∨
      (∃ l ∈ innerLines b.contents, word <:+: l) ∨ word <:+: endLine b.label.toList := by
  have hencode : (encode b).toList = (beginLine b.label.toList :: innerLines b.contents ++
      [endLine b.label.toList]).flatMap (· ++ ['\n']) := by
    rw [encode, String.toList_ofList]
    rfl
  rw [hencode, Text.infix_flatMap_iff hne h]
  simp only [List.cons_append, List.exists_mem_cons_iff, List.mem_append, or_and_right, exists_or,
    List.mem_singleton, exists_eq_left]

end NetKit.Pem
