import NetKit.Proofs.Pem.Encoded

/-!
# Blocks written one after the other

However many blocks are written, reading gives them back in order. Inside a block every line is as
long as a line may be, but for the last one.
-/

namespace NetKit.Pem

variable {cs : List Char} {ls : List (List Char)}

/-! ## Width -/

/-- Lines of one width, the last one maybe shorter, and none of them empty. -/
structure Wrapped (ls : List (List Char)) : Prop where
  full : ∀ l ∈ ls.dropLast, l.length = lineWidth
  fits : ∀ l ∈ ls, 0 < l.length ∧ l.length ≤ lineWidth

theorem Wrapped.nil : Wrapped [] := ⟨nofun, nofun⟩

/-- A line in front of others is full. -/
theorem Wrapped.cons {l : List Char} (hpos : 0 < l.length) (hle : l.length ≤ lineWidth)
    (hfull : ls ≠ [] → l.length = lineWidth) (h : Wrapped ls) : Wrapped (l :: ls) := by
  refine ⟨fun l' hl' => ?_, List.forall_mem_cons.mpr ⟨⟨hpos, hle⟩, h.fits⟩⟩
  cases ls with
  | nil => cases hl'
  | cons next ls =>
    rw [List.dropLast_cons_cons, List.mem_cons] at hl'
    rcases hl' with rfl | hl'
    · exact hfull (List.cons_ne_nil next ls)
    · exact h.full l' hl'

theorem chunks_nil (n : Nat) : chunks n [] = [] := by
  cases n <;> rfl

/-- A step for every character is more than enough. -/
theorem wrapped_chunks {n : Nat} (h : cs.length ≤ n) : Wrapped (chunks n cs) := by
  fun_induction chunks n cs with
  | case1 => exact .nil
  | case2 cs hne => exact absurd (List.length_eq_zero_iff.mp (Nat.le_zero.mp h)) hne
  | case3 n cs hne ih =>
    have hpos : 0 < cs.length := List.length_pos_iff.mpr hne
    have hwidth : lineWidth = 64 := rfl
    have hrest : Wrapped (chunks n (cs.drop lineWidth)) :=
      ih (by rw [List.length_drop]; omega)
    refine hrest.cons ?_ (List.length_take_le ..) fun hmore => ?_
    · rw [List.length_take]
      omega
    · -- what is left over is not empty, so the line before it was cut off at the width
      have hleft : cs.drop lineWidth ≠ [] := fun hnil => hmore (by rw [hnil, chunks_nil])
      have hlt : lineWidth < cs.length :=
        Nat.lt_of_not_le fun hle => hleft (List.drop_eq_nil_of_le hle)
      exact List.length_take_of_le (Nat.le_of_lt hlt)

theorem wrapped_innerLines (contents : Bytes) : Wrapped (innerLines contents) :=
  wrapped_chunks (Nat.le_refl _)

theorem flatten_innerLines (contents : Bytes) :
    (innerLines contents).flatten = Base64.encode contents :=
  flatten_chunks _ _

/-! ## Several blocks -/

/-- The text of some blocks, one after the other. -/
def encodeAll (bs : List Block) : Bytes := bs.flatMap fun b => Utf8.encode (encode b)

/-- The lines of the block that `encode` writes. -/
def writtenLines (b : Block) : List (List Char) :=
  beginLine b.label.toList :: (innerLines b.contents ++ [endLine b.label.toList])

theorem map_lineOf_framed (b : Block) (h : IsLabel b.label.toList) :
    (framed b h).lines.map lineOf = (writtenLines b).map some := by
  simp [Framed.lines, framed, writtenLines, lineOf_flatMap]

theorem encodeAll_eq_octets {bs : List Block} (h : ∀ b ∈ bs, IsLabel b.label.toList) :
    encodeAll bs = (bs.pmap framed h).flatMap Framed.octets := by
  induction bs with
  | nil => rfl
  | cons b bs ih =>
    rw [List.forall_mem_cons] at h
    rw [encodeAll, List.flatMap_cons, List.pmap_cons, List.flatMap_cons, octets_framed, ← ih h.2]
    rfl

theorem lines_encodeAll {bs : List Block} (h : ∀ b ∈ bs, IsLabel b.label.toList) :
    lines (encodeAll bs) = bs.flatMap fun b => (writtenLines b).map some := by
  rw [encodeAll_eq_octets h, Framed.lines_flatMap_octets]
  induction bs with
  | nil => rfl
  | cons b bs ih =>
    rw [List.forall_mem_cons] at h
    rw [List.pmap_cons, List.flatMap_cons, List.flatMap_cons, map_lineOf_framed, ih h.2]

theorem read_writtenLines {b : Block} (h : IsLabel b.label.toList) (rest : List Line) :
    read ((writtenLines b).map some ++ rest) = .ok b :: read rest := by
  rw [← map_lineOf_framed b h]
  exact Framed.read_of_block? (block?_framed b h)

theorem decode_encodeAll {bs : List Block} (h : ∀ b ∈ bs, IsLabel b.label.toList) :
    decode (encodeAll bs) = bs.map .ok := by
  rw [decode, lines_encodeAll h]
  induction bs with
  | nil => simp [read]
  | cons b bs ih =>
    rw [List.forall_mem_cons] at h
    rw [List.flatMap_cons, read_writtenLines h.1, ih h.2, List.map_cons]

/-- Octet strings written as blocks of one label, one after the other, are read back in order. The
text consists of the lines of the blocks; those inside a block make up its base 64 and have 64
characters each, except that the last one may have fewer. -/
theorem written_blocks_come_back {label : String} (h : IsLabel label.toList) (ds : List Bytes) :
    let text := ds.flatMap fun d => Utf8.encode (encode ⟨label, d⟩)
    decode text = ds.map (fun d => .ok ⟨label, d⟩) ∧
    lines text = ds.flatMap (fun d =>
      (beginLine label.toList :: (innerLines d ++ [endLine label.toList])).map some) ∧
    ∀ d, (innerLines d).flatten = Base64.encode d ∧
      (∀ l ∈ innerLines d, l.length ≤ 64) ∧ ∀ l ∈ (innerLines d).dropLast, l.length = 64 := by
  intro text
  have htext : text = encodeAll (ds.map (Block.mk label)) := by
    rw [encodeAll, List.flatMap_map]
  have hlabels : ∀ b ∈ ds.map (Block.mk label), IsLabel b.label.toList := by
    intro b hb
    obtain ⟨d, -, rfl⟩ := List.mem_map.mp hb
    exact h
  refine ⟨?_, ?_, fun d => ⟨flatten_innerLines d, fun l hl => ?_, (wrapped_innerLines d).full⟩⟩
  · rw [htext, decode_encodeAll hlabels, List.map_map]
    rfl
  · rw [htext, lines_encodeAll hlabels, List.flatMap_map]
    rfl
  · exact ((wrapped_innerLines d).fits l hl).2

/-- A block that fills its line exactly, and one whose last line is only filled up. -/
theorem written_blocks_come_back_at_full_line :
    IsLabel "TEST".toList ∧
      decode ([List.replicate 48 0, List.replicate 49 0].flatMap fun d =>
        Utf8.encode (encode ⟨"TEST", d⟩)) =
        [.ok ⟨"TEST", List.replicate 48 0⟩, .ok ⟨"TEST", List.replicate 49 0⟩] ∧
      (innerLines (List.replicate 48 0)).map List.length = [64] ∧
      (innerLines (List.replicate 49 0)).map List.length = [64, 4] := by
  have h : IsLabel "TEST".toList := ⟨by decide, by decide⟩
  exact ⟨h, (written_blocks_come_back h _).1, rfl, rfl⟩

end NetKit.Pem
