import NetKit.Pem
import NetKit.Proofs.Text.Base64
import NetKit.Proofs.Text.Pieces
import NetKit.Proofs.Text.Utf8

/-!
# Texts that are blocks one after the other

A framed block is a line that begins a block, lines that do not end it, and the first line that
does. Reading takes such a block off whole, whatever follows it, unless it is malformed.
-/

namespace NetKit.Pem

open String (utf8EncodeChar)

variable {l : Bytes} {ls : List Bytes} {t : List Char} {ts : List (List Char)} {b : Block}
  {rest : List Line}

/-! ## Lines -/

def lineFeed : UInt8 := 0x0A

/-- Lines, each ended by a line feed. -/
def ofLines (ls : List Bytes) : Bytes := ls.flatMap (· ++ [lineFeed])

/-- What a line says, if it is text. -/
def lineOf (l : Bytes) : Line := (Utf8.decode? l).map String.toList

theorem splitBy_line (h : lineFeed ∉ l) (bs : Bytes) :
    Text.splitBy (· == 0x0A) (l ++ lineFeed :: bs) = l :: Text.splitBy (· == 0x0A) bs :=
  Text.splitBy_append h bs

theorem splitBy_ofLines (h : ∀ l ∈ ls, lineFeed ∉ l) :
    Text.splitBy (· == 0x0A) (ofLines ls) = ls ++ [[]] := by
  induction ls with
  | nil => rfl
  | cons l ls ih =>
    rw [List.forall_mem_cons] at h
    rw [ofLines, List.flatMap_cons, List.append_assoc, List.singleton_append, splitBy_line h.1]
    exact congrArg _ (ih h.2)

theorem lines_ofLines (h : ∀ l ∈ ls, lineFeed ∉ l) : lines (ofLines ls) = ls.map lineOf := by
  simp only [lines, splitBy_ofLines h]
  simp [lineOf]

/-! ## Framed blocks -/

def beginMark : Bytes := (dashes ++ "BEGIN ".toList).flatMap utf8EncodeChar

def endMark : Bytes := (dashes ++ "END ".toList).flatMap utf8EncodeChar

theorem startsBlock_iff (h : lineOf l = some t) : startsBlock t = true ↔ beginMark <+: l := by
  obtain ⟨s, hs, rfl⟩ := Option.map_eq_some_iff.mp h
  rw [beginMark, Utf8.prefix_iff hs, startsBlock, List.isPrefixOf_iff_prefix]

theorem endsBlock_iff (h : lineOf l = some t) : endsBlock t = true ↔ endMark <+: l := by
  obtain ⟨s, hs, rfl⟩ := Option.map_eq_some_iff.mp h
  rw [endMark, Utf8.prefix_iff hs, endsBlock, List.isPrefixOf_iff_prefix]

/-- A block as it stands in a text: the line that begins it, the lines inside, and the line that
ends it. Nothing is asked of the label, of the lines inside or of their being text. -/
structure Framed where
  head : Bytes
  inner : List Bytes
  foot : Bytes
  begins : beginMark <+: head
  goesOn : ∀ l ∈ inner, ¬ endMark <+: l
  ends : endMark <+: foot
  single : ∀ l ∈ head :: (inner ++ [foot]), lineFeed ∉ l

namespace Framed

variable {f : Framed}

def lines (f : Framed) : List Bytes := f.head :: (f.inner ++ [f.foot])

def octets (f : Framed) : Bytes := ofLines f.lines

/-- What a framed block holds, unless it is malformed: its lines are text, five dashes close its
label, and its lines hold base 64. -/
def block? (f : Framed) : Option Block := do
  let label ← label? (← lineOf f.head)
  let inner ← f.inner.mapM lineOf
  let _ ← lineOf f.foot
  let contents ← Base64.decode? (inner.flatMap (Text.dropWhileEnd Text.isBlank))
  return ⟨String.ofList label, contents⟩

theorem lines_flatMap_octets (fs : List Framed) :
    Pem.lines (fs.flatMap octets) = fs.flatMap fun f => f.lines.map lineOf := by
  have hoctets : fs.flatMap octets = ofLines (fs.flatMap lines) := by
    simp only [ofLines, List.flatMap_assoc]
    rfl
  rw [hoctets, lines_ofLines, List.map_flatMap]
  intro l hl
  obtain ⟨f, -, hf⟩ := List.mem_flatMap.mp hl
  exact f.single l hf

end Framed

/-! ## Reading a framed block -/

theorem body_of_text (hgoes : ∀ l ∈ ls, ¬ endMark <+: l) (hends : endMark <+: l)
    (hls : ls.mapM lineOf = some ts) (hl : lineOf l = some t) :
    body (ls.map lineOf ++ lineOf l :: rest) =
      (.ok (ts.flatMap (Text.dropWhileEnd Text.isBlank)), rest) := by
  induction ls generalizing ts with
  | nil =>
    cases hls
    rw [hl, List.map_nil, List.nil_append, body, if_pos ((endsBlock_iff hl).mpr hends)]
    rfl
  | cons l' ls ih =>
    rw [List.forall_mem_cons] at hgoes
    rw [List.mapM_cons] at hls
    simp only [Option.bind_eq_bind, Option.bind_eq_some_iff, Option.pure_def,
      Option.some.injEq] at hls
    obtain ⟨t', hl', ts', hls', rfl⟩ := hls
    rw [List.map_cons, List.cons_append, hl', body,
      if_neg (mt (endsBlock_iff hl').mp hgoes.1), ih hgoes.2 hls']
    rfl

theorem body_of_unreadable (hgoes : ∀ l ∈ ls, ¬ endMark <+: l)
    (h : ls.mapM lineOf = none ∨ lineOf l = none) (rest : List Line) :
    ∃ rest', body (ls.map lineOf ++ lineOf l :: rest) = (.error .unreadable, rest') := by
  induction ls with
  | nil =>
    have hl : lineOf l = none := h.resolve_left (by simp)
    rw [hl, List.map_nil, List.nil_append, body]
    exact ⟨rest, rfl⟩
  | cons l' ls ih =>
    rw [List.forall_mem_cons] at hgoes
    rw [List.map_cons, List.cons_append]
    cases hl' : lineOf l' with
    | none => exact ⟨_, rfl⟩
    | some t' =>
      have hls : ls.mapM lineOf = none ∨ lineOf l = none := by
        refine h.imp_left fun hnone => ?_
        cases hls : ls.mapM lineOf with
        | none => rfl
        | some ts => simp [List.mapM_cons, hl', hls] at hnone
      obtain ⟨rest', hrest⟩ := ih hgoes.2 hls
      rw [body, if_neg (mt (endsBlock_iff hl').mp hgoes.1), hrest]
      exact ⟨rest', rfl⟩

namespace Framed

variable {f : Framed}

theorem map_lines_append (f : Framed) (rest : List Line) :
    f.lines.map lineOf ++ rest =
      lineOf f.head :: (f.inner.map lineOf ++ lineOf f.foot :: rest) := by
  rw [lines, List.map_cons, List.map_append, List.map_singleton, List.cons_append,
    List.append_assoc, List.singleton_append]

theorem read_of_block? (h : f.block? = some b) :
    read (f.lines.map lineOf ++ rest) = .ok b :: read rest := by
  simp only [block?, Option.bind_eq_bind, Option.bind_eq_some_iff, Option.pure_def,
    Option.some.injEq] at h
  obtain ⟨head, hhead, label, hlabel, inner, hinner, foot, hfoot, contents, hcontents, rfl⟩ := h
  have hblock : block head (f.inner.map lineOf ++ lineOf f.foot :: rest) =
      (.ok ⟨String.ofList label, contents⟩, rest) := by
    rw [block, hlabel]
    simp only [body_of_text f.goesOn f.ends hinner hfoot, Except.bind, hcontents]
  rw [map_lines_append, hhead, read, if_pos ((startsBlock_iff hhead).mpr f.begins), hblock]

/-- A malformed block is a failure, however far it has been read. -/
theorem block_of_malformed {head : List Char} (h : f.block? = none)
    (hhead : lineOf f.head = some head) (rest : List Line) :
    ∃ fault, (block head (f.inner.map lineOf ++ lineOf f.foot :: rest)).1 = .error fault := by
  rw [block]
  -- the ways to be malformed, in the order in which they are met
  cases hlabel : label? head with
  | none => exact ⟨.header, rfl⟩
  | some label =>
    by_cases hunreadable : f.inner.mapM lineOf = none ∨ lineOf f.foot = none
    · obtain ⟨rest', hbody⟩ := body_of_unreadable f.goesOn hunreadable rest
      simp only [hbody]
      exact ⟨.unreadable, rfl⟩
    · rw [not_or, ← ne_eq, ← ne_eq, Option.ne_none_iff_exists', Option.ne_none_iff_exists']
        at hunreadable
      obtain ⟨⟨inner, hinner⟩, foot, hfoot⟩ := hunreadable
      cases hcontents : Base64.decode? (inner.flatMap (Text.dropWhileEnd Text.isBlank)) with
      | some contents => simp [block?, hhead, hlabel, hinner, hfoot, hcontents] at h
      | none =>
        simp only [body_of_text f.goesOn f.ends hinner hfoot, Except.bind, hcontents]
        exact ⟨.base64, rfl⟩

theorem read_of_malformed (h : f.block? = none) (rest : List Line) :
    ∃ fault rs, read (f.lines.map lineOf ++ rest) = .error fault :: rs := by
  rw [map_lines_append]
  cases hhead : lineOf f.head with
  | none => exact ⟨.unreadable, _, by rw [read]⟩
  | some head =>
    obtain ⟨fault, hblock⟩ := block_of_malformed h hhead rest
    exact ⟨fault, _, by rw [read, if_pos ((startsBlock_iff hhead).mpr f.begins), hblock]⟩

end Framed

end NetKit.Pem
