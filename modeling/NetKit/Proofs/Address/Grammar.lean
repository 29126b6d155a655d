import NetKit.Address
import NetKit.Proofs.Address.Literals

/-!
# Which texts are addresses

A text is read as an address if a literal stands in it, with any number of opening brackets before
it and of closing ones after it, and after these a percent sign and a scope. The written form allows
one pair of brackets and no empty scope; other texts that are read break it.
-/

namespace NetKit.Address

open Text Literal

variable {cs : List Char} {a : Address} {t : String}

/-! ## Texts taken apart -/

/-- Brackets around what stands before the first percent sign, and what stands after it. -/
structure Parts where
  opening : Nat
  literal : List Char
  closing : Nat
  scope : Option (List Char)
deriving DecidableEq

namespace Parts

variable {p : Parts}

def front (p : Parts) : List Char :=
  List.replicate p.opening '[' ++ (p.literal ++ List.replicate p.closing ']')

def text (p : Parts) : List Char := p.front ++ p.scope.elim [] ('%' :: ·)

def of (cs : List Char) : Parts :=
  let front := ((splitOnce (· == '%') cs).getD (cs, [])).1
  let inner := front.dropWhile (· == '[')
  { opening := (front.takeWhile (· == '[')).length
    literal := dropWhileEnd (· == ']') inner
    closing := (inner.reverse.takeWhile (· == ']')).length
    scope := (splitOnce (· == '%') cs).map (·.2) }

/-- The address of the literal, in the scope if there is one. An IPv4 address has none. -/
inductive Names (p : Parts) : Address → Prop
  | v4 {ip : Ipv4} (h : ipv4? p.literal = some ip) (hs : p.scope.getD [] = []) :
      p.Names (ofIpv4 ip)
  | v6 {ip : Ipv6} (h : ipv6? p.literal = some ip) :
      p.Names { host := .v6 ip, scope := String.ofList (p.scope.getD []) }

theorem text_of_none (h : p.scope = none) : p.text = p.front := by
  rw [text, h, Option.elim_none, List.append_nil]

theorem text_of_some {scope : List Char} (h : p.scope = some scope) :
    p.text = p.front ++ '%' :: scope := by
  rw [text, h, Option.elim_some]

theorem text_of (cs : List Char) : (of cs).text = cs := by
  rw [text, front, of, append_marks, marks_append]
  cases hsplit : splitOnce (· == '%') cs with
  | none => simp
  | some r =>
    obtain ⟨⟨mark, hmark, hcs⟩, _⟩ := of_splitOnce hsplit
    rw [eq_of_beq hmark] at hcs
    exact hcs.symm

theorem Names.isLiteral (h : p.Names a) : IsLiteral p.literal := by
  cases h with
  | v4 h => exact isLiteral_of_ipv4? h
  | v6 h => exact isLiteral_of_ipv6? h

theorem mem_front {c : Char} (h : c ∈ p.front) : c = '[' ∨ c ∈ p.literal ∨ c = ']' := by
  rcases List.mem_append.mp h with h | h
  · exact .inl (List.eq_of_mem_replicate h)
  · rcases List.mem_append.mp h with h | h
    · exact .inr (.inl h)
    · exact .inr (.inr (List.eq_of_mem_replicate h))

theorem splitOnce_text (h : ∀ c ∈ p.front, (c == '%') = false) :
    ((splitOnce (· == '%') p.text).getD (p.text, [])).1 = p.front ∧
      (splitOnce (· == '%') p.text).map (·.2) = p.scope := by
  cases hscope : p.scope with
  | none =>
    rw [text_of_none hscope, splitOnce_eq_none h]
    exact ⟨rfl, rfl⟩
  | some scope =>
    rw [text_of_some hscope, splitOnce_append h (beq_self_eq_true '%')]
    exact ⟨rfl, rfl⟩

/-- A text is put together of one literal in one way. -/
theorem of_text (h : IsLiteral p.literal) : of p.text = p := by
  have hchar (c : Char) (hc : c ∈ p.literal) : c ≠ '[' ∧ c ≠ ']' ∧ (c == '%') = false := by
    have hliteral := h.isLiteralChar c hc
    refine ⟨?_, ?_, beq_eq_false_iff_ne.mpr ?_⟩ <;> rintro rfl <;> revert hliteral <;> decide
  have hpercent (c : Char) (hc : c ∈ p.front) : (c == '%') = false := by
    rcases mem_front hc with rfl | hc | rfl
    · rfl
    · exact (hchar c hc).2.2
    · rfl
  -- The literal is not empty, so its ends are where the brackets stop.
  have hopening (c : Char) (hc : (p.literal ++ List.replicate p.closing ']').head? = some c) :
      c ≠ '[' := by
    rw [List.head?_append_of_ne_nil _ h.ne_nil] at hc
    exact (hchar c (List.mem_of_head? hc)).1
  have hclosing (c : Char) (hc : p.literal.getLast? = some c) : c ≠ ']' :=
    (hchar c (List.mem_of_getLast? hc)).2.1
  obtain ⟨hfront, hscope⟩ := splitOnce_text hpercent
  obtain ⟨hopen, hinner⟩ := takeWhile_marks_append hopening p.opening
  obtain ⟨hliteral, hclose⟩ := dropWhileEnd_append_marks hclosing p.closing
  rw [of, hfront, hscope, front, hopen, hinner, hliteral, hclose, List.length_replicate]

end Parts

/-! ## Reading -/

theorem read?_eq_parts (cs : List Char) :
    read? cs =
      match ipv4? (Parts.of cs).literal with
      | some v4 => if ((Parts.of cs).scope.getD []).isEmpty then some (ofIpv4 v4) else none
      | none => (ipv6? (Parts.of cs).literal).map fun v6 =>
        { host := .v6 v6, scope := String.ofList ((Parts.of cs).scope.getD []) } := by
  have hscope : (Parts.of cs).scope.getD [] =
      ((splitOnce (· == '%') cs).getD (cs, [])).2 := by
    rw [Parts.of]
    cases splitOnce (· == '%') cs <;> rfl
  rw [hscope]
  rfl

theorem read?_eq_some_iff_names : read? cs = some a ↔ (Parts.of cs).Names a := by
  rw [read?_eq_parts]
  generalize Parts.of cs = p
  constructor
  · intro h
    split at h
    · rename_i v4 hv4
      simp only [Option.ite_none_right_eq_some, List.isEmpty_iff, Option.some.injEq] at h
      obtain ⟨hscope, rfl⟩ := h
      exact .v4 hv4 hscope
    · obtain ⟨v6, hv6, rfl⟩ := Option.map_eq_some_iff.mp h
      exact .v6 hv6
  · intro h
    cases h with
    | v4 hv4 hscope => simp [hv4, hscope]
    | v6 hv6 => simp [ipv4?_of_ipv6? hv6, hv6]

theorem read?_eq_some_iff : read? cs = some a ↔ ∃ p : Parts, cs = p.text ∧ p.Names a := by
  rw [read?_eq_some_iff_names]
  constructor
  · exact fun h => ⟨_, (Parts.text_of cs).symm, h⟩
  · rintro ⟨p, rfl, h⟩
    rwa [Parts.of_text h.isLiteral]

theorem Parts.Names.isNull {p : Parts} (h : p.Names a) : a.isNull = false := by
  cases h <;> rfl

/-- The null address stands for a text that is not read. -/
theorem parse_eq_iff : parse t = a ∧ a.isNull = false ↔ parse? t = some a := by
  rw [parse]
  cases h : parse? t with
  | none =>
    rw [Option.getD_none]
    refine iff_of_false ?_ (by simp)
    rintro ⟨rfl, hnull⟩
    cases hnull
  | some b =>
    obtain ⟨p, _, hnames⟩ := read?_eq_some_iff.mp h
    rw [Option.getD_some, Option.some.injEq]
    refine and_iff_left_of_imp ?_
    rintro rfl
    exact hnames.isNull

/-! ## The written form -/

/-- Bare, or in one pair of brackets. -/
inductive Enclosed (l : List Char) : List Char → Prop
  | bare : Enclosed l l
  | bracketed : Enclosed l ('[' :: (l ++ [']']))

/-- The texts of an address: a literal, or an IPv6 literal with a percent sign and a scope, where
the brackets may be around the literal or around it all. -/
inductive Form : List Char → Address → Prop
  | v4 {l text : List Char} {ip : Ipv4} (h : ipv4? l = some ip) (henclosed : Enclosed l text) :
      Form text (ofIpv4 ip)
  | v6 {l text : List Char} {ip : Ipv6} (h : ipv6? l = some ip) (henclosed : Enclosed l text) :
      Form text (ofIpv6 ip)
  | withScope {l text scope : List Char} {ip : Ipv6} (h : ipv6? l = some ip)
      (henclosed : Enclosed l text) (hscope : scope ≠ []) :
      Form (text ++ '%' :: scope) { host := .v6 ip, scope := String.ofList scope }
  | aroundScope {l scope : List Char} {ip : Ipv6} (h : ipv6? l = some ip) (hscope : scope ≠ []) :
      Form ('[' :: (l ++ '%' :: (scope ++ [']'])))
        { host := .v6 ip, scope := String.ofList scope }

/-- In one pair of brackets or in none, and without an empty scope. -/
structure Parts.IsStrict (p : Parts) : Prop where
  matched : p.opening = p.closing
  atMostOne : p.opening ≤ 1
  scope_ne : p.scope ≠ some []

theorem Parts.IsStrict.enclosed {p : Parts} (h : p.IsStrict) : Enclosed p.literal p.front := by
  obtain ⟨opening, literal, closing, scope⟩ := p
  obtain rfl : opening = closing := h.matched
  have hle : opening ≤ 1 := h.atMostOne
  interval_cases opening
  · simpa [Parts.front] using Enclosed.bare
  · exact .bracketed

theorem Parts.IsStrict.form {p : Parts} (h : p.IsStrict) (hnames : p.Names a) : Form p.text a := by
  have henclosed := h.enclosed
  cases hscope : p.scope with
  | none =>
    rw [text_of_none hscope]
    cases hnames with
    | v4 hip _ => exact .v4 hip henclosed
    | v6 hip =>
      rw [hscope]
      exact .v6 hip henclosed
  | some scope =>
    have hne : scope ≠ [] := fun he => h.scope_ne (hscope.trans (congrArg some he))
    rw [text_of_some hscope]
    cases hnames with
    | v4 _ hempty =>
      rw [hscope] at hempty
      exact absurd hempty hne
    | v6 hip =>
      rw [hscope]
      exact .withScope hip henclosed hne

theorem Enclosed.isStrict {l text : List Char} (h : Enclosed l text)
    (scope : Option (List Char)) (hscope : scope ≠ some []) :
    ∃ p : Parts, p.literal = l ∧ p.scope = scope ∧ p.IsStrict ∧
      p.text = text ++ scope.elim [] ('%' :: ·) := by
  cases h with
  | bare =>
    exact ⟨⟨0, l, 0, scope⟩, rfl, rfl, ⟨rfl, Nat.zero_le 1, hscope⟩,
      by simp [Parts.text, Parts.front]⟩
  | bracketed =>
    exact ⟨⟨1, l, 1, scope⟩, rfl, rfl, ⟨rfl, le_rfl, hscope⟩,
      by simp [Parts.text, Parts.front]⟩

/-- The bracket that closes the pair around literal and scope is taken into the scope. -/
def Parts.TakesBracket (p : Parts) : Prop :=
  p.opening ≠ p.closing ∧ ∃ scope, p.scope = some (scope ++ [']'])

theorem Form.exists_parts (h : Form cs a) :
    ∃ p : Parts, cs = p.text ∧
      (p.IsStrict ∧ p.Names a ∨ p.TakesBracket ∧ ∃ b, b ≠ a ∧ p.Names b) := by
  cases h with
  | v4 hip henclosed =>
    obtain ⟨p, rfl, hscope, hstrict, htext⟩ := henclosed.isStrict none (by simp)
    refine ⟨p, by simpa using htext.symm, .inl ⟨hstrict, .v4 hip ?_⟩⟩
    rw [hscope, Option.getD_none]
  | v6 hip henclosed =>
    obtain ⟨p, rfl, hscope, hstrict, htext⟩ := henclosed.isStrict none (by simp)
    refine ⟨p, by simpa using htext.symm, .inl ⟨hstrict, ?_⟩⟩
    have hnames := Parts.Names.v6 hip
    rwa [hscope] at hnames
  | @withScope _ _ scope _ hip henclosed hne =>
    obtain ⟨p, rfl, hscope, hstrict, htext⟩ :=
      henclosed.isStrict (some scope) (by simpa using hne)
    refine ⟨p, htext.symm, .inl ⟨hstrict, ?_⟩⟩
    have hnames := Parts.Names.v6 hip
    rwa [hscope] at hnames
  | @aroundScope l scope ip hip hne =>
    let p : Parts := ⟨1, l, 0, some (scope ++ [']'])⟩
    refine ⟨p, by simp [p, Parts.text, Parts.front],
      .inr ⟨⟨Nat.one_ne_zero, scope, rfl⟩, _, ?_, .v6 hip⟩⟩
    simp [p]

theorem Parts.Names.unique {p : Parts} {b : Address} (ha : p.Names a) (hb : p.Names b) : a = b := by
  have hread := read?_eq_some_iff.mpr ⟨p, rfl, ha⟩
  exact Option.some.inj (hread.symm.trans (read?_eq_some_iff.mpr ⟨p, rfl, hb⟩))

theorem Parts.Names.eq_of_text {p q : Parts} {b : Address} (hp : p.Names a) (hq : q.Names b)
    (h : p.text = q.text) : p = q := by
  rw [← Parts.of_text hp.isLiteral, h, Parts.of_text hq.isLiteral]

/-- A text is an address exactly if, without the blanks around it, a literal stands in it with
brackets before and after, and the scope is what stands after the first percent sign. This is the
written form exactly for the texts whose brackets match, are one pair at most and do not reach
around a scope, and whose scope is not empty. -/
theorem parse_follows_form_iff (t : String) :
    (∀ a, parse t = a ∧ a.isNull = false ↔ ∃ p : Parts, trim t.toList = p.text ∧ p.Names a) ∧
    ((∀ a, parse t = a ∧ a.isNull = false ↔ Form (trim t.toList) a) ↔
      ∀ (p : Parts) (a : Address), trim t.toList = p.text → p.Names a → p.IsStrict) := by
  have hparse (a : Address) :
      parse t = a ∧ a.isNull = false ↔ ∃ p : Parts, trim t.toList = p.text ∧ p.Names a := by
    rw [parse_eq_iff, parse?, read?_eq_some_iff]
  refine ⟨hparse, fun h p a htext hnames => ?_, fun h a => ?_⟩
  · have hform := (h a).mp ((hparse a).mpr ⟨p, htext, hnames⟩)
    rw [htext] at hform
    -- The one way to take the text apart is strict, or it reads another address than is written.
    obtain ⟨q, hq, ⟨hstrict, hq'⟩ | ⟨_, b, hne, hb⟩⟩ := hform.exists_parts
    · rwa [hnames.eq_of_text hq' hq]
    · rw [← hnames.eq_of_text hb hq] at hb
      exact absurd (hb.unique hnames) hne
  · rw [hparse]
    constructor
    · rintro ⟨p, htext, hnames⟩
      rw [htext]
      exact (h p a htext hnames).form hnames
    · intro hform
      obtain ⟨q, hq, ⟨_, hnames⟩ | ⟨htakes, b, _, hb⟩⟩ := hform.exists_parts
      · exact ⟨q, hq, hnames⟩
      · exact absurd (h q b hq hb).matched htakes.1

theorem not_form (hstrict : ¬(Parts.of cs).IsStrict) (htakes : ¬(Parts.of cs).TakesBracket) :
    ¬Form cs a := by
  intro h
  obtain ⟨p, rfl, ⟨hp, hnames⟩ | ⟨hp, b, _, hnames⟩⟩ := h.exists_parts
  · rw [Parts.of_text hnames.isLiteral] at hstrict
    exact hstrict hp
  · rw [Parts.of_text hnames.isLiteral] at htakes
    exact htakes hp

/-- A bracket that is not closed is passed over, the bracket that closes a scoped address becomes a
part of the scope, and a scope may be left empty. -/
theorem loose_texts_are_read :
    (parse "[::1").isNull = false ∧ (∀ a, ¬Form (trim "[::1".toList) a) ∧
    (parse "::1%").isNull = false ∧ (∀ a, ¬Form (trim "::1%".toList) a) ∧
    (∃ a, Form (trim "[fe80::1%eth0]".toList) a ∧ a.scope = "eth0") ∧
    (parse "[fe80::1%eth0]").scope = "eth0]" ∧
    ¬∀ t a, parse t = a ∧ a.isNull = false ↔ Form (trim t.toList) a := by
  have hopen : Parts.of (trim "[::1".toList) = ⟨1, "::1".toList, 0, none⟩ := by decide
  have hempty : Parts.of (trim "::1%".toList) = ⟨0, "::1".toList, 0, some []⟩ := by decide
  have hopened (a : Address) : ¬Form (trim "[::1".toList) a := by
    refine not_form (fun h => ?_) fun h => ?_
    · rw [hopen] at h
      cases h.matched
    · rw [hopen] at h
      obtain ⟨_, scope, hscope⟩ := h
      cases hscope
  have hemptied (a : Address) : ¬Form (trim "::1%".toList) a := by
    refine not_form (fun h => ?_) fun h => ?_
    · rw [hempty] at h
      exact h.scope_ne rfl
    · rw [hempty] at h
      exact h.1 rfl
  have hread : (parse "[::1").isNull = false := by decide
  have hscope : "eth0".toList ≠ [] := by decide
  have hlink : ipv6? "fe80::1".toList = some 0xfe800000000000000000000000000001 := by decide
  exact ⟨hread, hopened, by decide, hemptied,
    ⟨_, .aroundScope hlink hscope, rfl⟩, by decide,
    fun h => hopened _ ((h "[::1" _).mp ⟨rfl, hread⟩)⟩

end NetKit.Address
