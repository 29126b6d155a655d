import NetKit.Base64

/-!
# Base 64 is decoded to what was encoded

Every number below 64 is the value of its symbol, and the groups of three octets come back from
their groups of four symbols one at a time.
-/

namespace NetKit.Base64

variable {c : Char}

/-! ## Symbols -/

theorem value?_symbol : ∀ {n : Nat}, n < 64 → value? (symbol n) = some n := by
  decide

theorem symbol_ne_equals : ∀ {n : Nat}, n < 64 → symbol n ≠ '=' := by
  decide

/-- What `encode` writes: symbols, and the sign that fills a short group. -/
def IsWritten (c : Char) : Prop := c = '=' ∨ ∃ n < 64, c = symbol n

/-- A property of all characters that `encode` writes, checked on each of them. -/
theorem IsWritten.of_all {p : Char → Bool} (hequals : p '=' = true)
    (hsymbols : ∀ n < 64, p (symbol n) = true) (h : IsWritten c) : p c = true := by
  obtain rfl | ⟨n, hn, rfl⟩ := h
  · exact hequals
  · exact hsymbols n hn

theorem isWritten_symbol {n : Nat} (h : n < 64) : IsWritten (symbol n) := .inr ⟨n, h, rfl⟩

theorem isWritten_of_mem_encode {bs : Bytes} (h : c ∈ encode bs) : IsWritten c := by
  induction bs using encode.induct with
  | case1 => cases h
  | case2 a =>
    have ha : a.toNat < 256 := a.toNat_lt
    simp only [encode, List.mem_cons, List.not_mem_nil, or_false] at h
    rcases h with rfl | rfl | rfl | rfl <;>
      first | exact .inl rfl | exact isWritten_symbol (by omega)
  | case3 a b =>
    have ha : a.toNat < 256 := a.toNat_lt
    have hb : b.toNat < 256 := b.toNat_lt
    simp only [encode, List.mem_cons, List.not_mem_nil, or_false] at h
    rcases h with rfl | rfl | rfl | rfl <;>
      first | exact .inl rfl | exact isWritten_symbol (by omega)
  | case4 a b d rest ih =>
    have ha : a.toNat < 256 := a.toNat_lt
    have hb : b.toNat < 256 := b.toNat_lt
    have hd : d.toNat < 256 := d.toNat_lt
    simp only [encode, List.mem_cons] at h
    rcases h with rfl | rfl | rfl | rfl | h <;>
      first | exact ih h | exact isWritten_symbol (by omega)

/-! ## Groups -/

theorem octet_toNat (b : UInt8) : octet b.toNat = b := by
  simp [octet]

theorem decode?_encode (bs : Bytes) : decode? (encode bs) = some bs := by
  induction bs using encode.induct with
  | case1 => rfl
  | case2 a =>
    have ha : a.toNat < 256 := a.toNat_lt
    rw [encode, decode?, value?_symbol (by omega), value?_symbol (by omega)]
    simp only [Option.bind_eq_bind, Option.bind_some]
    rw [if_pos (by omega), show a.toNat / 4 * 4 + a.toNat % 4 * 16 / 16 = a.toNat by omega,
      octet_toNat]
  | case3 a b =>
    have ha : a.toNat < 256 := a.toNat_lt
    have hb : b.toNat < 256 := b.toNat_lt
    rw [encode, decode?, value?_symbol (by omega), value?_symbol (by omega),
      value?_symbol (by omega)]
    · simp only [Option.bind_eq_bind, Option.bind_some]
      rw [if_pos (by omega),
        show a.toNat / 4 * 4 + (a.toNat % 4 * 16 + b.toNat / 16) / 16 = a.toNat by omega,
        show (a.toNat % 4 * 16 + b.toNat / 16) % 16 * 16 + b.toNat % 16 * 4 / 4 = b.toNat by omega,
        octet_toNat, octet_toNat]
    · exact symbol_ne_equals (by omega)
  | case4 a b d rest ih =>
    have ha : a.toNat < 256 := a.toNat_lt
    have hb : b.toNat < 256 := b.toNat_lt
    have hd : d.toNat < 256 := d.toNat_lt
    rw [encode, decode?, ih, value?_symbol (by omega), value?_symbol (by omega),
      value?_symbol (by omega), value?_symbol (by omega)]
    · simp only [Option.bind_eq_bind, Option.bind_some, Option.pure_def]
      rw [show a.toNat / 4 * 4 + (a.toNat % 4 * 16 + b.toNat / 16) / 16 = a.toNat by omega,
        show (a.toNat % 4 * 16 + b.toNat / 16) % 16 * 16 + (b.toNat % 16 * 4 + d.toNat / 64) / 4 =
          b.toNat by omega,
        show (b.toNat % 16 * 4 + d.toNat / 64) % 4 * 64 + d.toNat % 64 = d.toNat by omega,
        octet_toNat, octet_toNat, octet_toNat]
    · exact fun _ h _ => symbol_ne_equals (by omega) h
    · exact fun h _ => symbol_ne_equals (by omega) h

end NetKit.Base64
