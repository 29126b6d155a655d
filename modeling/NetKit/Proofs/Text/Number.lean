import Mathlib.Data.List.Basic
import Mathlib.Data.List.Induction
import Mathlib.Tactic.IntervalCases
import NetKit.Text.Number

/-!
# Numbers are read back

What is written of a number is read as that number.
-/

namespace NetKit.Text

variable {base n : Nat} {c : Char}

theorem digitValue_eq_some_iff {v : Nat} :
    digitValue base c = some v ↔ v < base ∧
      (48 ≤ c.toNat ∧ c.toNat ≤ 57 ∧ v + 48 = c.toNat ∨
        97 ≤ c.toNat ∧ c.toNat ≤ 122 ∧ v + 87 = c.toNat ∨
        65 ≤ c.toNat ∧ c.toNat ≤ 90 ∧ v + 55 = c.toNat) := by
  have hle (d k : Char) : d ≤ k ↔ d.toNat ≤ k.toNat := UInt32.le_iff_toNat_le
  have h0 : '0'.toNat = 48 := rfl
  have h9 : '9'.toNat = 57 := rfl
  have ha : 'a'.toNat = 97 := rfl
  have hz : 'z'.toNat = 122 := rfl
  have hA : 'A'.toNat = 65 := rfl
  have hZ : 'Z'.toNat = 90 := rfl
  simp only [digitValue, Option.ite_none_right_eq_some, Option.some.injEq, hle, h0, h9, ha, hz, hA,
    hZ]
  split
  · omega
  · split
    · omega
    · split <;> omega

/-- A digit of one base is one of every larger base. -/
theorem digitValue_mono {larger v : Nat} (hle : base ≤ larger) (h : digitValue base c = some v) :
    digitValue larger c = some v := by
  rw [digitValue_eq_some_iff] at h ⊢
  exact ⟨h.1.trans_le hle, h.2⟩

theorem digitValue_digitChar {d : Nat} (hbase : base ≤ 16) (h : d < base) :
    digitValue base d.digitChar = some d := by
  have hd : d < 16 := h.trans_le hbase
  interval_cases d <;> exact if_pos h

theorem isDigit_of_mem_decimal (h : c ∈ decimal n) : c.isDigit = true :=
  Nat.isDigit_of_mem_toDigits (by decide) (by decide) h

theorem decimal_ne_nil (n : Nat) : decimal n ≠ [] := Nat.toDigits_ne_nil

theorem natOfDigits?_append_singleton (base : Nat) {cs : List Char} (hcs : cs ≠ []) (c : Char) :
    natOfDigits? base (cs ++ [c]) =
      (do return (← natOfDigits? base cs) * base + (← digitValue base c)) := by
  cases cs with
  | nil => exact absurd rfl hcs
  | cons d cs =>
    simp only [natOfDigits?, List.cons_append, List.foldl_cons, List.foldl_append, List.foldl_nil]

theorem natOfDigits?_toDigits (h : 1 < base) (hbase : base ≤ 16) (n : Nat) :
    natOfDigits? base (Nat.toDigits base n) = some n := by
  induction n using Nat.strongRecOn with
  | ind n ih =>
    rw [Nat.toDigits_eq_if h]
    split
    · rename_i hn
      simp [natOfDigits?, digitValue_digitChar hbase hn]
    · rename_i hn
      have hdigit : n % base < base := Nat.mod_lt n (by omega)
      have hless : n / base < n := Nat.div_lt_self (by omega) h
      rw [natOfDigits?_append_singleton base Nat.toDigits_ne_nil, ih _ hless,
        digitValue_digitChar hbase hdigit]
      simp only [Option.pure_def, Option.bind_eq_bind, Option.bind_some, Nat.div_add_mod']

theorem natOfDigits?_decimal (n : Nat) : natOfDigits? 10 (decimal n) = some n :=
  natOfDigits?_toDigits (by decide) (by decide) n

theorem digitValue_isSome_of_mem_toDigits (h : 1 < base) (hbase : base ≤ 16)
    (hc : c ∈ Nat.toDigits base n) : (digitValue base c).isSome = true := by
  induction n using Nat.strongRecOn with
  | ind n ih =>
    rw [Nat.toDigits_eq_if h] at hc
    split at hc
    · rename_i hn
      rw [List.mem_singleton.mp hc, digitValue_digitChar hbase hn]
      rfl
    · rename_i hn
      rcases List.mem_append.mp hc with hfront | hlast
      · exact ih _ (Nat.div_lt_self (by omega) h) hfront
      · rw [List.mem_singleton.mp hlast, digitValue_digitChar hbase (Nat.mod_lt n (by omega))]
        rfl

/-- No zero is written before other digits. -/
theorem eq_zero_of_head?_toDigits (h : 1 < base) (hzero : (Nat.toDigits base n).head? = some '0') :
    n = 0 := by
  induction n using Nat.strongRecOn with
  | ind n ih =>
    rw [Nat.toDigits_eq_if h] at hzero
    split at hzero
    · rw [List.head?_cons, Option.some.injEq] at hzero
      exact Nat.digitChar_eq_zero.mp hzero
    · rename_i hn
      rw [List.head?_append, Option.or_of_isSome (by simp [Nat.toDigits_ne_nil])] at hzero
      have hfront := ih _ (Nat.div_lt_self (by omega) h) hzero
      rcases Nat.div_eq_zero_iff.mp hfront with hbase | hlt <;> omega

theorem digitChar_of_digitValue {d : Nat} (h : digitValue 10 c = some d) : d.digitChar = c := by
  obtain ⟨hd, hc⟩ := digitValue_eq_some_iff.mp h
  rw [← Char.toNat_inj, Nat.toNat_digitChar_of_lt_ten hd]
  omega

/-- Digits are the text of their number unless a zero stands before other digits. -/
theorem decimal_of_natOfDigits? {cs : List Char} (h : natOfDigits? 10 cs = some n)
    (hzero : 1 < cs.length → cs.head? ≠ some '0') : decimal n = cs := by
  induction cs using List.reverseRecOn generalizing n with
  | nil => cases h
  | append_singleton cs c ih =>
    rw [List.length_append, List.length_singleton] at hzero
    by_cases hcs : cs = []
    · subst hcs
      obtain ⟨d, hd, hn⟩ : ∃ d, digitValue 10 c = some d ∧ 0 * 10 + d = n := by
        simpa [natOfDigits?, Option.bind_eq_some_iff] using h
      rw [← digitChar_of_digitValue hd, decimal, ← hn, Nat.zero_mul, Nat.zero_add,
        Nat.toDigits_of_lt_base (digitValue_eq_some_iff.mp hd).1]
      rfl
    · have hfirst : cs.head? ≠ some '0' := by
        rw [← List.head?_append_of_ne_nil _ hcs]
        exact hzero (Nat.lt_add_of_pos_left (List.length_pos_of_ne_nil hcs))
      simp only [natOfDigits?_append_singleton 10 hcs, Option.bind_eq_bind,
        Option.bind_eq_some_iff, Option.pure_def, Option.some.injEq] at h
      obtain ⟨m, hm, d, hd, rfl⟩ := h
      have hfront := ih hm fun _ => hfirst
      have hm : m ≠ 0 := by
        rintro rfl
        exact hfirst (hfront ▸ rfl)
      have hlt := (digitValue_eq_some_iff.mp hd).1
      rw [decimal, Nat.toDigits_eq_if (by decide), if_neg (by omega),
        show (m * 10 + d) / 10 = m by omega, show (m * 10 + d) % 10 = d by omega,
        digitChar_of_digitValue hd, ← decimal, hfront]

/-! ## Strangers -/

theorem foldl_digits_eq_none {cs : List Char} (acc : Option Nat) (hc : c ∈ cs)
    (h : digitValue base c = none) :
    cs.foldl (fun acc c => do return (← acc) * base + (← digitValue base c)) acc = none := by
  -- A number that is lost is not found again.
  have hlost (ds : List Char) :
      ds.foldl (fun acc c => do return (← acc) * base + (← digitValue base c)) none = none := by
    induction ds with
    | nil => rfl
    | cons d ds ih => exact ih
  induction cs generalizing acc with
  | nil => cases hc
  | cons d cs ih =>
    rw [List.foldl_cons]
    rcases List.mem_cons.mp hc with rfl | hc
    · cases acc <;> simpa [h] using hlost cs
    · exact ih _ hc

theorem natOfDigits?_eq_none {cs : List Char} (hc : c ∈ cs) (h : digitValue base c = none) :
    natOfDigits? base cs = none := by
  cases cs with
  | nil => cases hc
  | cons d cs => exact foldl_digits_eq_none (some 0) hc h

/-! ## Bounded numbers -/

theorem boundedNat?_eq_none {cs : List Char} (hc : c ∈ cs) (hplus : c ≠ '+')
    (h : digitValue 10 c = none) (bound : Nat) : boundedNat? bound cs = none := by
  unfold boundedNat?
  split <;> dsimp only
  · rw [natOfDigits?_eq_none ((List.mem_cons.mp hc).resolve_left hplus) h]
    rfl
  · rw [natOfDigits?_eq_none hc h]
    rfl

theorem boundedNat?_decimal {bound : Nat} (h : n < bound) :
    boundedNat? bound (decimal n) = some n := by
  unfold boundedNat?
  split <;> dsimp only
  · rename_i hplus
    have hdigit : '+'.isDigit = true :=
      isDigit_of_mem_decimal (n := n) (hplus ▸ List.mem_cons_self)
    cases hdigit
  · rw [natOfDigits?_decimal, Option.filter_some_pos (by simpa using h)]

/-! ## Two digits -/

theorem length_decimal_le_iff {width : Nat} (h : 0 < width) :
    (decimal n).length ≤ width ↔ n < 10 ^ width :=
  Nat.length_toDigits_le_iff (by decide) h

theorem length_padded {width : Nat} (hwidth : 0 < width) (h : n < 10 ^ width) :
    (padded width n).length = width := by
  have := (length_decimal_le_iff hwidth).mpr h
  rw [padded, List.length_append, List.length_replicate, Nat.sub_add_cancel this]

theorem isDigit_of_mem_padded {width : Nat} (h : c ∈ padded width n) :
    c.isDigit = true := by
  rcases List.mem_append.mp h with hzero | hdigit
  · rw [List.eq_of_mem_replicate hzero]
    rfl
  · exact isDigit_of_mem_decimal hdigit

theorem natOfDigits?_zeros (k : Nat) {cs : List Char} (h : cs ≠ []) :
    natOfDigits? 10 (List.replicate k '0' ++ cs) = natOfDigits? 10 cs := by
  induction k with
  | zero => rfl
  | succ k ih =>
    rw [← ih]
    cases cs with
    | nil => exact absurd rfl h
    | cons c cs => cases k <;> rfl

theorem natOfDigits?_padded (width n : Nat) : natOfDigits? 10 (padded width n) = some n := by
  rw [padded, natOfDigits?_zeros _ (decimal_ne_nil n), natOfDigits?_decimal]

end NetKit.Text
