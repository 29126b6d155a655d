import NetKit.Log.Redaction
import NetKit.Proofs.Text.Pieces

/-!
# What redaction shows

Nothing is shown of a secret's value. Of other values one octet may be left, which is refused where
it would be a part of a character.
-/

namespace NetKit.Log

variable {name value : String}

/-- Secrets are known by the words in their names. -/
def IsSecret (name : String) : Prop :=
  ∃ word ∈ ["password", "passphrase", "secret", "private_key", "token", "authorization", "cookie"],
    word.toList <:+: name.toList.map smallLetter

theorem isSensitive_iff : isSensitive name = true ↔ IsSecret name := by
  simp only [isSensitive, List.any_eq_true, Text.occursIn_iff]
  rfl

theorem redact?_of_secret (h : IsSecret name) (value : String) :
    redact? name value = some "[REDACTED]" := by
  rw [redact?, if_pos (isSensitive_iff.mpr h)]

/-- A character beyond ASCII, and later an at sign with a point somewhere behind it. -/
def CannotBeMasked (value : String) : Prop :=
  ∃ c before after, value.toList = c :: (before ++ '@' :: after) ∧ 0x80 ≤ c.toNat ∧ '.' ∈ after

theorem cannotBeMasked_iff {c : Char} {l : List Char} (hvalue : value.toList = c :: l) :
    CannotBeMasked value ↔ 0x80 ≤ c.toNat ∧ '.' ∈ l.dropWhile (· != '@') := by
  rw [CannotBeMasked, hvalue, Text.mem_dropWhile_ne_iff (by decide)]
  constructor
  · rintro ⟨c, before, after, h, hbeyond, hpoint⟩
    cases h
    exact ⟨hbeyond, before, after, rfl, hpoint⟩
  · rintro ⟨hbeyond, before, after, rfl, hpoint⟩
    exact ⟨c, before, after, rfl, hbeyond, hpoint⟩

theorem redact?_eq_none_iff : redact? name value = none ↔ ¬ IsSecret name ∧ CannotBeMasked value := by
  rw [redact?, ← isSensitive_iff]
  by_cases hsecret : isSensitive name = true
  · simp [hsecret]
  · rw [if_neg hsecret]
    cases hvalue : value.toList with
    | nil => simp [CannotBeMasked, hvalue]
    | cons c l =>
      rw [cannotBeMasked_iff hvalue]
      by_cases hc : c = '@'
      · simp [hc]
      · have hpos : (c != '@') = true := bne_iff_ne.mpr hc
        by_cases hpoint : '.' ∈ l.dropWhile (· != '@') <;> simp [hpos, hsecret, hpoint]

end NetKit.Log
