import NetKit.Key
import NetKit.Proofs.Answers

/-!
# Which algorithms accept an encoding

A structure that names its algorithm, or stands in a block whose label does, is a key of that
algorithm alone. The bare structure of a private key names none, and RSA, DSA and EC all accept it.
-/

namespace NetKit.Key

open Answer
open Der (Object)

variable {der x content : Bytes} {a : KeyAlgorithm} {t : KeyType}
  {f : EncodingFormat} {k : Key}

/-! ## Bare structures -/

/-- A whole sequence whose second item is known by its octets, as in the private keys of RSA, DSA
and EC. -/
def IsBare (der : Bytes) : Prop :=
  ∃ items content, Object.whole der = .ok (.sequence items, 0) ∧ items[1]? = some (.octets content)

theorem items_eq_ok_iff {its : List Object} :
    items der = .ok its ↔ Object.whole der = .ok (.sequence its, 0) := by
  unfold items
  split
  · rename_i h
    simp [h]
  · rename_i h
    simp [h]
  · rename_i object h
    rw [h]
    cases object <;> simp [Object.items?]

theorem secondItem_eq_ok_iff {missing : Fault} :
    secondItem der missing = .ok content ↔
      ∃ its, Object.whole der = .ok (.sequence its, 0) ∧ its[1]? = some (.octets content) := by
  simp only [secondItem, bind_eq_ok, items_eq_ok_iff]
  refine exists_congr fun its => and_congr_right fun _ => ?_
  split
  · rename_i h
    simp [h]
  · rename_i item h
    rw [h]
    cases item <;> simp [Object.octets?, pure, Except.pure]

theorem isBare_iff (missing : Fault) : IsBare der ↔ ∃ content, secondItem der missing = .ok content := by
  simp only [secondItem_eq_ok_iff]
  exact exists_comm

/-- The bare structures of private keys are told apart by nothing but the wanted algorithm. -/
theorem readBare_private_iff :
    (∃ k, readBare der a .privateKey = .ok k) ↔
      IsBare der ∧ (a = .rsa ∨ a = .dsa ∨ a = .ec) := by
  cases a with
  | rsa | dsa =>
      simp [readBare, secondItemBits, exists_map_eq_ok, fmap_eq_map, isBare_iff .truncated]
  | ec =>
      simp [readBare, ecPrivateBits, exists_map_eq_ok, fmap_eq_map,
        isBare_iff .notEcPrivateKey]
  | hidden | dh => simp [readBare]

theorem readBare_public {a : KeyAlgorithm} (h : readBare der a .publicKey = .ok k) : a = .rsa := by
  cases a with
  | rsa => rfl
  | hidden | dsa | ec | dh => cases h

theorem readBare_eq_ok (h : readBare der a t = .ok k) :
    k.algorithm = a ∧ k.type = t ∧ k.encoding = der := by
  unfold readBare at h
  split at h
  case h_5 => cases h
  all_goals
    obtain ⟨_, _, rfl⟩ := map_eq_ok.mp h
    exact ⟨rfl, rfl, rfl⟩

theorem IsBare.ne_nil (h : IsBare der) : der ≠ [] := by
  rintro rfl
  obtain ⟨_, _, h, _⟩ := h
  cases h

/-! ## Structures that name their algorithm -/

/-- Reads a structure that names its algorithm. -/
def readNamed (der : Bytes) : KeyType → Except Fault Key
  | .publicKey => readPublic der
  | .privateKey => readPrivate der

theorem readDer_eq (der : Bytes) (a : KeyAlgorithm) (t : KeyType) :
    readDer der a t = match readNamed der t with
      | .ok key => .ok key
      | .error _ => readBare der a t := by
  cases t <;> rfl

theorem readDer_eq_ok_iff :
    readDer der a t = .ok k ↔
      readNamed der t = .ok k ∨ (∃ e, readNamed der t = .error e) ∧ readBare der a t = .ok k := by
  rw [readDer_eq]
  cases readNamed der t <;> simp

/-! ## Blocks -/

/-- The octets that are read as the wanted key: all of them, or in a text those of the first block,
when they are not what its label says. -/
def wanted? (x : Bytes) : EncodingFormat → Option Bytes
  | .der => some x
  | .pem =>
    if Text.occursIn encryptedMark (Utf8.decodeLossy x).toList then none
    else
      match (Pem.decode x).head? with
      | some (.ok b) =>
        match readBlock b with
        | .ok _ | .error (.unsupported _) => none
        | .error _ => some b.contents
      | _ => none

/-- What is read before it is compared with what was wanted. -/
def readAny (x : Bytes) (a : KeyAlgorithm) (t : KeyType) : EncodingFormat → Except Fault Key
  | .pem => readPem x a t
  | .der => readDer x a t

theorem readAny_of_wanted {d : Bytes} (h : wanted? x f = some d) (a : KeyAlgorithm)
    (t : KeyType) : readAny x a t f = readDer d a t := by
  cases f with
  | der => cases h; rfl
  | pem =>
      simp only [wanted?] at h
      simp only [readAny, readPem]
      split at h
      · cases h
      · rename_i hplain
        rw [if_neg hplain]
        split at h
        · rename_i b hb
          rw [hb]
          split at h
          · cases h
          · cases h
          · rename_i e hstranger hread
            cases h
            simp only [hread]
        · cases h

/-- Where the wanted key makes no difference to what is read. -/
theorem readAny_of_not_wanted (h : wanted? x f = none) (a b : KeyAlgorithm) (t : KeyType) :
    readAny x a t f = readAny x b t f := by
  cases f with
  | der => cases h
  | pem =>
      simp only [wanted?] at h
      simp only [readAny, readPem]
      split at h
      · rename_i hencrypted
        rw [if_pos hencrypted, if_pos hencrypted]
      · rename_i hplain
        rw [if_neg hplain, if_neg hplain]
        split at h
        · rename_i block hb
          rw [hb]
          split at h
          · rename_i hread
            simp only [hread]
          · rename_i hread
            simp only [hread]
          · cases h
        · rename_i hb
          split
          · rfl
          · rfl
          · rename_i block hblock
            exact absurd hblock (hb block)

theorem read_eq_ok_iff :
    read x a f t = .ok k ↔ readAny x a t f = .ok k ∧ k.algorithm = a ∧ k.type = t := by
  have hread : read x a f t = (readAny x a t f >>= fun key =>
      if key.algorithm ≠ a ∨ key.type ≠ t then
        .error (.mismatch (a, t) (key.algorithm, key.type))
      else .ok key) := by
    cases f <;> rfl
  rw [hread, bind_eq_ok]
  constructor
  · rintro ⟨key, hkey, h⟩
    split at h
    · cases h
    · rename_i hsame
      cases h
      exact ⟨hkey, by simpa [not_or] using hsame⟩
  · rintro ⟨h, rfl, rfl⟩
    exact ⟨k, h, by simp⟩

/-! ## Acceptance -/

/-- The octets are read as a key, not the null key. -/
def Accepts (x : Bytes) (f : EncodingFormat) (t : KeyType) (a : KeyAlgorithm) : Prop :=
  (ofData x a f t).isNull = false

theorem read_of_accepts (h : Accepts x f t a) : ∃ k, read x a f t = .ok k := by
  unfold Accepts ofData at h
  split at h
  · rename_i k hk
    exact ⟨k, hk⟩
  · cases h

theorem accepts_of_read (h : read x a f t = .ok k) (hk : k.encoding ≠ []) : Accepts x f t a := by
  unfold Accepts ofData
  rw [h]
  simpa [isNull] using hk

/-- The wanted algorithm is all that tells what kind of key the octets are. -/
def IsUnnamed (x : Bytes) (f : EncodingFormat) : Prop :=
  ∃ der, wanted? x f = some der ∧ (∀ k, readPrivate der ≠ .ok k) ∧ IsBare der

theorem IsUnnamed.accepts_iff (h : IsUnnamed x f) :
    Accepts x f .privateKey a ↔ a = .rsa ∨ a = .dsa ∨ a = .ec := by
  obtain ⟨der, hwanted, hnamed, hbare⟩ := h
  have hany := readAny_of_wanted hwanted a .privateKey
  constructor
  · intro haccepts
    obtain ⟨k, hk⟩ := read_of_accepts haccepts
    have hread := (read_eq_ok_iff.mp hk).1
    rw [hany, readDer_eq_ok_iff] at hread
    rcases hread with hread | ⟨_, hread⟩
    · exact absurd hread (hnamed k)
    · exact (readBare_private_iff.mp ⟨k, hread⟩).2
  · intro ha
    obtain ⟨k, hk⟩ := readBare_private_iff.mpr ⟨hbare, ha⟩
    obtain ⟨halgorithm, htype, hencoding⟩ := readBare_eq_ok hk
    have hnone : ∃ e, readNamed der .privateKey = .error e := by
      cases hn : readNamed der .privateKey with
      | error e => exact ⟨e, rfl⟩
      | ok key => exact absurd hn (hnamed key)
    have hread : readAny x a .privateKey f = .ok k := by
      rw [hany]
      exact readDer_eq_ok_iff.mpr (.inr ⟨hnone, hk⟩)
    exact accepts_of_read (read_eq_ok_iff.mpr ⟨hread, halgorithm, htype⟩) (hencoding ▸ hbare.ne_nil)

/-- Two readings with the same answer are of the same algorithm; two with different answers both
went by the wanted one. -/
theorem eq_or_isUnnamed {b : KeyAlgorithm} (ha : Accepts x f t a) (hb : Accepts x f t b) :
    a = b ∨ t = .privateKey ∧ IsUnnamed x f := by
  obtain ⟨k, hk⟩ := read_of_accepts ha
  obtain ⟨l, hl⟩ := read_of_accepts hb
  obtain ⟨hk, rfl, htype⟩ := read_eq_ok_iff.mp hk
  obtain ⟨hl, rfl, _⟩ := read_eq_ok_iff.mp hl
  cases hw : wanted? x f with
  | none =>
      rw [readAny_of_not_wanted hw _ l.algorithm t, hl] at hk
      cases hk
      exact .inl rfl
  | some der =>
      rw [readAny_of_wanted hw, readDer_eq_ok_iff] at hk hl
      -- Whether the structure names its algorithm does not depend on what was wanted.
      rcases hk with hk | ⟨⟨e, he⟩, hk⟩ <;> rcases hl with hl | ⟨⟨e', he'⟩, hl⟩
      · cases hk.symm.trans hl
        exact .inl rfl
      · cases hk.symm.trans he'
      · cases he.symm.trans hl
      · cases t with
        | publicKey => exact .inl ((readBare_public hk).trans (readBare_public hl).symm)
        | privateKey =>
            have hbare := (readBare_private_iff.mp ⟨k, hk⟩).1
            have hnamed : ∀ key, readPrivate der ≠ .ok key := by
              intro key hkey
              cases he.symm.trans hkey
            exact .inr ⟨rfl, der, hw, hnamed, hbare⟩

/-- Octets are keys of two algorithms exactly when private keys are asked for and the octets, or
those of a block that is not what its label says, are a bare structure and no structure that names
its algorithm. They are then keys of RSA, DSA and EC, and of no other. -/
theorem accepted_twice_iff_unnamed (x : Bytes) (f : EncodingFormat) (t : KeyType) :
    ((∃ a b, a ≠ b ∧ Accepts x f t a ∧ Accepts x f t b) ↔ t = .privateKey ∧ IsUnnamed x f) ∧
    (t = .privateKey ∧ IsUnnamed x f →
      ∀ a, Accepts x f t a ↔ a = .rsa ∨ a = .dsa ∨ a = .ec) := by
  have hall : t = .privateKey ∧ IsUnnamed x f →
      ∀ a, Accepts x f t a ↔ a = .rsa ∨ a = .dsa ∨ a = .ec := by
    rintro ⟨rfl, h⟩ a
    exact h.accepts_iff
  refine ⟨⟨?_, ?_⟩, hall⟩
  · rintro ⟨a, b, hne, ha, hb⟩
    exact (eq_or_isUnnamed ha hb).resolve_left hne
  · intro h
    exact ⟨.rsa, .dsa, by decide, (hall h .rsa).mpr (.inl rfl), (hall h .dsa).mpr (.inr (.inl rfl))⟩

/-- A bare private key of RSA with the modulus 3233. -/
def bareRsa : Bytes :=
  [0x30, 0x1D, 0x02, 0x01, 0x00, 0x02, 0x02, 0x0C, 0xA1, 0x02, 0x01, 0x11, 0x02, 0x02, 0x0A, 0xC1,
    0x02, 0x01, 0x3D, 0x02, 0x01, 0x35, 0x02, 0x01, 0x35, 0x02, 0x01, 0x31, 0x02, 0x01, 0x26]

theorem bareRsa_accepted_as_dsa :
    ¬ ∀ (x : Bytes) (a b : KeyAlgorithm) (f : EncodingFormat) (t : KeyType),
      (ofData x a f t).isNull = false → (ofData x b f t).isNull = false → a = b := by
  intro h
  have hab := h bareRsa .rsa .dsa .der .privateKey rfl rfl
  cases hab

end NetKit.Key
