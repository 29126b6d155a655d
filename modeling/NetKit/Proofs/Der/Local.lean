import NetKit.Der
import NetKit.Proofs.Answers

/-!
# Readers look no further than they read

An element is read from the octets that it takes; what follows them has no say in it.
-/

namespace NetKit.Der

open Answer

variable {ε α : Type}

/-- A reader that takes octets off the front, and reads the same in front of any others. -/
def IsLocal (r : Bytes → Except ε (α × Bytes)) : Prop :=
  ∀ bs a rest, r bs = .ok (a, rest) →
    ∃ front, bs = front ++ rest ∧ ∀ more, r (front ++ more) = .ok (a, more)

theorem IsLocal.suffix {r : Bytes → Except ε (α × Bytes)} (hr : IsLocal r) {bs rest : Bytes} {a : α}
    (h : r bs = .ok (a, rest)) : rest <:+ bs := by
  obtain ⟨front, rfl, -⟩ := hr _ _ _ h
  exact List.suffix_append front rest

theorem isLocal_take (n : Nat) : IsLocal (take n) := by
  intro bs front rest h
  rw [take] at h
  split at h
  · rename_i hn
    cases h
    have hlen : (bs.take n).length = n := List.length_take_of_le hn
    refine ⟨bs.take n, (List.take_append_drop n bs).symm, fun more => ?_⟩
    rw [take, if_pos (by simp [hlen]), List.take_left' hlen, List.drop_left' hlen]
  · cases h

/-! ## Headers -/

theorem isLocal_readTag (n acc : Nat) : IsLocal (readTag n acc) := by
  intro bs tag rest h
  induction n generalizing acc bs with
  | zero => cases bs <;> cases h
  | succ n ih =>
    cases bs with
    | nil => cases h
    | cons b bs =>
      rw [readTag] at h
      split at h
      · rename_i hb
        cases h
        exact ⟨[b], rfl, fun more => if_pos hb⟩
      · rename_i hb
        obtain ⟨front, rfl, hfront⟩ := ih _ _ h
        exact ⟨b :: front, rfl, fun more => (if_neg hb).trans (hfront more)⟩

/-- The tag number of a header, whose first octet has been taken off. -/
def readTagAfter (b : UInt8) (bs : Bytes) : Except Fault (Nat × Bytes) :=
  if b.toNat % 32 = 31 then readTag maxTagDigits 0 bs else .ok (b.toNat % 32, bs)

theorem isLocal_readTagAfter (b : UInt8) : IsLocal (readTagAfter b) := by
  intro bs tag rest h
  simp only [readTagAfter] at h ⊢
  split at h
  · rename_i hb
    simp only [if_pos hb]
    exact isLocal_readTag _ _ _ _ _ h
  · rename_i hb
    cases h
    exact ⟨[], rfl, fun more => if_neg hb⟩

theorem isLocal_readLength : IsLocal readLength := by
  intro bs length rest h
  cases bs with
  | nil => cases h
  | cons b bs =>
    rw [readLength] at h
    split at h
    · rename_i hshort
      cases h
      exact ⟨[b], rfl, fun more => if_pos hshort⟩
    split at h
    · rename_i hshort hopen
      cases h
      exact ⟨[b], rfl, fun more => (if_neg hshort).trans (if_pos hopen)⟩
    split at h
    · cases h
    rename_i hshort hopen hlong
    obtain ⟨⟨digits, after⟩, htake, hdigits⟩ := bind_eq_ok.mp h
    obtain ⟨front, rfl, hfront⟩ := isLocal_take (b.toNat - 0x80) _ _ _ htake
    simp only at hdigits
    split at hdigits
    · rename_i hfits
      cases hdigits
      refine ⟨b :: front, rfl, fun more => ?_⟩
      rw [List.cons_append, readLength, if_neg hshort, if_neg hopen, if_neg hlong]
      refine bind_eq_ok.mpr ⟨_, hfront more, ?_⟩
      simp only [if_pos hfits]
      rfl
    · cases hdigits

theorem readHeader_cons (b : UInt8) (bs : Bytes) :
    readHeader (b :: bs) = readTagAfter b bs >>= fun p => readLength p.2 >>= fun q =>
      .ok (⟨classOf b, b.toNat / 32 % 2 == 1, p.1, q.1⟩, q.2) := by
  rw [readHeader, readTagAfter]
  split <;> rfl

theorem isLocal_readHeader : IsLocal readHeader := by
  intro bs header rest h
  cases bs with
  | nil => cases h
  | cons b bs =>
    rw [readHeader_cons] at h
    obtain ⟨⟨tag, after⟩, htag, h⟩ := bind_eq_ok.mp h
    obtain ⟨⟨length, rest'⟩, hlength, h⟩ := bind_eq_ok.mp h
    cases h
    obtain ⟨front, rfl, hfront⟩ := isLocal_readTagAfter b _ _ _ htag
    obtain ⟨middle, rfl, hmiddle⟩ := isLocal_readLength _ _ _ hlength
    refine ⟨b :: (front ++ middle), by simp, fun more => ?_⟩
    rw [List.cons_append, readHeader_cons, List.append_assoc]
    exact bind_eq_ok.mpr ⟨_, hfront _, bind_eq_ok.mpr ⟨_, hmiddle more, rfl⟩⟩

/-! ## Elements -/

theorem element_eq (bs : Bytes) : element bs = readHeader bs >>= fun p =>
    p.1.definite >>= fun n => (take n p.2).map fun q => (⟨p.1, q.1⟩, q.2) := rfl

/-- The header of an element tells how many octets make up the content, whatever they are. -/
theorem element_split {bs rest : Bytes} {e : Element} (h : element bs = .ok (e, rest)) :
    ∃ front, bs = front ++ (e.content ++ rest) ∧ ∀ more, element (front ++ more) =
      (take e.content.length more).map fun p => (⟨e.header, p.1⟩, p.2) := by
  rw [element_eq] at h
  obtain ⟨⟨header, after⟩, hheader, h⟩ := bind_eq_ok.mp h
  obtain ⟨n, hn, h⟩ := bind_eq_ok.mp h
  obtain ⟨⟨content, rest'⟩, htake, h⟩ := map_eq_ok.mp h
  cases h
  obtain ⟨front, rfl, hfront⟩ := isLocal_readHeader _ _ _ hheader
  rw [take] at htake
  split at htake
  · rename_i hlong
    cases htake
    refine ⟨front, by rw [List.take_append_drop], fun more => ?_⟩
    rw [element_eq, hfront more, List.length_take_of_le hlong]
    change header.definite >>= _ = _
    rw [hn]
    rfl
  · cases htake

theorem isLocal_element : IsLocal element := by
  intro bs e rest h
  obtain ⟨front, rfl, hfront⟩ := element_split h
  refine ⟨front ++ e.content, (List.append_assoc ..).symm, fun more => ?_⟩
  rw [List.append_assoc, hfront, take, if_pos (by simp), List.take_left, List.drop_left]
  rfl

/-- An element whose content lacks octets is none. -/
theorem element_of_short {front content : Bytes} {e : Element}
    (hfront : ∀ more, element (front ++ more) =
      (take e.content.length more).map fun p => (⟨e.header, p.1⟩, p.2))
    (h : content.length < e.content.length) : ∀ p, element (front ++ content) ≠ .ok p := by
  intro p hp
  rw [hfront, take, if_neg (by omega)] at hp
  cases hp

theorem tagged_eq_ok_iff {tag : Nat} {bs rest : Bytes} {e : Element} :
    tagged tag bs = .ok (e, rest) ↔ element bs = .ok (e, rest) ∧ e.tag = tag := by
  change (element bs >>= fun p => (if p.1.tag = tag then pure p.1 else
    throw (.unexpectedTag (some tag) p.1.tag) : Reader Fault Element) p.2) = _ ↔ _
  rw [bind_eq_ok]
  constructor
  · rintro ⟨⟨e', rest'⟩, helement, h⟩
    by_cases htag : e'.tag = tag
    · rw [if_pos htag] at h
      cases h
      exact ⟨helement, htag⟩
    · rw [if_neg htag] at h
      cases h
  · rintro ⟨helement, htag⟩
    refine ⟨_, helement, ?_⟩
    rw [if_pos htag]
    rfl

theorem isLocal_tagged (tag : Nat) : IsLocal (tagged tag) := by
  intro bs e rest h
  obtain ⟨helement, htag⟩ := tagged_eq_ok_iff.mp h
  obtain ⟨front, rfl, hfront⟩ := isLocal_element _ _ _ helement
  exact ⟨front, rfl, fun more => tagged_eq_ok_iff.mpr ⟨hfront more, htag⟩⟩

theorem within_eq_ok_iff {tag : Nat} {wrap : Fault → ε} {r : Reader ε α} {bs rest : Bytes} {a : α} :
    within tag wrap r bs = .ok (a, rest) ↔
      ∃ e left, tagged tag bs = .ok (e, rest) ∧ r e.content = .ok (a, left) := by
  rw [within]
  simp only [bind_eq_ok, mapError_eq_ok]
  constructor
  · rintro ⟨⟨e, after⟩, htagged, ⟨a', left⟩, hcontent, h⟩
    cases h
    exact ⟨e, left, htagged, hcontent⟩
  · rintro ⟨e, left, htagged, hcontent⟩
    exact ⟨_, htagged, _, hcontent, rfl⟩

/-- Whatever reads the content, nothing that follows the element is looked at. -/
theorem isLocal_within (tag : Nat) (wrap : Fault → ε) (r : Reader ε α) :
    IsLocal (within tag wrap r) := by
  intro bs a rest h
  obtain ⟨e, left, htagged, hcontent⟩ := within_eq_ok_iff.mp h
  obtain ⟨front, rfl, hfront⟩ := isLocal_tagged tag _ _ _ htagged
  exact ⟨front, rfl, fun more => within_eq_ok_iff.mpr ⟨e, left, hfront more, hcontent⟩⟩

/-! ## Values -/

theorem integer_eq_ok_iff {bs content rest : Bytes} : integer bs = .ok (content, rest) ↔
    ∃ e, tagged Tag.integer bs = .ok (e, rest) ∧ isShortest e.content = true ∧
      e.content = content := by
  change (tagged Tag.integer bs >>= fun p => (if isShortest p.1.content then pure p.1.content else
    throw .integerForm : Reader Fault Bytes) p.2) = _ ↔ _
  rw [bind_eq_ok]
  constructor
  · rintro ⟨⟨e, rest'⟩, htagged, h⟩
    by_cases hshortest : isShortest e.content = true
    · rw [if_pos hshortest] at h
      cases h
      exact ⟨e, htagged, hshortest, rfl⟩
    · rw [if_neg hshortest] at h
      cases h
  · rintro ⟨e, htagged, hshortest, rfl⟩
    refine ⟨_, htagged, ?_⟩
    rw [if_pos hshortest]
    rfl

theorem bitString_eq_ok_iff {bs content rest : Bytes} : bitString bs = .ok (content, rest) ↔
    ∃ e, tagged Tag.bitString bs = .ok (e, rest) ∧ e.header.constructed = false ∧
      bits e.content = .ok content := by
  change (tagged Tag.bitString bs >>= fun p => (if p.1.header.constructed then
    throw .constructUnexpected >>= fun (_ : PUnit) => liftM (bits p.1.content) else
      pure PUnit.unit >>= fun _ => liftM (bits p.1.content) : Reader Fault Bytes) p.2) = _ ↔ _
  rw [bind_eq_ok]
  constructor
  · rintro ⟨⟨e, rest'⟩, htagged, h⟩
    cases hconstructed : e.header.constructed with
    | true =>
      rw [if_pos hconstructed] at h
      cases h
    | false =>
      rw [if_neg (by simp [hconstructed])] at h
      obtain ⟨a, hbits, h⟩ := bind_eq_ok.mp h
      cases h
      exact ⟨e, htagged, hconstructed, hbits⟩
  · rintro ⟨e, htagged, hconstructed, hbits⟩
    refine ⟨_, htagged, ?_⟩
    rw [if_neg (by simp [hconstructed])]
    exact bind_eq_ok.mpr ⟨content, hbits, rfl⟩

end NetKit.Der
