import NetKit.Proofs.Key.Readers
import NetKit.Proofs.Pem.Encoded

/-!
# Which keys come back from their encodings

A key that has been read is read again from its own encoding and from its own text, but for three
kinds: a public key whose encoding has been cut, a private key whose bare structure can be taken for
one that names an algorithm, and a key whose text happens to spell the word for a passphrase.
-/

namespace NetKit

open Answer

/-- What is kept as the encoding ends with the key. It is read again unless something stands between
the key and the end of the sequence, and is no element then. -/
theorem PublicKeyInfo.reader_encoding {bs rest : Bytes} {info : PublicKeyInfo}
    (h : reader bs = .ok (info, rest)) :
    reader info.encoding = .ok (info, []) ∨ ∀ p, Der.element info.encoding ≠ .ok p := by
  obtain ⟨e, after, left, htagged, halgorithm, hkey, hencoding⟩ := reader_eq_ok_iff.mp h
  obtain ⟨helement, htag⟩ := Der.tagged_eq_ok_iff.mp htagged
  obtain ⟨front, rfl, hfront⟩ := Der.element_split helement
  have hleft : left.length ≤ e.content.length := by
    obtain ⟨bits, hbits, -⟩ := Der.bitString_eq_ok_iff.mp hkey
    have hafter := (Der.isLocal_within _ _ _).suffix halgorithm
    exact (((Der.isLocal_tagged _).suffix hbits).trans hafter).length_le
  have hkept : info.encoding = front ++ e.content.take (e.content.length - left.length) := by
    have hlength : (front ++ (e.content ++ rest)).length - rest.length - left.length =
        front.length + (e.content.length - left.length) := by
      simp only [List.length_append]
      omega
    rw [hencoding, hlength, List.take_length_add_append,
      List.take_append_of_le_length (Nat.sub_le ..)]
  rcases Nat.eq_zero_or_pos left.length with hnil | hpos
  · left
    obtain rfl := List.length_eq_zero_iff.mp hnil
    rw [List.length_nil, Nat.sub_zero, List.take_length] at hkept
    have hagain : Der.element info.encoding = .ok (e, []) := by
      rw [hkept, hfront, Der.take, if_pos (Nat.le_refl _), List.take_length, List.drop_length]
      rfl
    refine reader_eq_ok_iff.mpr
      ⟨e, after, [], Der.tagged_eq_ok_iff.mpr ⟨hagain, htag⟩, halgorithm, hkey, ?_⟩
    rw [List.length_nil, Nat.sub_zero, Nat.sub_zero, List.take_length]
  · right
    rw [hkept]
    refine Der.element_of_short hfront ?_
    rw [List.length_take]
    omega

namespace Key

open Der (Element Object)

variable {der x : Bytes} {a : KeyAlgorithm} {t : KeyType} {f : EncodingFormat} {k l : Key}

/-! ## Where keys come from -/

theorem ofData_eq_iff (h : k.isNull = false) : ofData x a f t = k ↔ read x a f t = .ok k := by
  rw [ofData]
  split
  · rename_i l hl
    rw [hl, Except.ok.injEq]
  · rename_i e he
    rw [he]
    refine ⟨?_, nofun⟩
    rintro rfl
    cases h

/-- How a key has been read: with the algorithm that its structure names, or as the bare structure
of its own. -/
inductive Origin (k : Key) : Prop where
  | info {bs rest : Bytes} {info : PublicKeyInfo} (hread : PublicKeyInfo.reader bs = .ok (info, rest))
      (hkey : ofPublicKeyInfo info = .ok k)
  | named (hread : readPrivate k.encoding = .ok k)
  | bare (hread : readBare k.encoding k.algorithm k.type = .ok k)

theorem ReadFrom.origin (h : ReadFrom der k) : k.Origin := by
  cases h with
  | info hread =>
    obtain ⟨info, rest, hinfo, hkey⟩ := readPublic_eq_ok_iff.mp hread
    exact .info hinfo hkey
  | named hread =>
    obtain ⟨-, rfl, -⟩ := readPrivate_eq_ok hread
    exact .named hread
  | bare hread =>
    obtain ⟨rfl, rfl, rfl⟩ := readBare_eq_ok hread
    exact .bare hread

theorem origin_of_ofData (hk : ofData x a f t = k) (h : k.isNull = false) :
    k.Origin ∧ k.algorithm = a ∧ k.type = t := by
  obtain ⟨hread, halgorithm, htype⟩ := read_eq_ok_iff.mp ((ofData_eq_iff h).mp hk)
  refine ⟨?_, halgorithm, htype⟩
  cases f with
  | pem =>
    obtain ⟨-, b, -, hfrom⟩ := readPem_eq_ok hread
    exact hfrom.origin
  | der => exact (readFrom_of_readDer hread).origin

/-! ## Labels -/

/-- The labels of the blocks that keys are written in. -/
def labels : List String :=
  ["PUBLIC KEY", "PRIVATE KEY", "RSA PUBLIC KEY", "RSA PRIVATE KEY", "DSA PRIVATE KEY",
    "EC PRIVATE KEY"]

theorem readBare_label (h : readBare der a t = .ok k) :
    k.label ∈ labels ∧ k.label ≠ "PRIVATE KEY" ∧ readBlock ⟨k.label, der⟩ = .ok k := by
  have hread := h
  unfold readBare at h
  split at h
  case h_5 => cases h
  all_goals
    obtain ⟨_, _, rfl⟩ := map_eq_ok.mp h
    exact ⟨by simp [labels], by simp, hread⟩

theorem Origin.label_mem (h : k.Origin) : k.label ∈ labels := by
  cases h with
  | info _ hkey =>
    rw [(ofPublicKeyInfo_eq_ok hkey).2.2]
    simp [labels]
  | named hread =>
    rw [(readPrivate_eq_ok hread).2.2]
    simp [labels]
  | bare hread => exact (readBare_label hread).1

/-- No label says that a passphrase is needed. -/
theorem isLabel_of_mem : ∀ l ∈ labels, Pem.IsLabel l.toList ∧
    ¬ encryptedMark <:+: Pem.beginLine l.toList ∧ ¬ encryptedMark <:+: Pem.endLine l.toList := by
  unfold Pem.IsLabel
  simp only [← Text.occursIn_iff]
  decide

/-! ## Keys that do not come back -/

/-- The encoding is no element: a public key that lost what stood behind it in its sequence. -/
def IsCut (k : Key) : Prop := ∀ p, Der.element k.encoding ≠ .ok p

/-- The encoding of a private key is also that of another key, in a structure that names its
algorithm. -/
def NamesAnother (k : Key) : Prop :=
  k.type = .privateKey ∧ ∃ l, l ≠ k ∧ readPrivate k.encoding = .ok l

/-- The word for a passphrase stands in the base 64 of the key. -/
def SaysEncrypted (k : Key) : Prop :=
  ∃ l ∈ Pem.innerLines k.encoding, encryptedMark <:+: l

/-- The second item of the encoding has the tag of a sequence, but not the class. -/
def HasForeignAlgorithm (k : Key) : Prop :=
  ∃ outer rest version items e last, Der.element k.encoding = .ok (outer, rest) ∧
    Der.element outer.content = .ok (version, items) ∧ Der.element items = .ok (e, last) ∧
    e.tag = Der.Tag.sequence ∧ e.header.tagClass ≠ .universal

theorem IsBare.second_class {outer version e : Element} {rest items last : Bytes}
    (h : IsBare der) (houter : Der.element der = .ok (outer, rest))
    (hversion : Der.element outer.content = .ok (version, items))
    (he : Der.element items = .ok (e, last)) (htag : e.tag = Der.Tag.sequence) :
    e.header.tagClass ≠ .universal := by
  obtain ⟨objects, content, hwhole, hsecond⟩ := h
  obtain ⟨outer', rest', houter', hobject, -⟩ := Object.whole_eq_ok_iff.mp hwhole
  cases houter.symm.trans houter'
  obtain ⟨-, -, -, es, hes, hobjects⟩ := Object.ofElement_eq_sequence_iff.mp hobject
  -- The content is not empty, nor is what follows the version, so there are two elements.
  obtain ⟨fuel, hfuel⟩ : ∃ fuel, outer.content.length = fuel + 1 := by
    cases hcontent : outer.content with
    | nil =>
      rw [hcontent] at hversion
      cases hversion
    | cons b bs => exact ⟨bs.length, rfl⟩
  rw [hfuel, Object.elements_of_element hversion] at hes
  obtain ⟨es', hes', rfl⟩ := map_eq_ok.mp hes
  cases fuel with
  | zero =>
    cases items with
    | nil => cases he
    | cons b bs => cases hes'
  | succ fuel =>
    rw [Object.elements_of_element he] at hes'
    obtain ⟨es'', -, rfl⟩ := map_eq_ok.mp hes'
    have hitem := congrArg (·[1]?) hobjects
    simp only [List.map_cons, List.getElem?_cons_succ, List.getElem?_cons_zero, List.getElem?_map,
      hsecond, Option.map_some, Option.some.injEq] at hitem
    exact Object.not_universal_of_octets htag hitem

theorem hasForeignAlgorithm_of_isBare (h : IsBare k.encoding) (hl : readPrivate k.encoding = .ok l) :
    k.HasForeignAlgorithm := by
  obtain ⟨id, key, _, _, hinfo, -⟩ := readPrivate_eq_ok_iff.mp hl
  obtain ⟨outer, rest, version, items, last, _, _, houter, -, hversion, hid, -⟩ :=
    privateKeyInfo_eq_ok_iff.mp hinfo
  obtain ⟨e, -, htagged, -⟩ := Der.within_eq_ok_iff.mp hid
  obtain ⟨he, htag⟩ := Der.tagged_eq_ok_iff.mp htagged
  exact ⟨outer, rest, version, items, e, last, houter, hversion, he, htag,
    h.second_class houter hversion he htag⟩

theorem Origin.hasForeignAlgorithm (h : k.Origin) (hk : k.NamesAnother) : k.HasForeignAlgorithm := by
  obtain ⟨htype, l, hne, hl⟩ := hk
  cases h with
  | info _ hkey => cases htype.symm.trans (ofPublicKeyInfo_eq_ok hkey).1
  | named hread =>
    cases hl.symm.trans hread
    exact absurd rfl hne
  | bare hread =>
    rw [htype] at hread
    exact hasForeignAlgorithm_of_isBare (readBare_private_iff.mp ⟨k, hread⟩).1 hl

/-! ## Reading again -/

theorem ReadFrom.not_isCut (h : ReadFrom k.encoding l) : ¬ k.IsCut := by
  intro hcut
  obtain ⟨p, hp⟩ := h.exists_element
  exact hcut p hp

/-- What was read from a structure that names its algorithm is read from the encoding again. -/
theorem readPublic_of_whole {bs rest : Bytes} {info : PublicKeyInfo}
    (hread : PublicKeyInfo.reader bs = .ok (info, rest)) (hkey : ofPublicKeyInfo info = .ok k)
    (hwhole : ¬ k.IsCut) : readPublic k.encoding = .ok k := by
  obtain ⟨-, hencoding, -⟩ := ofPublicKeyInfo_eq_ok hkey
  rw [IsCut, hencoding] at hwhole
  rw [hencoding]
  exact readPublic_eq_ok_iff.mpr
    ⟨info, [], (PublicKeyInfo.reader_encoding hread).resolve_right hwhole, hkey⟩

theorem Origin.readDer_iff (h : k.Origin) :
    readDer k.encoding k.algorithm k.type = .ok k ↔ ¬ k.IsCut ∧ ¬ k.NamesAnother := by
  constructor
  · intro hread
    refine ⟨(readFrom_of_readDer hread).not_isCut, ?_⟩
    rintro ⟨htype, l, hne, hl⟩
    rw [readDer_eq_ok_iff, htype] at hread
    rcases hread with hread | ⟨⟨e, he⟩, -⟩
    · cases hl.symm.trans hread
      exact hne rfl
    · cases hl.symm.trans he
  · rintro ⟨hwhole, hnames⟩
    refine readDer_eq_ok_iff.mpr ?_
    cases h with
    | info hread hkey =>
      rw [(ofPublicKeyInfo_eq_ok hkey).1]
      exact .inl (readPublic_of_whole hread hkey hwhole)
    | named hread =>
      rw [(readPrivate_eq_ok hread).1]
      exact .inl hread
    | bare hread =>
      refine .inr ⟨?_, hread⟩
      cases hnamed : readNamed k.encoding k.type with
      | error e => exact ⟨e, rfl⟩
      | ok l =>
        cases htype : k.type with
        | publicKey =>
          rw [htype] at hread hnamed
          exact absurd hnamed (readPublic_of_readBare hread)
        | privateKey =>
          rw [htype] at hnamed
          refine absurd ⟨htype, l, ?_, hnamed⟩ hnames
          rintro rfl
          exact (readBare_label hread).2.1 (readPrivate_eq_ok hnamed).2.2

theorem Origin.readBlock_of_whole (h : k.Origin) (hwhole : ¬ k.IsCut) :
    readBlock ⟨k.label, k.encoding⟩ = .ok k := by
  cases h with
  | info hread hkey =>
    rw [(ofPublicKeyInfo_eq_ok hkey).2.2]
    exact readPublic_of_whole hread hkey hwhole
  | named hread =>
    rw [(readPrivate_eq_ok hread).2.2]
    exact hread
  | bare hread => exact (readBare_label hread).2.2

theorem saysEncrypted_iff (hlabel : k.label ∈ labels) (h : k.isNull = false) :
    Text.occursIn encryptedMark (Utf8.decodeLossy (Utf8.encode k.pem)).toList = true ↔
      k.SaysEncrypted := by
  obtain ⟨-, hbegin, hend⟩ := isLabel_of_mem _ hlabel
  rw [Text.occursIn_iff, Utf8.toList_decodeLossy_encode, pem, h, if_neg Bool.false_ne_true,
    Pem.infix_encode_iff _ (by decide) (by decide)]
  simp only [hbegin, hend, false_or, or_false, SaysEncrypted]

theorem Origin.readPem_iff (horigin : k.Origin) (h : k.isNull = false) :
    readPem (Utf8.encode k.pem) k.algorithm k.type = .ok k ↔ ¬ k.IsCut ∧ ¬ k.SaysEncrypted := by
  have hblock : Pem.decode (Utf8.encode k.pem) = [.ok ⟨k.label, k.encoding⟩] := by
    rw [pem, h, if_neg Bool.false_ne_true]
    exact Pem.decode_encode _ (isLabel_of_mem _ horigin.label_mem).1
  have hmark := saysEncrypted_iff horigin.label_mem h
  constructor
  · intro hread
    obtain ⟨hplain, b, hb, hfrom⟩ := readPem_eq_ok hread
    rw [hblock, List.head?_cons] at hb
    cases hb
    exact ⟨hfrom.not_isCut, fun hsays => hplain (hmark.mpr hsays)⟩
  · rintro ⟨hwhole, hplain⟩
    rw [readPem, if_neg fun hoccurs => hplain (hmark.mp hoccurs), hblock]
    simp only [List.head?_cons, horigin.readBlock_of_whole hwhole]

/-- A key is read again from its encoding unless a public key was cut or a private key is taken for
another one, and from its text unless it was cut or the text speaks of a passphrase. Private keys
are taken for others only where the second item of the bare structure passes for an algorithm. -/
theorem reencoded_comes_back_iff (hk : ofData x a f t = k) (h : k.isNull = false) :
    (ofData k.encoding a .der t = k ↔ ¬ k.IsCut ∧ ¬ k.NamesAnother) ∧
    (ofData (Utf8.encode k.pem) a .pem t = k ↔ ¬ k.IsCut ∧ ¬ k.SaysEncrypted) ∧
    (k.NamesAnother → k.HasForeignAlgorithm) := by
  obtain ⟨horigin, rfl, rfl⟩ := origin_of_ofData hk h
  refine ⟨?_, ?_, horigin.hasForeignAlgorithm⟩
  · rw [ofData_eq_iff h, read_eq_ok_iff, ← horigin.readDer_iff]
    exact and_iff_left ⟨rfl, rfl⟩
  · rw [ofData_eq_iff h, read_eq_ok_iff, ← horigin.readPem_iff h]
    exact and_iff_left ⟨rfl, rfl⟩

theorem bareRsa_comes_back :
    (ofData bareRsa .rsa .der .privateKey).isNull = false ∧
    ofData bareRsa .rsa .der .privateKey = ⟨.rsa, .privateKey, 12, bareRsa, "RSA PRIVATE KEY"⟩ ∧
    ofData (Utf8.encode (Pem.encode ⟨"RSA PRIVATE KEY", bareRsa⟩)) .rsa .pem .privateKey =
      ⟨.rsa, .privateKey, 12, bareRsa, "RSA PRIVATE KEY"⟩ := by
  have hk : ofData bareRsa .rsa .der .privateKey =
      ⟨.rsa, .privateKey, 12, bareRsa, "RSA PRIVATE KEY"⟩ := rfl
  obtain ⟨hder, hpem, -⟩ := reencoded_comes_back_iff hk rfl
  refine ⟨rfl, hder.mpr ⟨fun hcut => hcut _ rfl, ?_⟩, hpem.mpr ⟨fun hcut => hcut _ rfl, ?_⟩⟩
  · rintro ⟨-, l, -, hl⟩
    cases hl
  · unfold SaysEncrypted
    simp only [← Text.occursIn_iff]
    decide

/-- A bare private key of a curve whose base 64 holds the word for a passphrase. -/
def unlucky : Bytes :=
  [0x30, 0x31, 0x02, 0x01, 0x01, 0x04, 0x20, 0x01, 0x01, 0x10, 0xD0, 0x91, 0x60, 0xF4, 0xC4, 0x0F,
    0x01, 0x01, 0x01, 0x01, 0x01, 0x01, 0x01, 0x01, 0x01, 0x01, 0x01, 0x01, 0x01, 0x01, 0x01, 0x01,
    0x01, 0x01, 0x01, 0x01, 0x01, 0x01, 0x01, 0xA0, 0x0A, 0x06, 0x08, 0x2A, 0x86, 0x48, 0xCE, 0x3D,
    0x03, 0x01, 0x07]

theorem unlucky_lost_in_text :
    ¬ ∀ (x : Bytes) (a : KeyAlgorithm) (f : EncodingFormat) (t : KeyType),
      (ofData x a f t).isNull = false →
        ofData (ofData x a f t).encoding a .der t = ofData x a f t ∧
        ofData (Utf8.encode (ofData x a f t).pem) a .pem t = ofData x a f t := by
  intro h
  have hnull : (ofData unlucky .ec .der .privateKey).isNull = false := rfl
  obtain ⟨horigin, -, -⟩ := origin_of_ofData rfl hnull
  have hagain := (ofData_eq_iff hnull).mp (h unlucky .ec .der .privateKey hnull).2
  have hplain := ((horigin.readPem_iff hnull).mp (read_eq_ok_iff.mp hagain).1).2
  refine hplain ⟨"MDECAQEEIAEBENCRYPTEDwEBAQEBAQEBAQEBAQEBAQEBAQEBAQEBoAoGCCqGSM49".toList, ?_, ?_⟩
  · decide
  · exact ⟨"MDECAQEEIAEB".toList, "wEBAQEBAQEBAQEBAQEBAQEBAQEBAQEBoAoGCCqGSM49".toList, by decide⟩

end Key

end NetKit
