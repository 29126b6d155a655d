import NetKit.Proofs.Der.Objects
import NetKit.Proofs.Key.Acceptance

/-!
# What the readers of keys take

Each reader told by the elements that it finds one after the other, and what all of them have in
common: the octets of a key are an element.
-/

namespace NetKit

open Answer

theorem PublicKeyInfo.reader_eq_ok_iff {bs rest : Bytes} {info : PublicKeyInfo} :
    reader bs = .ok (info, rest) ↔
      ∃ e after left, Der.tagged Der.Tag.sequence bs = .ok (e, rest) ∧
        AlgorithmIdentifier.reader e.content = .ok (info.algorithm, after) ∧
        Der.bitString after = .ok (info.key, left) ∧
        info.encoding = bs.take (bs.length - rest.length - left.length) := by
  rw [reader]
  simp only [bind_eq_ok, StateT.run, Der.Reader.lift, Der.Reader.orElse, mapError_eq_ok]
  constructor
  · rintro ⟨⟨e, rest'⟩, htagged, ⟨algorithm, after⟩, halgorithm, ⟨key, left⟩, hkey, h⟩
    cases h
    exact ⟨e, after, left, htagged, halgorithm, hkey, rfl⟩
  · rintro ⟨e, after, left, htagged, halgorithm, hkey, hencoding⟩
    refine ⟨_, htagged, _, halgorithm, _, hkey, ?_⟩
    rw [← hencoding]
    rfl

namespace Key

open Der (Object)

variable {der x : Bytes} {a : KeyAlgorithm} {t : KeyType} {k l : Key}

/-! ## Structures that name their algorithm -/

theorem ofPublicKeyInfo_eq_ok {info : PublicKeyInfo} (h : ofPublicKeyInfo info = .ok k) :
    k.type = .publicKey ∧ k.encoding = info.encoding ∧ k.label = "PUBLIC KEY" := by
  rw [ofPublicKeyInfo] at h
  simp only [bind_eq_ok] at h
  obtain ⟨_, -, _, -, h⟩ := h
  cases h
  exact ⟨rfl, rfl, rfl⟩

theorem readPublic_eq_ok_iff : readPublic der = .ok k ↔
    ∃ info rest, PublicKeyInfo.reader der = .ok (info, rest) ∧ ofPublicKeyInfo info = .ok k := by
  cases hread : PublicKeyInfo.reader der with
  | error f => simp [readPublic, StateT.run, hread]
  | ok p =>
    obtain ⟨info, rest⟩ := p
    simp [readPublic, StateT.run, hread]

theorem readPrivate_eq_ok_iff : readPrivate der = .ok k ↔
    ∃ id key algorithm length, privateKeyInfo der = .ok (id, key) ∧
      algorithmOf id.oid = .ok algorithm ∧ privateBits algorithm id key = .ok length ∧
      k = ⟨algorithm, .privateKey, length, der, "PRIVATE KEY"⟩ := by
  rw [readPrivate]
  simp only [bind_eq_ok]
  constructor
  · rintro ⟨⟨id, key⟩, hinfo, algorithm, halgorithm, length, hlength, h⟩
    cases h
    exact ⟨id, key, algorithm, length, hinfo, halgorithm, hlength, rfl⟩
  · rintro ⟨id, key, algorithm, length, hinfo, halgorithm, hlength, rfl⟩
    exact ⟨_, hinfo, algorithm, halgorithm, length, hlength, rfl⟩

theorem privateKeyInfo_eq_ok_iff {id : AlgorithmIdentifier} {key : Bytes} :
    privateKeyInfo der = .ok (id, key) ↔
      ∃ outer after version items last octets left, Der.element der = .ok (outer, after) ∧
        outer.tag = Der.Tag.sequence ∧ Der.element outer.content = .ok (version, items) ∧
        AlgorithmIdentifier.reader items = .ok (id, last) ∧ Der.element last = .ok (octets, left) ∧
        octets.tag = Der.Tag.octetString ∧ octets.content = key := by
  change (element der >>= fun p => if p.1.tag ≠ Der.Tag.sequence then .error .notPrivateKeyInfo else
    element p.1.content >>= fun q => (AlgorithmIdentifier.reader.run q.2).mapError .info >>= fun r =>
      element r.2 >>= fun s => if s.1.tag ≠ Der.Tag.octetString then .error .notPrivateKeyInfo else
        .ok (r.1, s.1.content)) = _ ↔ _
  simp only [bind_eq_ok, element, mapError_eq_ok]
  constructor
  · rintro ⟨⟨outer, after⟩, houter, h⟩
    split at h
    · cases h
    rename_i htag
    simp only [bind_eq_ok, mapError_eq_ok] at h
    obtain ⟨⟨version, items⟩, hversion, ⟨id', last⟩, hid, ⟨octets, left⟩, hoctets, h⟩ := h
    split at h
    · cases h
    rename_i hoctetString
    cases h
    exact ⟨outer, after, version, items, last, octets, left, houter, not_not.mp htag, hversion, hid,
      hoctets, not_not.mp hoctetString, rfl⟩
  · rintro ⟨outer, after, version, items, last, octets, left, houter, htag, hversion, hid, hoctets,
      hoctetString, rfl⟩
    refine ⟨_, houter, ?_⟩
    rw [if_neg (not_not.mpr htag)]
    simp only [bind_eq_ok, mapError_eq_ok]
    refine ⟨_, hversion, _, hid, _, hoctets, ?_⟩
    rw [if_neg (not_not.mpr hoctetString)]

theorem readPrivate_eq_ok (h : readPrivate der = .ok k) :
    k.type = .privateKey ∧ k.encoding = der ∧ k.label = "PRIVATE KEY" := by
  obtain ⟨_, _, _, _, -, -, -, rfl⟩ := readPrivate_eq_ok_iff.mp h
  exact ⟨rfl, rfl, rfl⟩

/-! ## Bare public keys -/

theorem rsaModulus_eq_ok_iff {bs rest modulus : Bytes} : rsaModulus bs = .ok (modulus, rest) ↔
    ∃ e after exponent left, Der.tagged Der.Tag.sequence bs = .ok (e, rest) ∧
      Der.integer e.content = .ok (modulus, after) ∧ Der.integer after = .ok (exponent, left) := by
  have hcontent (content left : Bytes) : ((do
      let modulus ← Der.integer
      discard Der.integer
      return modulus : Der.Reader Der.Fault Bytes) content = .ok (modulus, left)) ↔
      ∃ after exponent, Der.integer content = .ok (modulus, after) ∧
        Der.integer after = .ok (exponent, left) := by
    change (Der.integer content >>= fun p => (Der.integer p.2 >>= fun q => .ok ((), q.2)) >>=
      fun q => .ok (p.1, q.2)) = _ ↔ _
    simp only [bind_eq_ok]
    constructor
    · rintro ⟨⟨modulus, after⟩, hmodulus, _, ⟨⟨exponent, left⟩, hexponent, hq⟩, h⟩
      cases hq
      cases h
      exact ⟨after, exponent, hmodulus, hexponent⟩
    · rintro ⟨after, exponent, hmodulus, hexponent⟩
      exact ⟨_, hmodulus, _, ⟨_, hexponent, rfl⟩, rfl⟩
  rw [rsaModulus, Der.within_eq_ok_iff]
  constructor
  · rintro ⟨e, left, htagged, h⟩
    obtain ⟨after, exponent, hmodulus, hexponent⟩ := (hcontent _ _).mp h
    exact ⟨e, after, exponent, left, htagged, hmodulus, hexponent⟩
  · rintro ⟨e, after, exponent, left, htagged, hmodulus, hexponent⟩
    exact ⟨e, left, htagged, (hcontent _ _).mpr ⟨after, exponent, hmodulus, hexponent⟩⟩

theorem readBare_publicKey_eq_ok_iff : readBare der .rsa .publicKey = .ok k ↔
    ∃ modulus rest, rsaModulus der = .ok (modulus, rest) ∧
      k = ⟨.rsa, .publicKey, integerBits modulus, der, "RSA PUBLIC KEY"⟩ := by
  simp only [readBare, map_eq_ok, bind_eq_ok, mapError_eq_ok]
  constructor
  · rintro ⟨_, ⟨_, ⟨⟨modulus, rest⟩, hmodulus, rfl⟩, h⟩, rfl⟩
    cases h
    exact ⟨modulus, rest, hmodulus, rfl⟩
  · rintro ⟨modulus, rest, hmodulus, rfl⟩
    exact ⟨_, ⟨_, ⟨_, hmodulus, rfl⟩, rfl⟩, rfl⟩

/-- A bare public key is a sequence that begins with an integer. -/
theorem readBare_publicKey (h : readBare der a .publicKey = .ok k) :
    ∃ e rest modulus left, Der.element der = .ok (e, rest) ∧
      Der.tagged Der.Tag.integer e.content = .ok (modulus, left) := by
  obtain rfl := readBare_public h
  obtain ⟨modulus, rest, hmodulus, -⟩ := readBare_publicKey_eq_ok_iff.mp h
  obtain ⟨e, after, -, -, htagged, hinteger, -⟩ := rsaModulus_eq_ok_iff.mp hmodulus
  obtain ⟨e', hfirst, -⟩ := Der.integer_eq_ok_iff.mp hinteger
  exact ⟨e, rest, e', after, (Der.tagged_eq_ok_iff.mp htagged).1, hfirst⟩

/-- Where one public structure has the modulus the other has its algorithm. -/
theorem readPublic_of_readBare (h : readBare der a .publicKey = .ok k) : readPublic der ≠ .ok l := by
  intro hpublic
  obtain ⟨e, rest, modulus, left, helement, hinteger⟩ := readBare_publicKey h
  obtain ⟨info, rest', hread, -⟩ := readPublic_eq_ok_iff.mp hpublic
  obtain ⟨e', after, -, htagged, halgorithm, -⟩ := PublicKeyInfo.reader_eq_ok_iff.mp hread
  obtain ⟨id, -, hsequence, -⟩ := Der.within_eq_ok_iff.mp halgorithm
  cases helement.symm.trans (Der.tagged_eq_ok_iff.mp htagged).1
  obtain ⟨hid, hidTag⟩ := Der.tagged_eq_ok_iff.mp hsequence
  obtain ⟨hmodulus, hmodulusTag⟩ := Der.tagged_eq_ok_iff.mp hinteger
  cases hmodulus.symm.trans hid
  cases hmodulusTag.symm.trans hidTag

/-! ## All readers -/

/-- One of the readers takes the octets for the key. -/
inductive ReadFrom (der : Bytes) (k : Key) : Prop where
  | info (hread : readPublic der = .ok k)
  | named (hread : readPrivate der = .ok k)
  | bare {a : KeyAlgorithm} {t : KeyType} (hread : readBare der a t = .ok k)

theorem readFrom_of_readDer (h : readDer der a t = .ok k) : ReadFrom der k := by
  rcases readDer_eq_ok_iff.mp h with hnamed | ⟨-, hbare⟩
  · cases t with
    | publicKey => exact .info hnamed
    | privateKey => exact .named hnamed
  · exact .bare hbare

theorem readFrom_of_readBlock {b : Pem.Block} (h : readBlock b = .ok k) : ReadFrom b.contents k := by
  unfold readBlock at h
  split at h
  · exact .info h
  · exact .named h
  · exact .bare h
  · exact .bare h
  · exact .bare h
  · exact .bare h
  · cases h

theorem readPem_eq_ok (h : readPem x a t = .ok k) :
    ¬ Text.occursIn encryptedMark (Utf8.decodeLossy x).toList = true ∧
      ∃ b, (Pem.decode x).head? = some (.ok b) ∧ ReadFrom b.contents k := by
  unfold readPem at h
  split at h
  · cases h
  rename_i hplain
  refine ⟨hplain, ?_⟩
  split at h
  · cases h
  · cases h
  rename_i b hb
  refine ⟨b, hb, ?_⟩
  split at h
  · rename_i hread
    cases h
    exact readFrom_of_readBlock hread
  · cases h
  · exact readFrom_of_readDer h

theorem ReadFrom.exists_element (h : ReadFrom der k) : ∃ p, Der.element der = .ok p := by
  cases h with
  | info hread =>
    obtain ⟨info, rest, hinfo, -⟩ := readPublic_eq_ok_iff.mp hread
    obtain ⟨e, -, -, htagged, -⟩ := PublicKeyInfo.reader_eq_ok_iff.mp hinfo
    exact ⟨_, (Der.tagged_eq_ok_iff.mp htagged).1⟩
  | named hread =>
    obtain ⟨id, key, -, -, hinfo, -⟩ := readPrivate_eq_ok_iff.mp hread
    obtain ⟨outer, after, -, -, -, -, -, houter, -⟩ := privateKeyInfo_eq_ok_iff.mp hinfo
    exact ⟨_, houter⟩
  | @bare a t hread =>
    cases t with
    | publicKey =>
      obtain ⟨e, rest, -, -, helement, -⟩ := readBare_publicKey hread
      exact ⟨_, helement⟩
    | privateKey =>
      obtain ⟨items, content, hwhole, -⟩ := (readBare_private_iff.mp ⟨k, hread⟩).1
      obtain ⟨e, rest, helement, -⟩ := Object.whole_eq_ok_iff.mp hwhole
      exact ⟨_, helement⟩

end Key

end NetKit
