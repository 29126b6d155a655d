import NetKit.Proofs.Der.Encoded
import NetKit.Proofs.Key.Readers
import NetKit.Proofs.Key.Sizes

/-!
# Keys of RSA

A key is written bare or with its algorithm, its public half or all of it. In each structure it is
read with the binary digits of its modulus.
-/

namespace NetKit

open Answer
open Der (Value)

/-- A prime after the first two, with what belongs to it. -/
structure RsaPrime where
  prime : Nat
  exponent : Nat
  coefficient : Nat

/-- The numbers of a private key; the first two are those of its public key. -/
structure RsaKey where
  modulus : Nat
  publicExponent : Nat
  privateExponent : Nat
  prime1 : Nat
  prime2 : Nat
  exponent1 : Nat
  exponent2 : Nat
  coefficient : Nat
  otherPrimes : List RsaPrime := []

/-- The structures that a key is written in. -/
inductive RsaKey.Container where
  /-- A public key with its algorithm. -/
  | publicInfo
  | barePublic
  | barePrivate
  /-- A private key with its algorithm, and maybe attributes. -/
  | privateInfo (attributes : Option Bytes)

def RsaKey.Container.type : RsaKey.Container → KeyType
  | .publicInfo | .barePublic => .publicKey
  | .barePrivate | .privateInfo _ => .privateKey

namespace RsaPrime

def value (p : RsaPrime) : Value :=
  .sequence [.integer p.prime, .integer p.exponent, .integer p.coefficient]

theorem depthAll_map_value (ps : List RsaPrime) : Value.depthAll (ps.map value) ≤ 2 := by
  induction ps with
  | nil => exact Nat.zero_le _
  | cons p ps ih => exact Nat.max_le.mpr ⟨Nat.le_refl _, ih⟩

end RsaPrime

namespace RsaKey

def algorithm : Value := .sequence [.oid Key.rsaOid, .null]

def publicValue (k : RsaKey) : Value := .sequence [.integer k.modulus, .integer k.publicExponent]

/-- Keys of more than two primes have another version. -/
def version (k : RsaKey) : Nat := if k.otherPrimes.isEmpty then 0 else 1

def otherItems (k : RsaKey) : List Value :=
  if k.otherPrimes.isEmpty then [] else [.sequence (k.otherPrimes.map RsaPrime.value)]

def privateValue (k : RsaKey) : Value :=
  .sequence (.integer k.version :: .integer k.modulus :: .integer k.publicExponent ::
    .integer k.privateExponent :: .integer k.prime1 :: .integer k.prime2 :: .integer k.exponent1 ::
    .integer k.exponent2 :: .integer k.coefficient :: k.otherItems)

/-- The key in a structure. -/
def value (k : RsaKey) : Container → Value
  | .publicInfo => .sequence [algorithm, .bitString k.publicValue.encode]
  | .barePublic => k.publicValue
  | .barePrivate => k.privateValue
  | .privateInfo attributes =>
    .sequence (.integer 0 :: algorithm :: .octetString k.privateValue.encode ::
      (attributes.map Value.context).toList)

variable {k : RsaKey}

theorem depth_privateValue (k : RsaKey) : k.privateValue.depth ≤ 4 := by
  have hothers : Value.depthAll k.otherItems ≤ 3 := by
    rw [otherItems]
    split
    · exact Nat.zero_le _
    · exact Nat.max_le.mpr
        ⟨Nat.succ_le_succ (RsaPrime.depthAll_map_value _), Nat.zero_le _⟩
  simp only [privateValue, Value.depth, Value.depthAll]
  omega

theorem algorithmReader_encode (more : Bytes) :
    AlgorithmIdentifier.reader (algorithm.encode ++ more) =
      .ok (⟨Key.rsaOid, some Value.null.element⟩, more) := by
  have hread : AlgorithmIdentifier.reader algorithm.encode =
      .ok (⟨Key.rsaOid, some Value.null.element⟩, []) := rfl
  obtain ⟨front, hfront, hmore⟩ := Der.isLocal_within _ _ _ _ _ _ hread
  rw [hfront, List.append_nil]
  exact hmore more

/-! ## Numbers -/

theorem rsaModulus_encode (h : k.publicValue.content.length < UInt64.size) :
    Key.rsaModulus k.publicValue.encode = .ok (Der.integerOctets k.modulus, []) := by
  refine Key.rsaModulus_eq_ok_iff.mpr ⟨k.publicValue.element, (Value.integer k.publicExponent).encode,
    Der.integerOctets k.publicExponent, [], ?_, ?_, ?_⟩
  · exact Value.tagged_encode_self h
  · change Der.integer (Value.encodeAll [.integer k.modulus, .integer k.publicExponent]) = _
    rw [Value.encodeAll_cons, Value.encodeAll_singleton]
    exact Value.integer_encode (Value.length_content_of_mem (by simp) h)
  · rw [← List.append_nil (Value.integer k.publicExponent).encode]
    exact Value.integer_encode (Value.length_content_of_mem (by simp) h)

theorem secondItemBits_encode (h : k.privateValue.content.length < UInt64.size) :
    Key.secondItemBits k.privateValue.encode = .ok k.modulus.size := by
  have hdepth : k.privateValue.depth ≤ Der.maxDepth := k.depth_privateValue.trans (by decide)
  have hsecond : Key.secondItem k.privateValue.encode .truncated =
      .ok (Der.integerOctets k.modulus) :=
    Key.secondItem_eq_ok_iff.mpr ⟨_, Value.whole_encode hdepth h, rfl⟩
  rw [Key.secondItemBits, hsecond, ← Key.integerBits_integerOctets]
  rfl

/-! ## Structures -/

theorem readPublic_publicInfo (h : (k.value .publicInfo).content.length < UInt64.size) :
    Key.readPublic (k.value .publicInfo).encode =
      .ok ⟨.rsa, .publicKey, k.modulus.size, (k.value .publicInfo).encode, "PUBLIC KEY"⟩ := by
  have hbits := Value.length_content_of_mem (v := .bitString k.publicValue.encode) (by simp) h
  have hkey := rsaModulus_encode (k.publicValue.length_content_lt.trans
    (Nat.lt_of_succ_lt hbits))
  refine Key.readPublic_eq_ok_iff.mpr ⟨⟨⟨Key.rsaOid, some Value.null.element⟩, k.publicValue.encode,
    (k.value .publicInfo).encode⟩, [], ?_, ?_⟩
  · refine PublicKeyInfo.reader_eq_ok_iff.mpr ⟨(k.value .publicInfo).element,
      (Value.bitString k.publicValue.encode).encode, [], Value.tagged_encode_self h, ?_, ?_, ?_⟩
    · change AlgorithmIdentifier.reader (Value.encodeAll [algorithm, _]) = _
      rw [Value.encodeAll_cons, Value.encodeAll_singleton]
      exact algorithmReader_encode _
    · rw [← List.append_nil (Value.bitString k.publicValue.encode).encode]
      exact Value.bitString_encode hbits
    · simp
  · have hlength : Key.publicBits .rsa ⟨⟨Key.rsaOid, some Value.null.element⟩, k.publicValue.encode,
        (k.value .publicInfo).encode⟩ = .ok k.modulus.size := by
      rw [Key.publicBits, if_pos rfl, StateT.run, hkey, ← Key.integerBits_integerOctets]
    exact bind_eq_ok.mpr ⟨.rsa, rfl, bind_eq_ok.mpr ⟨_, hlength, rfl⟩⟩

theorem readBare_barePublic (h : k.publicValue.content.length < UInt64.size) :
    Key.readBare k.publicValue.encode .rsa .publicKey =
      .ok ⟨.rsa, .publicKey, k.modulus.size, k.publicValue.encode, "RSA PUBLIC KEY"⟩ := by
  refine Key.readBare_publicKey_eq_ok_iff.mpr ⟨_, _, rsaModulus_encode h, ?_⟩
  rw [Key.integerBits_integerOctets]

theorem readBare_barePrivate (h : k.privateValue.content.length < UInt64.size) :
    Key.readBare k.privateValue.encode .rsa .privateKey =
      .ok ⟨.rsa, .privateKey, k.modulus.size, k.privateValue.encode, "RSA PRIVATE KEY"⟩ := by
  simp only [Key.readBare, map_eq_ok, bind_eq_ok]
  exact ⟨_, ⟨_, secondItemBits_encode h, rfl⟩, rfl⟩

/-- Where the other private structure has its algorithm the bare one has the modulus. -/
theorem readPrivate_barePrivate (h : k.privateValue.content.length < UInt64.size) (l : Key) :
    Key.readPrivate k.privateValue.encode ≠ .ok l := by
  intro hread
  obtain ⟨id, key, -, -, hinfo, -⟩ := Key.readPrivate_eq_ok_iff.mp hread
  obtain ⟨outer, after, version, items, last, -, -, houter, -, hversion, hid, -⟩ :=
    Key.privateKeyInfo_eq_ok_iff.mp hinfo
  cases (Value.element_encode_self h).symm.trans houter
  have hfirst : Der.element k.privateValue.content = _ :=
    Value.element_encode (Value.length_content_of_mem List.mem_cons_self h)
  cases hfirst.symm.trans hversion
  obtain ⟨e, -, htagged, -⟩ := Der.within_eq_ok_iff.mp hid
  obtain ⟨he, htag⟩ := Der.tagged_eq_ok_iff.mp htagged
  rw [Value.encodeAll_cons, Value.element_encode
    (Value.length_content_of_mem (List.mem_cons_of_mem _ List.mem_cons_self) h)] at he
  cases he
  cases htag

theorem privateKeyInfo_privateInfo {attributes : Option Bytes}
    (h : (k.value (.privateInfo attributes)).content.length < UInt64.size) :
    Key.privateKeyInfo (k.value (.privateInfo attributes)).encode =
      .ok (⟨Key.rsaOid, some Value.null.element⟩, k.privateValue.encode) := by
  have hversion := Value.length_content_of_mem (v := .integer 0) (by simp) h
  have hkey := Value.length_content_of_mem (v := .octetString k.privateValue.encode) (by simp) h
  have hfirst : Der.element (k.value (.privateInfo attributes)).content =
      .ok ((Value.integer 0).element, algorithm.encode ++
        ((Value.octetString k.privateValue.encode).encode ++
          Value.encodeAll (attributes.map Value.context).toList)) := by
    simp only [value, Value.content, Value.encodeAll_cons]
    exact Value.element_encode hversion
  exact Key.privateKeyInfo_eq_ok_iff.mpr ⟨_, [], _, _, _, _, _, Value.element_encode_self h, rfl,
    hfirst, algorithmReader_encode _, Value.element_encode hkey, rfl, rfl⟩

theorem readPrivate_privateInfo {attributes : Option Bytes}
    (h : (k.value (.privateInfo attributes)).content.length < UInt64.size) :
    Key.readPrivate (k.value (.privateInfo attributes)).encode =
      .ok ⟨.rsa, .privateKey, k.modulus.size, (k.value (.privateInfo attributes)).encode,
        "PRIVATE KEY"⟩ := by
  have hkey := Value.length_content_of_mem (v := .octetString k.privateValue.encode) (by simp) h
  exact Key.readPrivate_eq_ok_iff.mpr ⟨_, _, .rsa, k.modulus.size, privateKeyInfo_privateInfo h, rfl,
    secondItemBits_encode (k.privateValue.length_content_lt.trans hkey), rfl⟩

/-! ## Sizes -/

theorem readDer_encode (k : RsaKey) (c : Container)
    (h : (k.value c).encode.length < UInt64.size) :
    ∃ label, Key.readDer (k.value c).encode .rsa c.type =
      .ok ⟨.rsa, c.type, k.modulus.size, (k.value c).encode, label⟩ := by
  have hcontent := (k.value c).length_content_lt.trans h
  simp only [Key.readDer_eq_ok_iff]
  cases c with
  | publicInfo => exact ⟨_, .inl (readPublic_publicInfo hcontent)⟩
  | privateInfo attributes => exact ⟨_, .inl (readPrivate_privateInfo hcontent)⟩
  | barePublic =>
    have hbare := readBare_barePublic hcontent
    refine ⟨_, .inr ⟨?_, hbare⟩⟩
    rw [exists_error_iff]
    rintro ⟨l, hl⟩
    exact Key.readPublic_of_readBare hbare hl
  | barePrivate =>
    refine ⟨_, .inr ⟨?_, readBare_barePrivate hcontent⟩⟩
    rw [exists_error_iff]
    rintro ⟨l, hl⟩
    exact readPrivate_barePrivate hcontent l hl

theorem length_modulus_lt (k : RsaKey) (c : Container) :
    (Der.integerOctets k.modulus).length < (k.value c).encode.length := by
  have hmodulus := (Value.integer k.modulus).length_content_lt
  have hpublic : (Value.integer k.modulus).encode.length ≤ k.publicValue.content.length :=
    Value.length_encode_of_mem (by simp)
  have hprivate : (Value.integer k.modulus).encode.length ≤ k.privateValue.content.length :=
    Value.length_encode_of_mem (by simp)
  have hbarePublic := k.publicValue.length_content_lt
  have hbarePrivate := k.privateValue.length_content_lt
  have hcontent := (k.value c).length_content_lt
  simp only [Value.content] at hmodulus
  cases c with
  | barePublic => exact hmodulus.trans_le (hpublic.trans hbarePublic.le)
  | barePrivate => exact hmodulus.trans_le (hprivate.trans hbarePrivate.le)
  | publicInfo =>
    have hbits := (Value.bitString k.publicValue.encode).length_content_lt
    have hitem : (Value.bitString k.publicValue.encode).encode.length ≤
        (k.value .publicInfo).content.length := Value.length_encode_of_mem (by simp)
    simp only [Value.content, List.length_cons] at hbits
    omega
  | privateInfo attributes =>
    have hoctets := (Value.octetString k.privateValue.encode).length_content_lt
    have hitem : (Value.octetString k.privateValue.encode).encode.length ≤
        (k.value (.privateInfo attributes)).content.length := Value.length_encode_of_mem (by simp)
    simp only [Value.content] at hoctets
    omega

/-- In each structure of no more octets than 64 bits can count, a key is read with as many bits as
its modulus has binary digits. In a word of 32 bits with a sign that is what `integerBits32` counts,
and up to 256 MiB the exact number. -/
theorem length_is_size_of_modulus (k : RsaKey) (c : Container)
    (h : (k.value c).encode.length < UInt64.size) :
    (Key.ofData (k.value c).encode .rsa .der c.type).isNull = false ∧
    (Key.ofData (k.value c).encode .rsa .der c.type).length = k.modulus.size ∧
    Int32.ofInt (Key.ofData (k.value c).encode .rsa .der c.type).length =
      Key.integerBits32 (Der.integerOctets k.modulus) ∧
    ((k.value c).encode.length ≤ 2 ^ 28 → k.modulus.size < 2 ^ 31 ∧
      (Int32.ofInt (Key.ofData (k.value c).encode .rsa .der c.type).length).toInt =
        k.modulus.size) := by
  obtain ⟨label, hread⟩ := readDer_encode k c h
  have hkey : Key.ofData (k.value c).encode .rsa .der c.type =
      ⟨.rsa, c.type, k.modulus.size, (k.value c).encode, label⟩ := by
    have hany : Key.readAny (k.value c).encode .rsa c.type .der = _ := hread
    rw [Key.ofData, Key.read_eq_ok_iff.mpr ⟨hany, rfl, rfl⟩]
  rw [hkey]
  refine ⟨rfl, rfl, ?_, ?_⟩
  · rw [Int32.ofInt_eq_ofNat, Key.integerBits32_eq_ofNat, Key.integerBits_integerOctets]
  · intro hshort
    have hsize := Key.size_le_integerOctets k.modulus
    have hlength := length_modulus_lt k c
    have hfits : k.modulus.size < 2 ^ 31 := by omega
    rw [Int32.ofInt_eq_ofNat]
    exact ⟨hfits, Int32.toInt_ofNat_of_lt hfits⟩

/-- The key in `bareRsa`. -/
def small : RsaKey where
  modulus := 3233
  publicExponent := 17
  privateExponent := 2753
  prime1 := 61
  prime2 := 53
  exponent1 := 53
  exponent2 := 49
  coefficient := 38

theorem length_of_bareRsa :
    (small.value .barePrivate).encode = Key.bareRsa ∧
    (Key.ofData Key.bareRsa .rsa .der .privateKey).isNull = false ∧
    (Key.ofData Key.bareRsa .rsa .der .privateKey).length = 12 ∧
    (Int32.ofInt (Key.ofData Key.bareRsa .rsa .der .privateKey).length).toInt = 12 := by
  have hencode : (small.value .barePrivate).encode = Key.bareRsa := by decide
  have hfits : Key.bareRsa.length < UInt64.size := by decide
  obtain ⟨hnull, hlength, -, hword⟩ := length_is_size_of_modulus small .barePrivate (hencode ▸ hfits)
  rw [hencode] at hnull hlength hword
  exact ⟨hencode, hnull, hlength, (hword (by decide)).2⟩

end RsaKey

end NetKit
