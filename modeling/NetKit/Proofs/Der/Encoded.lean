import NetKit.Der.Oid
import NetKit.Proofs.Der.Numbers
import NetKit.Proofs.Der.Objects

/-!
# Values and what is read of them

A value is written as its tag, the length of its content in the fewest octets, and the content.
Whatever follows, the element that was written is read, and as an object it has the values inside.
-/

namespace NetKit.Der

variable {n : Nat} {bs more : Bytes}

/-! ## Frames -/

/-- A length in the fewest octets. -/
def lengthOctets (n : Nat) : Bytes :=
  if n < 0x80 then [UInt8.ofNat n]
  else UInt8.ofNat (0x80 + (bigEndian n).length) :: bigEndian n

theorem readLength_lengthOctets (h : n < UInt64.size) :
    readLength (lengthOctets n ++ more) = .ok (some n, more) := by
  rw [lengthOctets]
  split
  · rename_i hshort
    have hn : (UInt8.ofNat n).toNat = n :=
      UInt8.toNat_ofNat_of_lt' (Nat.lt_trans hshort (by decide))
    have hfirst : UInt8.ofNat n < 0x80 := UInt8.lt_iff_toNat_lt.mpr (hn.symm ▸ hshort)
    rw [List.singleton_append, readLength, if_pos hfirst, hn]
  · rename_i hlong
    have hcount : (bigEndian n).length ≤ 8 := length_bigEndian_le_iff.mpr h
    have hpos : (bigEndian n).length ≠ 0 := by
      intro hnil
      rw [bigEndian_eq_nil (List.length_eq_zero_iff.mp hnil)] at hlong
      exact hlong (by decide)
    -- The first octet is none of those that stand for a length of one octet or for no length.
    have hcode : ∀ k ≤ 8, k ≠ 0 → ¬ UInt8.ofNat (0x80 + k) < 0x80 ∧ UInt8.ofNat (0x80 + k) ≠ 0x80 ∧
        UInt8.ofNat (0x80 + k) ≠ 0xFF ∧ (UInt8.ofNat (0x80 + k)).toNat - 0x80 = k := by decide
    obtain ⟨hshort, hopen, hrefused, hlength⟩ := hcode _ hcount hpos
    have htake : take (bigEndian n).length (bigEndian n ++ more) = .ok (bigEndian n, more) := by
      rw [take, if_pos (by simp), List.take_left, List.drop_left]
    rw [List.cons_append, readLength, if_neg hshort, if_neg hopen, if_neg hrefused, hlength, htake]
    change (if ofBigEndian (bigEndian n) < UInt64.size then _ else _) = _
    rw [ofBigEndian_bigEndian, if_pos h]
    rfl

/-- A tag of one octet, the length of the content, and the content. -/
def frame (first : UInt8) (content : Bytes) : Bytes :=
  first :: (lengthOctets content.length ++ content)

/-- The element in a frame. -/
def framed (first : UInt8) (content : Bytes) : Element where
  header := ⟨classOf first, first.toNat / 32 % 2 == 1, first.toNat % 32, some content.length⟩
  content := content

theorem element_frame {first : UInt8} (hfirst : first.toNat % 32 ≠ 31) (h : bs.length < UInt64.size) :
    element (frame first bs ++ more) = .ok (framed first bs, more) := by
  have hheader : readHeader (frame first bs ++ more) =
      .ok ((framed first bs).header, bs ++ more) := by
    rw [frame, List.cons_append, List.append_assoc, readHeader_cons, readTagAfter, if_neg hfirst]
    change readLength _ >>= _ = _
    rw [readLength_lengthOctets h]
    rfl
  rw [element_eq, hheader]
  change (take bs.length (bs ++ more)).map _ = _
  rw [take, if_pos (by simp), List.take_left, List.drop_left]
  rfl

/-! ## Values -/

/-- What keys are written with. -/
inductive Value where
  | integer (n : Nat)
  /-- A bit string of whole octets. -/
  | bitString (octets : Bytes)
  | octetString (octets : Bytes)
  | null
  | oid (octets : Oid)
  | sequence (items : List Value)
  /-- A structure with the first tag of the context's own class. -/
  | context (content : Bytes)

namespace Value

/-- The tag with its class. -/
def first : Value → UInt8
  | .integer _ => 0x02
  | .bitString _ => 0x03
  | .octetString _ => 0x04
  | .null => 0x05
  | .oid _ => 0x06
  | .sequence _ => 0x30
  | .context _ => 0xA0

mutual
def content : Value → Bytes
  | .integer n => integerOctets n
  | .bitString octets => 0 :: octets
  | .octetString octets => octets
  | .null => []
  | .oid octets => octets
  | .sequence items => encodeAll items
  | .context content => content

def encodeAll : List Value → Bytes
  | [] => []
  | v :: vs => frame v.first v.content ++ encodeAll vs
end

def encode (v : Value) : Bytes := frame v.first v.content

def tag : Value → Nat
  | .integer _ => Tag.integer
  | .bitString _ => Tag.bitString
  | .octetString _ => Tag.octetString
  | .null => Tag.null
  | .oid _ => Tag.oid
  | .sequence _ => Tag.sequence
  | .context _ => 0

def tagClass : Value → TagClass
  | .context _ => .contextSpecific
  | _ => .universal

def constructed : Value → Bool
  | .sequence _ => true
  | .context _ => true
  | _ => false

/-- What a value is read as. -/
def element (v : Value) : Element where
  header := ⟨v.tagClass, v.constructed, v.tag, some v.content.length⟩
  content := v.content

mutual
/-- What a value is as an object. -/
def object : Value → Object
  | .integer n => .octets (integerOctets n)
  | .bitString octets => .octets octets
  | .octetString octets => .octets octets
  | .null => .other
  | .oid _ => .other
  | .sequence items => .sequence (objects items)
  | .context content => .octets content

def objects : List Value → List Object
  | [] => []
  | v :: vs => v.object :: objects vs
end

mutual
/-- How deep a value is nested, itself counted. -/
def depth : Value → Nat
  | .sequence items => depthAll items + 1
  | _ => 1

def depthAll : List Value → Nat
  | [] => 0
  | v :: vs => max v.depth (depthAll vs)
end

variable {v : Value} {vs : List Value}

theorem first_eq (v : Value) : v.first.toNat % 32 = v.tag ∧ v.tag ≠ 31 ∧
    classOf v.first = v.tagClass ∧ (v.first.toNat / 32 % 2 == 1) = v.constructed := by
  cases v <;> refine ⟨?_, ?_, ?_, ?_⟩ <;> simp only [first, tag, tagClass, constructed] <;> decide

theorem element_encode (h : v.content.length < UInt64.size) :
    Der.element (v.encode ++ more) = .ok (v.element, more) := by
  obtain ⟨htag, hshort, hclass, hconstructed⟩ := v.first_eq
  rw [encode, element_frame (htag ▸ hshort) h, framed, htag, hclass, hconstructed]
  rfl

theorem element_encode_self (h : v.content.length < UInt64.size) :
    Der.element v.encode = .ok (v.element, []) := by
  rw [← List.append_nil v.encode]
  exact element_encode h

theorem encodeAll_cons (v : Value) (vs : List Value) :
    encodeAll (v :: vs) = v.encode ++ encodeAll vs := by
  rw [encodeAll, encode]

theorem encodeAll_singleton (v : Value) : encodeAll [v] = v.encode := by
  rw [encodeAll_cons, encodeAll, List.append_nil]

theorem length_content_lt (v : Value) : v.content.length < v.encode.length := by
  simp only [encode, frame, List.length_cons, List.length_append]
  omega

theorem length_le_encodeAll (vs : List Value) : vs.length ≤ (encodeAll vs).length := by
  induction vs with
  | nil => exact Nat.le_refl _
  | cons v vs ih =>
    have hv := v.length_content_lt
    rw [encodeAll_cons, List.length_append, List.length_cons]
    omega

theorem length_encode_of_mem (hv : v ∈ vs) : v.encode.length ≤ (encodeAll vs).length := by
  induction vs with
  | nil => cases hv
  | cons w vs ih =>
    rw [encodeAll_cons, List.length_append]
    rcases List.mem_cons.mp hv with rfl | hv
    · exact Nat.le_add_right ..
    · exact (ih hv).trans (Nat.le_add_left ..)

/-- Values fit where all of them do. -/
theorem length_content_of_mem (hv : v ∈ vs) (h : (encodeAll vs).length < UInt64.size) :
    v.content.length < UInt64.size :=
  v.length_content_lt.trans_le (length_encode_of_mem hv) |>.trans h

theorem elements_encodeAll {fuel : Nat} (hfuel : vs.length ≤ fuel)
    (h : (encodeAll vs).length < UInt64.size) :
    Object.elements fuel (encodeAll vs) = .ok (vs.map element) := by
  induction vs generalizing fuel with
  | nil => cases fuel <;> rfl
  | cons v vs ih =>
    obtain ⟨fuel, rfl⟩ := Nat.exists_eq_add_one.mpr (Nat.zero_lt_of_lt hfuel)
    rw [encodeAll_cons, List.length_append] at h
    have hv := v.length_content_lt
    rw [encodeAll_cons, Object.elements_of_element (element_encode (by omega)),
      ih (Nat.le_of_succ_le_succ hfuel) (by omega)]
    rfl

mutual
theorem ofElement_element : (v : Value) → {d : Nat} → v.depth ≤ d →
    v.content.length < UInt64.size → Object.ofElement d v.element = .ok v.object
  | .integer _, _ + 1, _, _ => rfl
  | .bitString _, _ + 1, _, _ => rfl
  | .octetString _, _ + 1, _, _ => rfl
  | .null, _ + 1, _, _ => rfl
  | .oid _, _ + 1, _, _ => rfl
  | .context _, _ + 1, _, _ => rfl
  | .sequence vs, d + 1, hd, h => by
    refine Object.ofElement_eq_sequence_iff.mpr ⟨rfl, rfl, rfl, vs.map element, ?_, ?_⟩
    · exact elements_encodeAll (length_le_encodeAll vs) h
    · exact map_ofElement_element vs (Nat.le_of_succ_le_succ hd) h

theorem map_ofElement_element : (vs : List Value) → {d : Nat} → depthAll vs ≤ d →
    (encodeAll vs).length < UInt64.size →
    (vs.map element).map (Object.ofElement d) = (objects vs).map .ok
  | [], _, _, _ => rfl
  | v :: vs, d, hd, h => by
    obtain ⟨hv, hvs⟩ := Nat.max_le.mp hd
    have hlength := v.length_content_lt
    rw [encodeAll_cons, List.length_append] at h
    rw [List.map_cons, List.map_cons, ofElement_element v hv (by omega),
      map_ofElement_element vs hvs (by omega), objects, List.map_cons]
end

/-! ## Readers -/

theorem tagged_encode (h : v.content.length < UInt64.size) :
    tagged v.tag (v.encode ++ more) = .ok (v.element, more) :=
  tagged_eq_ok_iff.mpr ⟨element_encode h, rfl⟩

theorem tagged_encode_self (h : v.content.length < UInt64.size) :
    tagged v.tag v.encode = .ok (v.element, []) :=
  tagged_eq_ok_iff.mpr ⟨element_encode_self h, rfl⟩

theorem integer_encode (h : (integer n).content.length < UInt64.size) :
    Der.integer ((integer n).encode ++ more) = .ok (integerOctets n, more) :=
  integer_eq_ok_iff.mpr ⟨_, tagged_encode h, isShortest_integerOctets n, rfl⟩

theorem bitString_encode (h : (bitString bs).content.length < UInt64.size) :
    Der.bitString ((bitString bs).encode ++ more) = .ok (bs, more) := by
  refine bitString_eq_ok_iff.mpr ⟨_, tagged_encode h, rfl, ?_⟩
  cases bs with
  | nil => rfl
  | cons b bs =>
    change bits (0 :: b :: bs) = _
    rw [bits, UInt8.toNat_zero, if_pos (Nat.zero_le _)]

theorem whole_encode (hdepth : v.depth ≤ maxDepth) (h : v.content.length < UInt64.size) :
    Object.whole v.encode = .ok (v.object, 0) :=
  Object.whole_eq_ok_iff.mpr
    ⟨v.element, [], element_encode_self h, ofElement_element v hdepth h, rfl⟩

end Value

end NetKit.Der
