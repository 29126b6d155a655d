import NetKit.Certificate
import NetKit.Proofs.Pem.Encoded

/-!
# What is loaded from a bundle

A bundle is a text of framed blocks one after the other. Blocks of another label, and blocks whose
contents are no certificate, are passed over; the first malformed block ends the bundle.
-/

namespace NetKit.Certificate

open Pem (Framed)
open String (utf8EncodeChar)

variable {fs : List Framed} {f : Framed}

/-- The certificate that a block holds. -/
def ofBlock? (b : Pem.Block) : Option Certificate :=
  if b.label = label then
    match readOne b.contents with
    | .ok (event, _) => event.certificate?
    | .error _ => none
  else none

def held? (f : Framed) : Option Certificate := f.block?.bind ofBlock?

theorem filterMap_readBlocks_ok (b : Pem.Block) (rs : List (Except Pem.Fault Pem.Block)) :
    (readBlocks (.ok b :: rs)).filterMap Event.certificate? =
      (ofBlock? b).toList ++ (readBlocks rs).filterMap Event.certificate? := by
  have hevent : ∀ (e : Event) (es : List Event), (e :: es).filterMap Event.certificate? =
      e.certificate?.toList ++ es.filterMap Event.certificate? := by
    intro e es
    rw [List.filterMap_cons]
    cases e.certificate? <;> rfl
  rw [readBlocks, hevent, ofBlock?]
  split
  · cases readOne b.contents <;> rfl
  · rfl

/-- The certificates of a bundle are those of its blocks up to the first malformed one. -/
theorem ofData_flatMap_octets (fs : List Framed) :
    ofData (fs.flatMap Framed.octets) .pem =
      (fs.takeWhile (·.block?.isSome)).flatMap fun f => (held? f).toList := by
  rw [ofData, events, Pem.decode, Framed.lines_flatMap_octets]
  induction fs with
  | nil => rw [List.flatMap_nil, Pem.read, readBlocks, List.filterMap_nil, List.takeWhile_nil,
      List.flatMap_nil]
  | cons f fs ih =>
    rw [List.flatMap_cons]
    cases hblock : f.block? with
    | some b =>
      rw [Framed.read_of_block? hblock, filterMap_readBlocks_ok, ih,
        List.takeWhile_cons_of_pos (by simp [hblock]), List.flatMap_cons]
      simp [held?, hblock]
    | none =>
      obtain ⟨fault, rs, hread⟩ := Framed.read_of_malformed hblock
        (fs.flatMap fun f => f.lines.map Pem.lineOf)
      rw [hread, List.takeWhile_cons_of_neg (by simp [hblock])]
      rfl

theorem ofData_octets (f : Framed) : ofData f.octets .pem = (held? f).toList := by
  have h := ofData_flatMap_octets [f]
  rw [List.flatMap_singleton] at h
  rw [h]
  cases hblock : f.block? with
  | some b => simp [hblock]
  | none => simp [held?, hblock]

/-- A bundle loads as far as its blocks are well formed: everything that they hold, one block at a
time, and nothing of the blocks after the first malformed one. It loads block by block exactly when
these hold no certificates. -/
theorem bundle_ends_at_malformed (fs : List Framed) :
    (∀ f : Framed, ofData f.octets .pem = (held? f).toList) ∧
    ofData (fs.flatMap Framed.octets) .pem =
      (fs.takeWhile (·.block?.isSome)).flatMap (fun f => ofData f.octets .pem) ∧
    (ofData (fs.flatMap Framed.octets) .pem = fs.flatMap (fun f => ofData f.octets .pem) ↔
      ∀ f ∈ fs.dropWhile (·.block?.isSome), ofData f.octets .pem = []) := by
  have hloaded : ofData (fs.flatMap Framed.octets) .pem =
      (fs.takeWhile (·.block?.isSome)).flatMap (fun f => ofData f.octets .pem) := by
    simp only [ofData_flatMap_octets, ofData_octets]
  have hsplit : fs.flatMap (fun f => ofData f.octets .pem) =
      (fs.takeWhile (·.block?.isSome)).flatMap (fun f => ofData f.octets .pem) ++
        (fs.dropWhile (·.block?.isSome)).flatMap (fun f => ofData f.octets .pem) := by
    rw [← List.flatMap_append, List.takeWhile_append_dropWhile]
  refine ⟨ofData_octets, hloaded, ?_⟩
  rw [hloaded, hsplit, List.self_eq_append_right, List.flatMap_eq_nil_iff]

/-! ## A bundle that is cut short -/

theorem isLabel_label : Pem.IsLabel label.toList := by
  simp [Pem.IsLabel, label]

/-- The octets of a certificate of the first version with empty names and a key that is not
known. -/
def smallest : Bytes := [
  0x30, 0x40,
    0x30, 0x36,
      0x02, 0x01, 0x01,
      0x30, 0x03, 0x06, 0x01, 0x2A,
      0x30, 0x00,
      0x30, 0x1E,
        0x17, 0x0D, 0x37, 0x30, 0x30, 0x31, 0x30, 0x31, 0x30, 0x30, 0x30, 0x30, 0x30, 0x30, 0x5A,
        0x17, 0x0D, 0x37, 0x30, 0x30, 0x31, 0x30, 0x31, 0x30, 0x30, 0x30, 0x30, 0x30, 0x30, 0x5A,
      0x30, 0x00,
      0x30, 0x08, 0x30, 0x03, 0x06, 0x01, 0x2A, 0x03, 0x01, 0x00,
    0x30, 0x03, 0x06, 0x01, 0x2A,
    0x03, 0x01, 0x00]

/-- A block whose body is not base 64. -/
def garbled : Framed where
  head := (Pem.beginLine label.toList).flatMap utf8EncodeChar
  inner := ["!!!!".toList].map (·.flatMap utf8EncodeChar)
  foot := (Pem.endLine label.toList).flatMap utf8EncodeChar
  begins := by decide
  goesOn := by decide
  ends := by decide
  single := by decide

/-- The malformed block in front takes the certificate after it along. -/
theorem bundle_cut_short :
    let intact := Pem.framed ⟨label, smallest⟩ isLabel_label
    ofData intact.octets .pem ≠ [] ∧
      ofData ([garbled, intact].flatMap Framed.octets) .pem = [] := by
  have hgarbled : garbled.block? = none := by
    have hbody : Base64.decode? (["!!!!".toList].flatMap (Text.dropWhileEnd Text.isBlank)) = none := by
      decide
    simp only [Framed.block?, garbled, Pem.lineOf_flatMap, Pem.mapM_lineOf,
      Pem.label?_beginLine isLabel_label.1, hbody, Option.bind_eq_bind, Option.bind_some,
      Option.bind_none]
  have hintact : (Pem.framed ⟨label, smallest⟩ isLabel_label).block? = some ⟨label, smallest⟩ :=
    Pem.block?_framed ..
  constructor
  · rw [ofData_octets, held?, hintact, Option.bind_some]
    decide +kernel
  · rw [ofData_flatMap_octets, List.takeWhile_cons_of_neg (by simp [hgarbled])]
    rfl

end NetKit.Certificate
