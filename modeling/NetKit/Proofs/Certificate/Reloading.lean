import NetKit.Bindings
import NetKit.Proofs.Certificate.Bundles
import NetKit.Proofs.Der.Local

/-!
# Certificates come back from their encodings

A certificate that has been loaded is read from its own encoding again, whatever follows this, so
that encodings one after the other are read as the certificates one after the other.
-/

namespace NetKit.Certificate

open Answer
open Pem (Framed)

variable {c : Certificate} {cs : List Certificate} {bs rest : Bytes} {event : Event}

/-- A certificate that is read from its own encoding, whatever follows. -/
structure Reloads (c : Certificate) : Prop where
  nonempty : c.encoding ≠ []
  again : ∃ remarks, ∀ more, readOne (c.encoding ++ more) = .ok (.loaded c remarks, more)

/-! ## One certificate -/

theorem isLocal_reader : Der.IsLocal reader := Der.isLocal_within _ _ _

theorem readOne_of_reader {b : Body} {front more : Bytes}
    (h : reader (front ++ more) = .ok (b, more)) :
    readOne (front ++ more) = .ok (.loaded (ofBody front b) (remarks b), more) := by
  have hfront : (front ++ more).take ((front ++ more).length - more.length) = front := by
    rw [List.length_append, Nat.add_sub_cancel, List.take_left]
  refine map_eq_ok.mpr ⟨_, h, ?_⟩
  simp only [hfront]

/-- What is read off the front has been read from nothing else, and keeps it as its encoding. -/
theorem reloads_of_readOne (h : readOne bs = .ok (event, rest)) :
    ∃ c remarks, event = .loaded c remarks ∧ Reloads c := by
  obtain ⟨⟨b, after⟩, hread, -⟩ := map_eq_ok.mp h
  obtain ⟨front, rfl, hfront⟩ := isLocal_reader _ _ _ hread
  rw [readOne_of_reader (hfront after)] at h
  cases h
  refine ⟨_, _, rfl, ?_, remarks b, fun more => readOne_of_reader (hfront more)⟩
  rintro (rfl : front = [])
  cases hfront []

theorem Reloads.isNull (h : Reloads c) : c.isNull = false :=
  List.isEmpty_eq_false_iff.mpr h.nonempty

/-! ## Where certificates come from -/

theorem readChain_succ (n : Nat) (h : bs ≠ []) :
    readChain (n + 1) bs = match readOne bs with
      | .error f => [.stopped f]
      | .ok (event, rest) => event :: readChain n rest := by
  cases bs with
  | nil => exact absurd rfl h
  | cons b bs => rfl

theorem reloads_of_mem_readChain {n : Nat} (h : event ∈ readChain n bs)
    (hc : event.certificate? = some c) : Reloads c := by
  induction n generalizing bs with
  | zero => cases bs <;> cases h
  | succ n ih =>
    have hbs : bs ≠ [] := by
      rintro rfl
      cases h
    rw [readChain_succ n hbs] at h
    split at h
    · obtain rfl := List.mem_singleton.mp h
      cases hc
    · rename_i event' rest hread
      rcases List.mem_cons.mp h with rfl | h
      · obtain ⟨c', remarks, rfl, hreloads⟩ := reloads_of_readOne hread
        cases hc
        exact hreloads
      · exact ih h

theorem reloads_of_ofBlock? {b : Pem.Block} (h : ofBlock? b = some c) : Reloads c := by
  rw [ofBlock?] at h
  split at h
  · split at h
    · rename_i hread
      obtain ⟨c', remarks, rfl, hreloads⟩ := reloads_of_readOne hread
      cases h
      exact hreloads
    · cases h
  · cases h

theorem reloads_of_mem_readBlocks {rs : List (Except Pem.Fault Pem.Block)}
    (h : c ∈ (readBlocks rs).filterMap Event.certificate?) : Reloads c := by
  induction rs with
  | nil => cases h
  | cons r rs ih =>
    cases r with
    | error f => cases h
    | ok b =>
      rw [filterMap_readBlocks_ok, List.mem_append, Option.mem_toList] at h
      exact h.elim reloads_of_ofBlock? ih

theorem reloads_of_mem_ofData {format : EncodingFormat} (h : c ∈ ofData bs format) : Reloads c := by
  cases format with
  | pem => exact reloads_of_mem_readBlocks h
  | der =>
    obtain ⟨event, hmem, hc⟩ := List.mem_filterMap.mp h
    exact reloads_of_mem_readChain hmem hc

/-- A certificate that has been read from some data, or from a file of some system. -/
inductive Loaded : Certificate → Prop
  | ofData {c : Certificate} (bs : Bytes) (format : EncodingFormat) :
      c ∈ Certificate.ofData bs format → Loaded c
  | ofFile {σ : Type} [Storage σ] {c : Certificate} (path : String) (format : EncodingFormat)
      (s : σ) : c ∈ Bindings.certificatesAt path format s → Loaded c

theorem Loaded.reloads (h : Loaded c) : Reloads c := by
  cases h with
  | ofData bs format h => exact reloads_of_mem_ofData h
  | ofFile path format s h =>
    rw [Bindings.certificatesAt] at h
    split at h
    · exact reloads_of_mem_ofData h
    · cases h

/-! ## One after the other -/

theorem readChain_flatMap {n : Nat} (h : ∀ c ∈ cs, Reloads c) (hn : cs.length ≤ n) :
    (readChain n (cs.flatMap encoding)).filterMap Event.certificate? = cs := by
  induction cs generalizing n with
  | nil => cases n <;> rfl
  | cons c cs ih =>
    rw [List.forall_mem_cons] at h
    obtain ⟨hnonempty, remarks, hagain⟩ := h.1
    -- each certificate costs one step, and there are steps for all of them
    obtain ⟨n, rfl⟩ : ∃ m, n = m + 1 := Nat.exists_eq_succ_of_ne_zero (by simp at hn; omega)
    rw [List.flatMap_cons, readChain_succ n (by simp [hnonempty]), hagain]
    have hevent : (Event.loaded c remarks).certificate? = some c := rfl
    simp only [List.filterMap_cons_some hevent, ih h.2 (Nat.le_of_succ_le_succ hn)]

/-- Every certificate takes up an octet at least. -/
theorem length_le_length_flatMap (h : ∀ c ∈ cs, Reloads c) :
    cs.length ≤ (cs.flatMap encoding).length := by
  induction cs with
  | nil => simp
  | cons c cs ih =>
    rw [List.forall_mem_cons] at h
    have hpos : 0 < c.encoding.length := List.length_pos_iff.mpr h.1.nonempty
    have hrest := ih h.2
    simp only [List.flatMap_cons, List.length_append, List.length_cons]
    omega

/-- The block that a certificate is written as. -/
def framed (c : Certificate) : Framed := Pem.framed ⟨label, c.encoding⟩ isLabel_label

theorem encode_pem (h : Reloads c) : c.encode .pem = c.framed.octets := by
  rw [encode, pem, h.isNull]
  exact (Pem.octets_framed ..).symm

theorem held?_framed (h : Reloads c) : held? c.framed = some c := by
  obtain ⟨remarks, hagain⟩ := h.again
  have hread := hagain []
  rw [List.append_nil] at hread
  rw [held?, framed, Pem.block?_framed, Option.bind_some, ofBlock?, if_pos rfl]
  simp only [hread]
  rfl

theorem ofData_flatMap_pem (h : ∀ c ∈ cs, Reloads c) :
    ofData (cs.flatMap (·.encode .pem)) .pem = cs := by
  have hoctets : cs.flatMap (·.encode .pem) = (cs.map framed).flatMap Framed.octets := by
    rw [List.flatMap_map]
    exact List.flatMap_congr fun c hc => encode_pem (h c hc)
  have hformed : ∀ f ∈ cs.map framed, f.block?.isSome = true := by
    intro f hf
    obtain ⟨c, -, rfl⟩ := List.mem_map.mp hf
    rw [framed, Pem.block?_framed]
    rfl
  rw [hoctets, ofData_flatMap_octets, List.takeWhile_eq_self_iff.mpr hformed, List.flatMap_map]
  have hheld : ∀ c ∈ cs, (held? c.framed).toList = [c] := by
    intro c hc
    rw [held?_framed (h c hc), Option.toList_some]
  rw [List.flatMap_congr hheld, List.flatMap_singleton']

theorem ofData_flatMap_der (h : ∀ c ∈ cs, Reloads c) :
    ofData (cs.flatMap (·.encode .der)) .der = cs :=
  readChain_flatMap h (length_le_length_flatMap h)

/-- Certificates that have been loaded, written one after the other in either format, are loaded
again: the same ones in the same order. -/
theorem written_then_loaded (h : ∀ c ∈ cs, Loaded c) (format : EncodingFormat) :
    ofData (cs.flatMap (·.encode format)) format = cs := by
  have hreloads : ∀ c ∈ cs, Reloads c := fun c hc => (h c hc).reloads
  cases format with
  | pem => exact ofData_flatMap_pem hreloads
  | der => exact ofData_flatMap_der hreloads

/-- What `smallest` is read as. -/
def smallestCertificate : Certificate :=
  { encoding := smallest, version := 1, serial := [1], selfSigned := true }

theorem smallest_twice_then_loaded :
    (∀ c ∈ [smallestCertificate, smallestCertificate], Loaded c) ∧
      ∀ format, ofData ([smallestCertificate, smallestCertificate].flatMap (·.encode format)) format =
        [smallestCertificate, smallestCertificate] := by
  have hloaded : Loaded smallestCertificate := .ofData smallest .der (by decide +kernel)
  have h : ∀ c ∈ [smallestCertificate, smallestCertificate], Loaded c := by
    simp [hloaded]
  exact ⟨h, written_then_loaded h⟩

end NetKit.Certificate
