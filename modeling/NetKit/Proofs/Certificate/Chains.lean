import NetKit.Proofs.Certificate.Reloading

/-!
# Reading to the end of a chain

Certificates one after the other are read until nothing is left or what is left begins with no
certificate. Every certificate takes its own octets off the front, so that reading ends, and what
has been read and what is left make up the whole.
-/

namespace NetKit.Certificate

open Answer

variable {c : Certificate} {bs rest left left' : Bytes} {event : Event} {es es' : List Event}

/-- Reading that comes to an end, with no bound on the number of its steps: what happens on the way,
and what is left over. -/
inductive Ends : Bytes → List Event → Bytes → Prop
  | empty : Ends [] [] []
  | stopped {bs : Bytes} {f : Fault} :
      bs ≠ [] → readOne bs = .error f → Ends bs [.stopped f] bs
  | next {bs rest left : Bytes} {event : Event} {es : List Event} :
      bs ≠ [] → readOne bs = .ok (event, rest) → Ends rest es left → Ends bs (event :: es) left

/-! ## One step -/

theorem encoding_append_of_readOne (h : readOne bs = .ok (event, rest)) :
    ∃ c, event.certificate? = some c ∧ c.isNull = false ∧ bs = c.encoding ++ rest := by
  obtain ⟨c, remarks, rfl, hreloads⟩ := reloads_of_readOne h
  obtain ⟨⟨b, after⟩, hread, h⟩ := map_eq_ok.mp h
  cases h
  obtain ⟨front, rfl, -⟩ := isLocal_reader _ _ _ hread
  refine ⟨_, rfl, hreloads.isNull, ?_⟩
  simp only [ofBody, List.length_append, Nat.add_sub_cancel, List.take_left]

theorem length_lt_of_readOne (h : readOne bs = .ok (event, rest)) : rest.length < bs.length := by
  obtain ⟨c, -, hnull, rfl⟩ := encoding_append_of_readOne h
  have hpos : 0 < c.encoding.length := List.length_pos_iff.mpr (List.isEmpty_eq_false_iff.mp hnull)
  rw [List.length_append]
  omega

/-! ## All steps -/

/-- As many steps as there are octets are enough. -/
theorem ends_readChain {n : Nat} (h : bs.length ≤ n) : ∃ left, Ends bs (readChain n bs) left := by
  induction n generalizing bs with
  | zero =>
    obtain rfl := List.length_eq_zero_iff.mp (Nat.le_zero.mp h)
    exact ⟨[], .empty⟩
  | succ n ih =>
    by_cases hbs : bs = []
    · subst hbs
      exact ⟨[], .empty⟩
    · rw [readChain_succ n hbs]
      cases hread : readOne bs with
      | error f => exact ⟨bs, .stopped hbs hread⟩
      | ok p =>
        obtain ⟨event, rest⟩ := p
        have hshorter := length_lt_of_readOne hread
        have hfits : rest.length ≤ n := by omega
        obtain ⟨left, hleft⟩ := ih hfits
        exact ⟨left, .next hbs hread hleft⟩

theorem Ends.unique (h : Ends bs es left) (h' : Ends bs es' left') : es = es' ∧ left = left' := by
  induction h generalizing es' with
  | empty =>
    cases h' with
    | empty => exact ⟨rfl, rfl⟩
    | stopped hbs _ | next hbs _ _ => exact absurd rfl hbs
  | stopped hbs hread =>
    cases h' with
    | empty => exact absurd rfl hbs
    | stopped _ hread' =>
      cases hread.symm.trans hread'
      exact ⟨rfl, rfl⟩
    | next _ hread' _ => cases hread.symm.trans hread'
  | next hbs hread _ ih =>
    cases h' with
    | empty => exact absurd rfl hbs
    | stopped _ hread' => cases hread.symm.trans hread'
    | next _ hread' hrest' =>
      cases hread.symm.trans hread'
      obtain ⟨rfl, rfl⟩ := ih hrest'
      exact ⟨rfl, rfl⟩

theorem Ends.no_further (h : Ends bs es left) : left = [] ∨ ∃ f, readOne left = .error f := by
  induction h with
  | empty => exact .inl rfl
  | stopped _ hread => exact .inr ⟨_, hread⟩
  | next _ _ _ ih => exact ih

/-- What has been read is in front of what is left. -/
theorem Ends.append (h : Ends bs es left) :
    bs = (es.filterMap Event.certificate?).flatMap encoding ++ left := by
  induction h with
  | empty => rfl
  | stopped => rfl
  | next _ hread _ ih =>
    obtain ⟨c, hc, -, hbs⟩ := encoding_append_of_readOne hread
    rw [List.filterMap_cons_some hc, List.flatMap_cons, List.append_assoc, ← ih]
    exact hbs

/-- Whatever the octets, reading certificates one after the other ends, in one way. No certificate
that it gives is null; their encodings in a row are the octets but for what is left, which is
nothing or begins with no certificate. -/
theorem der_ends_with_prefix (bs : Bytes) :
    ∃ left, (∀ es left', Ends bs es left' ↔ es = events bs .der ∧ left' = left) ∧
      (∀ c ∈ ofData bs .der, c.isNull = false) ∧
      bs = (ofData bs .der).flatMap encoding ++ left ∧
      (left = [] ∨ ∃ f, readOne left = .error f) := by
  obtain ⟨left, hends⟩ : ∃ left, Ends bs (events bs .der) left := ends_readChain (Nat.le_refl _)
  refine ⟨left, fun es left' => ⟨fun h => h.unique hends, ?_⟩, ?_, hends.append, hends.no_further⟩
  · rintro ⟨rfl, rfl⟩
    exact hends
  · intro c hc
    exact (reloads_of_mem_ofData hc).isNull

end NetKit.Certificate
