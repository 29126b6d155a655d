import NetKit.Proofs.Handles.Copies

/-!
# Properties of every value read through a handle

A property that constructed values have and that no change takes away holds of every value that some
handle reads, however the handles share.
-/

namespace NetKit.Handles

variable {α ε : Type} {P : α → Prop}

theorem forall_update {m : Copies α} {h : Nat} {o : Option α} (hm : ∀ k a, m k = some a → P a)
    (ho : ∀ a, o = some a → P a) : ∀ k a, Function.update m h o k = some a → P a := by
  intro k a hk
  rw [Function.update_apply] at hk
  split at hk
  · exact ho a hk
  · exact hm k a hk

variable [Editable α ε]

/-- A change that is refused leaves the value as it is. -/
theorem result_of_change? {e : ε} {a : α} (ha : P a)
    (hchange : ∀ b, Editable.change? e a = some b → P b) : P (Editable.result e a) := by
  unfold Editable.result
  split
  · cases hb : Editable.change? e a with
    | none => exact ha
    | some b => exact hchange b hb
  · exact ha

variable [DecidableEq α]

theorem Copies.step_keeps {m : Copies α} {o : Op α ε} (hm : ∀ k a, m k = some a → P a)
    (hnew : ∀ h a, o = .construct h a → P a)
    (hedit : ∀ e a b, P a → Editable.change? e a = some b → P b) :
    ∀ k a, (Copies.step m o).2 k = some a → P a := by
  cases o with
  | construct h a =>
      refine forall_update hm fun b hb => ?_
      cases hb
      exact hnew h a rfl
  | clone source h =>
      simp only [Copies.step]
      cases hc : m source with
      | none => exact hm
      | some a =>
          refine forall_update hm fun b hb => ?_
          cases hb
          exact hm source a hc
  | drop h =>
      refine forall_update hm fun b hb => ?_
      cases hb
  | edit h e =>
      simp only [Copies.step]
      cases hc : m h with
      | none => exact hm
      | some a =>
          refine forall_update hm fun b hb => ?_
          cases hb
          have ha := hm h a hc
          exact result_of_change? ha fun b => hedit e a b ha
  | read h =>
      simp only [Copies.step]
      split <;> exact hm
  | compare h k =>
      simp only [Copies.step]
      split <;> exact hm

theorem Copies.run_keeps {m : Copies α} {os : List (Op α ε)} (hm : ∀ k a, m k = some a → P a)
    (hnew : ∀ h a, .construct h a ∈ os → P a)
    (hedit : ∀ e a b, P a → Editable.change? e a = some b → P b) :
    ∀ k a, (Op.run Copies.step m os).2 k = some a → P a := by
  induction os generalizing m with
  | nil => exact hm
  | cons o os ih =>
      refine ih (Copies.step_keeps hm (fun h a ho => ?_) hedit) fun h a ho => ?_
      · exact hnew h a (ho ▸ List.mem_cons_self)
      · exact hnew h a (List.mem_cons_of_mem o ho)

theorem of_get?_run {os : List (Op α ε)} (hnew : ∀ h a, .construct h a ∈ os → P a)
    (hedit : ∀ e a b, P a → Editable.change? e a = some b → P b) {h : Nat} {a : α}
    (hget : (Op.run Handles.step {} os).2.get? h = some a) : P a := by
  have hreads := ((Agrees.start (α := α) 0).run os).2.reads h
  refine Copies.run_keeps (fun k b hk => ?_) hnew hedit h a (hreads.symm.trans hget)
  cases hk

end NetKit.Handles
