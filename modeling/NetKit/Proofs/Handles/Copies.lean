import Mathlib.Logic.Function.Basic
import NetKit.Proofs.Handles.Values

/-!
# Shared values read as private copies

Handles that share values until one of them is changed answer every sequence of operations like
handles that each own a copy, and what is counted is who shares with whom.
-/

namespace NetKit.Handles

variable {α ε : Type}

/-! ## Operations -/

inductive Op (α ε : Type) where
  | construct (h : Nat) (a : α)
  | clone (source h : Nat)
  | drop (h : Nat)
  | edit (h : Nat) (e : ε)
  | read (h : Nat)
  | compare (h k : Nat)

inductive Reply (α : Type) where
  | done
  /-- An operation on a handle that is not there does nothing. -/
  | missing
  | edited (made : Bool)
  | value (a : α)
  | equal (answer : Bool)
deriving DecidableEq, Repr

def step [Editable α ε] [BEq α] (s : Handles α) : Op α ε → Reply α × Handles α
  | .construct h a => (.done, s.insert h a)
  | .clone source h =>
    match s.copy? source h with
    | some t => (.done, t)
    | none => (.missing, s)
  | .drop h => (.done, s.drop h)
  | .edit h e =>
    match s.edit? h e with
    | some (made, t) => (.edited made, t)
    | none => (.missing, s)
  | .read h =>
    match s.get? h with
    | some a => (.value a, s)
    | none => (.missing, s)
  | .compare h k =>
    match s.get? h, s.get? k with
    | some _, some _ => (.equal (s.same h k), s)
    | _, _ => (.missing, s)

/-- The replies to a sequence of operations, and the state after it. -/
def Op.run {σ : Type} (step : σ → Op α ε → Reply α × σ) : σ → List (Op α ε) → List (Reply α) × σ
  | s, [] => ([], s)
  | s, o :: os =>
    let (r, t) := step s o
    let (rs, u) := Op.run step t os
    (r :: rs, u)

/-- Handles that share nothing: each has a value of its own. -/
abbrev Copies (α : Type) := Nat → Option α

def Copies.step [Editable α ε] [DecidableEq α] (m : Copies α) : Op α ε → Reply α × Copies α
  | .construct h a => (.done, Function.update m h (some a))
  | .clone source h =>
    match m source with
    | some a => (.done, Function.update m h (some a))
    | none => (.missing, m)
  | .drop h => (.done, Function.update m h none)
  | .edit h e =>
    match m h with
    | some a =>
      (.edited (Editable.change? e a).isSome, Function.update m h (some (Editable.result e a)))
    | none => (.missing, m)
  | .read h =>
    match m h with
    | some a => (.value a, m)
    | none => (.missing, m)
  | .compare h k =>
    match m h, m k with
    | some a, some b => (.equal (decide (a = b)), m)
    | _, _ => (.missing, m)

/-! ## Simulation -/

/-- Shared values with exact counts that read like the copies. -/
structure Agrees (base : Nat) (s : Handles α) (m : Copies α) : Prop where
  counted : Counted base [] s
  reads : ∀ h, s.get? h = m h

variable {base : Nat} {s : Handles α} {m : Copies α}

theorem Agrees.start (base : Nat) : Agrees base ({ live := base } : Handles α) fun _ => none :=
  ⟨Counted.start base, fun _ => rfl⟩

/-- A handle whose value was written, all others as they were. -/
theorem Agrees.update {t : Handles α} {h : Nat} {o : Option α} (hs : Agrees base s m)
    (ht : Counted base [] t) (hr : ∀ k, t.get? k = if k = h then o else s.get? k) :
    Agrees base t (Function.update m h o) := by
  refine ⟨ht, fun k => ?_⟩
  rw [hr k, Function.update_apply, hs.reads k]

/-- Handles of one cell have one value, so the comparison of cells changes no answer. -/
theorem same_eq_decide [DecidableEq α] {h k : Nat} {a b : α} (ha : s.get? h = some a)
    (hb : s.get? k = some b) : s.same h k = decide (a = b) := by
  by_cases hc : s.cell? h = s.cell? k
  · have hab : a = b := by
      have he : s.get? h = s.get? k := by simp only [get?, content?, hc]
      rw [ha, hb] at he
      exact Option.some.inj he
    simp [same, hc, hab]
  · have hne : (s.cell? h == s.cell? k) = false := beq_eq_false_iff_ne.mpr hc
    rw [same, hne, ha, hb, Bool.false_or]
    exact Bool.eq_iff_iff.mpr (by simp)

variable [Editable α ε] [DecidableEq α]

theorem Agrees.step (hs : Agrees base s m) (o : Op α ε) :
    (s.step o).1 = (m.step o).1 ∧ Agrees base (s.step o).2 (m.step o).2 := by
  cases o with
  | construct h a =>
      exact ⟨rfl, hs.update (hs.counted.insert h a) (hs.counted.get?_insert h a)⟩
  | clone source h =>
      have hread := hs.reads source
      simp only [Handles.step, Copies.step, copy?, ← hread]
      cases hc : s.cell? source with
      | none =>
          have hn : s.get? source = none := by simp [get?, content?, hc]
          rw [hn]
          exact ⟨rfl, hs⟩
      | some c =>
          obtain ⟨x, _, hx⟩ := hs.counted.content hc
          have hv : s.get? source = some x.value := by simp [get?, hx]
          have hr (k : Nat) : ((s.retain c).point h c).get? k =
              if k = h then some x.value else s.get? k := by
            rw [hs.counted.get?_copy hc h k, hv]
          rw [hv]
          exact ⟨rfl, hs.update (hs.counted.copy hc h) hr⟩
  | drop h => exact ⟨rfl, hs.update (hs.counted.drop h) (hs.counted.get?_drop h)⟩
  | edit h e =>
      have hread := hs.reads h
      simp only [Handles.step, Copies.step, edit?, ← hread]
      cases ha : s.get? h with
      | none => exact ⟨rfl, hs⟩
      | some a =>
          simp only [Option.map_some]
          refine ⟨trivial, ?_⟩
          split
          · refine hs.update (hs.counted.set h _) fun k => ?_
            rw [hs.counted.get?_set h _ k, ha, Option.map_some]
          · rename_i ho
            have hr : Editable.result e a = a := by simp [Editable.result, ho]
            rw [hr]
            refine hs.update hs.counted fun k => ?_
            by_cases hk : k = h
            · rw [if_pos hk, hk, ha]
            · rw [if_neg hk]
  | read h =>
      have hread := hs.reads h
      simp only [Handles.step, Copies.step, ← hread]
      cases s.get? h with
      | none => exact ⟨rfl, hs⟩
      | some a => exact ⟨rfl, hs⟩
  | compare h k =>
      have hh := hs.reads h
      have hk := hs.reads k
      simp only [Handles.step, Copies.step, ← hh, ← hk]
      cases ha : s.get? h with
      | none => exact ⟨rfl, hs⟩
      | some a =>
          cases hb : s.get? k with
          | none => exact ⟨rfl, hs⟩
          | some b =>
              simp only [same_eq_decide ha hb]
              exact ⟨trivial, hs⟩

theorem Agrees.run (hs : Agrees base s m) (os : List (Op α ε)) :
    (Op.run Handles.step s os).1 = (Op.run Copies.step m os).1 ∧
      Agrees base (Op.run Handles.step s os).2 (Op.run Copies.step m os).2 := by
  induction os generalizing s m with
  | nil => exact ⟨rfl, hs⟩
  | cons o os ih =>
      obtain ⟨hr, ht⟩ := hs.step o
      obtain ⟨hrs, hu⟩ := ih ht
      exact ⟨List.cons_eq_cons.mpr ⟨hr, hrs⟩, hu⟩

/-- From no handles on, whatever is done: the replies and the values read are those of private
copies, the count of a handle is how many handles share its cell, and the number of values in memory
went up by the number of cells that handles hold. -/
theorem run_reads_as_copies (base : Nat) (os : List (Op α ε)) :
    ∃ s : Handles α,
      Op.run Handles.step { live := base } os = ((Op.run Copies.step (fun _ => none) os).1, s) ∧
      (∀ h, s.get? h = (Op.run Copies.step (fun _ => none) os).2 h) ∧
      (∀ h, h ∈ s.alive ↔ ((Op.run Copies.step (fun _ => none) os).2 h).isSome) ∧
      (∀ h, s.refs h = (s.alive.filter fun k => s.cell? k = s.cell? h).card) ∧
      s.live = base + (s.alive.image s.cell?).card ∧
      (s.live = base ↔ s.alive = ∅) := by
  obtain ⟨hreplies, hs⟩ := (Agrees.start base).run os
  refine ⟨_, Prod.ext hreplies rfl, hs.reads, fun h => ?_, hs.counted.refs_eq_card,
    hs.counted.live_eq_card, ?_⟩
  · rw [mem_alive_iff, ← hs.counted.get?_isSome, hs.reads]
  · rw [hs.counted.live_eq_card, Nat.add_eq_left, Finset.card_eq_zero, Finset.image_eq_empty]

end NetKit.Handles
