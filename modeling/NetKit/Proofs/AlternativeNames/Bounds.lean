import NetKit.Proofs.AlternativeNames.Walks

/-!
# Cursors stay at their names

A cursor starts one slot in front of its names and is compared with their end for equality only, so
one step too many would take it past the end for good. It never takes that step: after any moves it
has the rest of its names ahead, or it is at the end and stays there.
-/

namespace NetKit.AlternativeNames.Cursor

/-! ## Moves -/

/-- The two ways to move. -/
inductive Move where
  | byName
  | byKey
deriving DecidableEq, Repr

def move (c : Cursor) : Move → Bool × Cursor
  | .byName => c.advance
  | .byKey => c.advanceKey

/-- Where a cursor is after some moves. -/
def after (c : Cursor) (moves : List Move) : Cursor := moves.foldl (fun c m => (c.move m).2) c

/-- A place where a name is. -/
def IsIndex (c : Cursor) (i : Int) : Prop := 0 ≤ i ∧ i < c.entries.length

/-- A cursor is where a walk can be: the rest of its names is ahead, or it is at the end. -/
def InPlace (c : Cursor) : Prop := (∃ l, c.Faces l) ∨ c.atEnd = true

/-- What a move can come to: a name with the others ahead, or the end. -/
inductive Outcome : Bool × Cursor → Prop where
  | found {next : Cursor} {n : AlternativeName} {l : List AlternativeName}
      (hcurrent : next.current? = some n) (hfaces : next.Faces l) : Outcome (true, next)
  | ended {next : Cursor} (hend : next.atEnd = true) : Outcome (false, next)

variable {c : Cursor} {n : AlternativeName} {l : List AlternativeName} {k : NameKind}

theorem atEnd_iff : c.atEnd = true ↔ c.position = c.entries.length := by
  rw [atEnd, beq_iff_eq]

theorem entries_advance (c : Cursor) : c.advance.2.entries = c.entries := by
  rw [advance]
  split <;> rfl

theorem entries_advanceKey (c : Cursor) : c.advanceKey.2.entries = c.entries := by
  rw [← entries_advance c]
  simp only [advanceKey]
  split <;> simp_all

theorem entries_move (c : Cursor) (m : Move) : (c.move m).2.entries = c.entries := by
  cases m with
  | byName => exact entries_advance c
  | byKey => exact entries_advanceKey c

theorem entries_after (c : Cursor) (moves : List Move) : (c.after moves).entries = c.entries := by
  induction moves generalizing c with
  | nil => rfl
  | cons m moves ih => exact (ih _).trans (entries_move c m)

theorem Faces.outcome (h : c.Faces l) (m : Move) : Outcome (c.move m) := by
  cases m with
  | byName =>
      cases l with
      | nil =>
          rw [move, h.advance_nil]
          exact .ended h.atEnd_succ
      | cons n l =>
          rw [move, h.advance_cons]
          exact .found h.current?_succ h.succ
  | byKey =>
      cases l with
      | nil =>
          rw [move, h.advanceKey_nil]
          exact .ended h.atEnd_succ
      | cons n l =>
          obtain ⟨c', last, hkey, hcurrent, -, hfaces⟩ := h.advanceKey_cons
          rw [move, hkey]
          exact .found hcurrent hfaces

theorem move_atEnd (h : c.atEnd = true) (m : Move) : c.move m = (false, c) := by
  cases m with
  | byName => exact advance_atEnd h
  | byKey => exact advanceKey_atEnd h

theorem InPlace.outcome (h : c.InPlace) (m : Move) : Outcome (c.move m) := by
  rcases h with ⟨l, hfaces⟩ | hend
  · exact hfaces.outcome m
  · rw [move_atEnd hend]
    exact .ended hend

theorem Outcome.inPlace {r : Bool × Cursor} (h : Outcome r) : r.2.InPlace := by
  cases h with
  | found hcurrent hfaces => exact .inl ⟨_, hfaces⟩
  | ended hend => exact .inr hend

theorem InPlace.after (h : c.InPlace) (moves : List Move) : (c.after moves).InPlace := by
  induction moves generalizing c with
  | nil => exact h
  | cons m moves ih => exact ih (h.outcome m).inPlace

theorem after_atEnd (h : c.atEnd = true) (moves : List Move) : c.after moves = c := by
  induction moves with
  | nil => rfl
  | cons m moves ih => rw [after, List.foldl_cons, move_atEnd h]; exact ih

/-! ## Places -/

theorem Faces.bounds (h : c.Faces l) : -1 ≤ c.position ∧ c.position < c.entries.length := by
  obtain ⟨passed, hentries, hposition⟩ := h
  rw [hposition, hentries, List.length_append]
  omega

theorem InPlace.bounds (h : c.InPlace) : -1 ≤ c.position ∧ c.position ≤ c.entries.length := by
  rcases h with ⟨l, hfaces⟩ | hend
  · exact hfaces.bounds.imp_right Int.le_of_lt
  · rw [atEnd_iff.mp hend]
    omega

theorem isIndex_of_current? (h : c.current? = some n) : c.IsIndex c.position := by
  rw [current?, Option.ite_none_left_eq_some] at h
  obtain ⟨hnonneg, hget⟩ := h
  obtain ⟨hlt, -⟩ := List.getElem?_eq_some_iff.mp hget
  exact ⟨by omega, by omega⟩

theorem Outcome.isIndex {r : Bool × Cursor} (h : Outcome r) (hfound : r.1 = true) :
    r.2.IsIndex r.2.position := by
  cases h with
  | found hcurrent hfaces => exact isIndex_of_current? hcurrent
  | ended hend => cases hfound

theorem Outcome.atEnd {r : Bool × Cursor} (h : Outcome r) (hnone : r.1 = false) :
    r.2.atEnd = true := by
  cases h with
  | found hcurrent hfaces => cases hnone
  | ended hend => exact hend

/-! ## Reads -/

/-- The loop that skips the rest of a group, name by name, with the places that it reads. What is
no place of a name cannot be read, and ends the loop. -/
def skip (k : NameKind) (c : Cursor) : List Int × Cursor :=
  if c.succ.atEnd then ([], c)
  else
    match _hread : c.succ.current? with
    | none => ([c.succ.position], c)
    | some n =>
      if n.kind = k then
        let (reads, last) := skip k c.succ
        (c.succ.position :: reads, last)
      else ([c.succ.position], c)
termination_by (c.entries.length - c.position).toNat
decreasing_by
  have hindex := isIndex_of_current? ‹c.succ.current? = some n›
  simp only [IsIndex, succ] at hindex ⊢
  omega

/-- A move by key with the places that it reads. -/
def readKey (c : Cursor) : List Int × Bool × Cursor :=
  let (found, next) := c.advance
  if found then
    match next.current? with
    | none => ([next.position], true, next)
    | some n =>
      let (reads, last) := next.skip n.kind
      (next.position :: reads, true, last)
  else ([], false, next)

theorem Faces.skip_nil (h : c.Faces []) (k : NameKind) : c.skip k = ([], c) := by
  rw [skip, if_pos h.atEnd_succ]

theorem Faces.skip_cons (h : c.Faces (n :: l)) (k : NameKind) :
    c.skip k = if n.kind = k then (c.succ.position :: (c.succ.skip k).1, (c.succ.skip k).2)
      else ([c.succ.position], c) := by
  rw [skip, if_neg (by simp [h.succ.atEnd_eq])]
  split
  · rename_i hnone
    rw [h.current?_succ] at hnone
    cases hnone
  · rename_i hsome
    rw [h.current?_succ] at hsome
    cases hsome
    rfl

/-- The place that a cursor with names ahead moves to is the place of a name. -/
theorem Faces.isIndex_succ (h : c.Faces (n :: l)) : c.IsIndex c.succ.position :=
  isIndex_of_current? (c := c.succ) h.current?_succ

/-- The loop ends at the last of the names ahead that have the kind, and reads only names. -/
theorem Faces.skip_spec (h : c.Faces l) (k : NameKind) :
    (c.skip k).2 =
      { c with position := c.position + (l.takeWhile fun a => a.kind == k).length } ∧
    ∀ i ∈ (c.skip k).1, c.IsIndex i := by
  induction l generalizing c with
  | nil =>
      rw [h.skip_nil]
      exact ⟨by simp, List.forall_mem_nil _⟩
  | cons n l ih =>
      obtain ⟨hlast, hreads⟩ := ih h.succ
      rw [h.skip_cons]
      by_cases hkind : n.kind = k
      · rw [if_pos hkind, List.takeWhile_cons_of_pos (by simpa using hkind)]
        refine ⟨?_, List.forall_mem_cons.mpr ⟨h.isIndex_succ, hreads⟩⟩
        rw [hlast, Cursor.succ]
        simp only [List.length_cons, mk.injEq, true_and]
        omega
      · rw [if_neg hkind, List.takeWhile_cons_of_neg (by simpa using hkind)]
        exact ⟨by simp, by simpa using h.isIndex_succ⟩

/-- A move by key, done name by name, ends where it should and reads only names. -/
theorem InPlace.readKey_spec (h : c.InPlace) :
    c.readKey.2 = c.advanceKey ∧ ∀ i ∈ c.readKey.1, c.IsIndex i := by
  rcases h with ⟨l, hfaces⟩ | hend
  · cases l with
    | nil =>
        rw [readKey, hfaces.advance_nil, hfaces.advanceKey_nil]
        exact ⟨rfl, List.forall_mem_nil _⟩
    | cons n l =>
        obtain ⟨hlast, hreads⟩ := hfaces.succ.skip_spec n.kind
        simp only [readKey, advanceKey, hfaces.advance_cons, hfaces.current?_succ,
          hfaces.restOfGroup_succ, if_true]
        exact ⟨by rw [hlast], List.forall_mem_cons.mpr ⟨hfaces.isIndex_succ, hreads⟩⟩
  · rw [readKey, advance_atEnd hend, advanceKey_atEnd hend]
    exact ⟨rfl, List.forall_mem_nil _⟩

/-! ## Bounds -/

/-- Wherever its moves have taken it, a cursor is between one slot in front of its names and their
end. A move that finds a name ends at the place of one; a move by key reads nothing but places of
names on its way; and after a move that finds none the cursor is at the end, where every other move
finds none either and leaves it. -/
theorem cursor_stays_in_bounds (entries : List AlternativeName) (moves : List Move) :
    let c : Cursor := after { entries } moves
    c.entries = entries ∧
    (-1 ≤ c.position ∧ c.position ≤ entries.length) ∧
    (∀ m, (c.move m).1 = true →
      0 ≤ (c.move m).2.position ∧ (c.move m).2.position < entries.length) ∧
    (c.readKey.2 = c.advanceKey ∧ ∀ i ∈ c.readKey.1, 0 ≤ i ∧ i < entries.length) ∧
    ∀ m, (c.move m).1 = false → ∀ more,
      ((c.move m).2.after more).position = entries.length ∧
        ∀ m', (((c.move m).2.after more).move m').1 = false := by
  intro c
  have hentries : c.entries = entries := entries_after _ moves
  have hin : c.InPlace := InPlace.after (.inl ⟨entries, faces_start entries⟩) moves
  refine ⟨hentries, hentries ▸ hin.bounds, fun m hfound => ?_, hentries ▸ hin.readKey_spec,
    fun m hnone more => ?_⟩
  · have hindex := (hin.outcome m).isIndex hfound
    rwa [IsIndex, entries_move, hentries] at hindex
  · have hend := (hin.outcome m).atEnd hnone
    rw [after_atEnd hend, atEnd_iff.mp hend, entries_move, hentries]
    exact ⟨rfl, fun m' => by rw [move_atEnd hend]⟩

/-- The first of two groups is told by the name behind it. Behind the second nothing is read, and
the cursor has come to the end. -/
theorem cursor_stays_in_bounds_past_two_groups :
    let entries : List AlternativeName := [⟨.dns, [97]⟩, ⟨.dns, [98]⟩, ⟨.ip, [99]⟩]
    let c : Cursor := { entries }
    let e : Cursor := c.after [.byKey, .byKey]
    c.readKey.1 = [0, 1, 2] ∧ (∀ i ∈ c.readKey.1, 0 ≤ i ∧ i < entries.length) ∧
      (c.move .byKey).1 = true ∧ (c.move .byKey).2.position < entries.length ∧
      (e.move .byKey).1 = false ∧
      ((e.move .byKey).2.after [.byName, .byKey]).position = entries.length := by
  intro entries c e
  have hfound : (c.move .byKey).1 = true := by decide
  have hnone : (e.move .byKey).1 = false := by decide
  have hread : c.readKey.1 = [0, 1, 2] := by cbv
  obtain ⟨-, -, hfinds, hreads, -⟩ := cursor_stays_in_bounds entries []
  exact ⟨hread, hreads.2, hfound, (hfinds _ hfound).2, hnone,
    ((cursor_stays_in_bounds entries [.byKey, .byKey]).2.2.2.2 _ hnone _).1⟩

end NetKit.AlternativeNames.Cursor
