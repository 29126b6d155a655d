import Mathlib.Data.Finset.Card
import NetKit.Handles

/-!
# What the cells of shared values count

Every cell counts the handles that hold it and the holds that were counted in advance, for a handle
that is yet to be pointed at it or has just been pointed elsewhere.
-/

namespace NetKit.Handles

variable {α : Type}

/-- How many handles hold a cell. -/
def holders (s : Handles α) (c : Nat) : Nat := s.holds.countP fun p => p.2 == c

/-- The count of a cell, zero without such a cell. -/
def count (s : Handles α) (c : Nat) : Nat := ((List.lookup c s.cells).map (·.count)).getD 0

/-- The counts are exact, with `owed` the cells that are counted without a handle, and `base` is
what the number of values in memory stood at when there was no cell yet. -/
structure Counted (base : Nat) (owed : List Nat) (s : Handles α) : Prop where
  handles : (s.holds.map Prod.fst).Nodup
  cells : (s.cells.map Prod.fst).Nodup
  count : ∀ c, s.count c = s.holders c + owed.count c
  positive : ∀ c x, List.lookup c s.cells = some x → 0 < x.count
  fresh : ∀ c x, List.lookup c s.cells = some x → c < s.fresh
  live : s.live = base + s.cells.length

variable {base : Nat} {owed : List Nat} {s : Handles α} {h k c : Nat}

theorem Counted.start (base : Nat) : Counted base [] ({ live := base } : Handles α) where
  handles := List.nodup_nil
  cells := List.nodup_nil
  count _ := rfl
  positive _ _ hx := nomatch hx
  fresh _ _ hx := nomatch hx
  live := rfl

/-! ## Looking at a cell -/

theorem holders_pos (hk : s.cell? k = some c) : 0 < s.holders c :=
  List.countP_pos_iff.mpr ⟨(k, c), Keyed.mem_of_lookup hk, by simp⟩

theorem count_of_lookup {x : Cell α} (hx : List.lookup c s.cells = some x) : s.count c = x.count := by
  simp [Handles.count, hx]

theorem lookup_of_count_pos (hc : 0 < s.count c) :
    ∃ x, List.lookup c s.cells = some x ∧ x.count = s.count c := by
  cases hx : List.lookup c s.cells with
  | none => simp [Handles.count, hx] at hc
  | some x => exact ⟨x, rfl, (count_of_lookup hx).symm⟩

/-- The cell that a handle holds is there. -/
theorem Counted.content (hs : Counted base owed s) (hk : s.cell? k = some c) :
    ∃ x, List.lookup c s.cells = some x ∧ s.content? k = some x := by
  have hc : 0 < s.count c := by
    have := holders_pos hk
    rw [hs.count c]
    omega
  obtain ⟨x, hx, _⟩ := lookup_of_count_pos hc
  exact ⟨x, hx, by simp [content?, hk, hx]⟩

theorem Counted.lookup_fresh (hs : Counted base owed s) : List.lookup s.fresh s.cells = none := by
  cases hx : List.lookup s.fresh s.cells with
  | none => rfl
  | some x => exact absurd (hs.fresh _ _ hx) (Nat.lt_irrefl _)

/-! ## Which handles hold a cell -/

theorem holders_erase (hs : (s.holds.map Prod.fst).Nodup) (hk : s.cell? h = some k) (c : Nat) :
    s.holders c = (Keyed.erase h s.holds).countP (fun p => p.2 == c) + [k].count c := by
  rw [holders, (Keyed.perm_cons_erase hs hk).countP_eq, List.countP_cons, List.count_singleton]

/-- A handle stops holding its cell, which counts it still. -/
theorem Counted.unhold (hs : Counted base owed s) (hk : s.cell? h = some k) :
    Counted base (k :: owed) { s with holds := Keyed.erase h s.holds } where
  handles := Keyed.nodup_keys_erase h hs.handles
  cells := hs.cells
  count c := by
    have hc := hs.count c
    rw [holders_erase hs.handles hk c] at hc
    rw [← List.singleton_append, List.count_append]
    simp only [Handles.count, holders] at hc ⊢
    omega
  positive := hs.positive
  fresh := hs.fresh
  live := hs.live

/-- A handle takes a hold that its new cell counts in advance; the cell it held counts it still. -/
theorem Counted.hold (hs : Counted base (c :: owed) s) (h : Nat) :
    Counted base ((s.cell? h).toList ++ owed) { s with holds := Keyed.put h c s.holds } where
  handles := Keyed.nodup_keys_put h c hs.handles
  cells := hs.cells
  count i := by
    have hi := hs.count i
    rw [← List.singleton_append, List.count_append, List.count_singleton] at hi
    simp only [Handles.count, holders, Keyed.put, List.countP_cons] at hi ⊢
    cases hk : s.cell? h with
    | none =>
        have he := Keyed.erase_of_lookup_eq_none hk
        simp only [he, Option.toList_none, List.nil_append]
        omega
    | some k =>
        have hh := holders_erase hs.handles hk i
        simp only [holders] at hh
        simp only [Option.toList_some, List.singleton_append]
        rw [← List.singleton_append, List.count_append]
        omega
  positive := hs.positive
  fresh := hs.fresh
  live := hs.live

/-! ## Making, counting and freeing a cell -/

theorem Counted.alloc (hs : Counted base owed s) (a : α) :
    Counted base (s.fresh :: owed) (s.alloc a) where
  handles := hs.handles
  cells := by
    rw [Handles.alloc, List.map_cons, List.nodup_cons, Keyed.mem_keys_iff, hs.lookup_fresh]
    exact ⟨by simp, hs.cells⟩
  count c := by
    have hc := hs.count c
    rw [← List.singleton_append, List.count_append, List.count_singleton]
    simp only [Handles.count, holders, Handles.alloc, Keyed.lookup_cons_ite] at hc ⊢
    by_cases he : c = s.fresh
    · subst he
      simp only [hs.lookup_fresh] at hc
      simp at hc ⊢
      omega
    · simp only [he, Ne.symm he, if_false, beq_iff_eq]
      omega
  positive c x hx := by
    simp only [Handles.alloc, Keyed.lookup_cons_ite] at hx
    split at hx
    · cases hx
      exact Nat.one_pos
    · exact hs.positive c x hx
  fresh c x hx := by
    simp only [Handles.alloc, Keyed.lookup_cons_ite] at hx ⊢
    split at hx
    · omega
    · exact Nat.lt_succ_of_lt (hs.fresh c x hx)
  live := by
    have hl := hs.live
    simp only [Handles.alloc, List.length_cons]
    omega

/-- A cell whose count follows what is owed for it. -/
theorem Counted.put {owed' : List Nat} {x y : Cell α} (hs : Counted base owed s)
    (hx : List.lookup c s.cells = some x) (hy : 0 < y.count)
    (ho : ∀ i, (if i = c then y.count else s.count i) = s.holders i + owed'.count i) :
    Counted base owed' { s with cells := Keyed.put c y s.cells } where
  handles := hs.handles
  cells := Keyed.nodup_keys_put c y hs.cells
  count i := by
    have hi := ho i
    simp only [Handles.count, holders, Keyed.lookup_put] at hi ⊢
    split at hi <;> simp_all
  positive i z hz := by
    simp only [Keyed.lookup_put] at hz
    split at hz
    · cases hz
      exact hy
    · exact hs.positive i z hz
  fresh i z hz := by
    simp only [Keyed.lookup_put] at hz
    split at hz
    · rename_i hi
      rw [hi]
      exact hs.fresh c x hx
    · exact hs.fresh i z hz
  live := by
    have hl := hs.live
    have he := Keyed.length_erase_of_lookup hs.cells hx
    simp only [Keyed.put, List.length_cons]
    omega

theorem Counted.retain (hs : Counted base owed s) (hk : s.cell? k = some c) :
    Counted base (c :: owed) (s.retain c) := by
  obtain ⟨x, hx, _⟩ := hs.content hk
  simp only [Handles.retain, hx]
  refine hs.put hx (Nat.succ_pos _) fun i => ?_
  have hi := hs.count i
  rw [← List.singleton_append, List.count_append, List.count_singleton]
  by_cases he : i = c
  · subst he
    rw [count_of_lookup hx] at hi
    simp only [if_true, beq_self_eq_true]
    omega
  · simp only [he, Ne.symm he, if_false, beq_iff_eq]
    omega

/-- Where the last count goes the cell goes, so nothing is left that no handle holds. -/
theorem Counted.release (hs : Counted base (c :: owed) s) : Counted base owed (s.release c) := by
  have hc := hs.count c
  rw [List.count_cons_self] at hc
  obtain ⟨x, hx, hxc⟩ := lookup_of_count_pos (s := s) (c := c) (by omega)
  simp only [Handles.release, hx]
  split
  · refine ⟨hs.handles, Keyed.nodup_keys_erase c hs.cells, fun i => ?_, fun i z hz => ?_,
      fun i z hz => ?_, ?_⟩
    · have hi := hs.count i
      by_cases he : i = c
      · subst he
        simp only [Handles.count, holders, Keyed.lookup_erase, if_true] at hc ⊢
        simp only [Option.map_none, Option.getD_none]
        simp only [Handles.count] at hxc
        omega
      · rw [List.count_cons_of_ne (Ne.symm he)] at hi
        simpa [Handles.count, holders, Keyed.lookup_erase, he] using hi
    · simp only [Keyed.lookup_erase] at hz
      split at hz
      · cases hz
      · exact hs.positive i z hz
    · simp only [Keyed.lookup_erase] at hz
      split at hz
      · cases hz
      · exact hs.fresh i z hz
    · have hl := hs.live
      have he := Keyed.length_erase_of_lookup hs.cells hx
      show s.live - 1 = base + (Keyed.erase c s.cells).length
      omega
  · rename_i hlt
    refine hs.put hx (by simp only; omega) fun i => ?_
    have hi := hs.count i
    by_cases he : i = c
    · subst he
      simp only [if_true]
      omega
    · rw [List.count_cons_of_ne (Ne.symm he)] at hi
      simpa [he] using hi

/-! ## Handles -/

theorem Counted.point (hs : Counted base (c :: owed) s) (h : Nat) :
    Counted base owed (s.point h c) := by
  have ht := hs.hold h
  simp only [Handles.point]
  cases hk : s.cell? h with
  | none => simpa [hk] using ht
  | some k =>
      simp only [hk, Option.toList_some, List.singleton_append] at ht
      exact ht.release

theorem Counted.insert (hs : Counted base owed s) (h : Nat) (a : α) :
    Counted base owed (s.insert h a) :=
  (hs.alloc a).point h

theorem Counted.copy (hs : Counted base owed s) (hk : s.cell? k = some c) (h : Nat) :
    Counted base owed ((s.retain c).point h c) :=
  (hs.retain hk).point h

theorem Counted.drop (hs : Counted base owed s) (h : Nat) : Counted base owed (s.drop h) := by
  simp only [Handles.drop]
  cases hk : s.cell? h with
  | none => exact hs
  | some k => exact (hs.unhold hk).release

theorem Counted.set (hs : Counted base owed s) (h : Nat) (a : α) : Counted base owed (s.set h a) := by
  simp only [Handles.set]
  cases hk : s.cell? h with
  | none => exact hs
  | some k =>
      obtain ⟨x, hx, _⟩ := hs.content hk
      simp only [hx]
      split
      · refine hs.put hx (hs.positive k x hx) fun i => ?_
        have hi := hs.count i
        by_cases he : i = k
        · subst he
          rw [count_of_lookup hx] at hi
          simpa using hi
        · simpa [he] using hi
      · exact hs.insert h a

/-! ## Who shares a cell -/

/-- The handles that are there. -/
def alive (s : Handles α) : Finset Nat := (s.holds.map Prod.fst).toFinset

theorem mem_alive_iff : h ∈ s.alive ↔ (s.cell? h).isSome := by
  rw [alive, List.mem_toFinset, Keyed.mem_keys_iff, cell?]

theorem Counted.holders_eq_card (hs : Counted base owed s) (c : Nat) :
    s.holders c = (s.alive.filter fun k => s.cell? k = some c).card := by
  have hset : s.alive.filter (fun k => s.cell? k = some c) =
      ((s.holds.filter fun p => p.2 == c).map Prod.fst).toFinset := by
    ext k
    rw [Finset.mem_filter, List.mem_toFinset, List.mem_map, mem_alive_iff, cell?,
      Keyed.lookup_eq_some_iff hs.handles]
    constructor
    · rintro ⟨_, hk⟩
      exact ⟨(k, c), List.mem_filter.mpr ⟨hk, by simp⟩, rfl⟩
    · rintro ⟨⟨i, d⟩, hp, rfl⟩
      obtain ⟨hi, hd⟩ := List.mem_filter.mp hp
      obtain rfl : d = c := by simpa using hd
      exact ⟨by rw [(Keyed.lookup_eq_some_iff hs.handles).mpr hi]; rfl, hi⟩
  have hnodup : ((s.holds.filter fun p => p.2 == c).map Prod.fst).Nodup :=
    hs.handles.sublist (List.filter_sublist.map _)
  rw [hset, List.toFinset_card_of_nodup hnodup, List.length_map, holders,
    List.countP_eq_length_filter]

/-- A handle's count is the number of handles on its cell. -/
theorem Counted.refs_eq_card (hs : Counted base [] s) (h : Nat) :
    s.refs h = (s.alive.filter fun k => s.cell? k = s.cell? h).card := by
  cases hc : s.cell? h with
  | none =>
      have hempty : s.alive.filter (fun k => s.cell? k = none) = ∅ := by
        refine Finset.filter_eq_empty_iff.mpr fun k hk hn => ?_
        rw [mem_alive_iff, hn] at hk
        cases hk
      simp [refs, content?, hc, hempty]
  | some c =>
      obtain ⟨x, hx, hv⟩ := hs.content hc
      have hcount := hs.count c
      rw [count_of_lookup hx, List.count_nil, Nat.add_zero] at hcount
      rw [← hs.holders_eq_card c, ← hcount]
      simp [refs, hv]

/-- Nothing is in memory but what handles hold. -/
theorem Counted.image_cell (hs : Counted base [] s) :
    s.alive.image s.cell? = (s.cells.map fun p => some p.1).toFinset := by
  ext o
  rw [Finset.mem_image, List.mem_toFinset, List.mem_map]
  constructor
  · rintro ⟨k, hk, rfl⟩
    obtain ⟨c, hc⟩ := Option.isSome_iff_exists.mp (mem_alive_iff.mp hk)
    obtain ⟨x, hx, _⟩ := hs.content hc
    exact ⟨(c, x), Keyed.mem_of_lookup hx, hc.symm⟩
  · rintro ⟨⟨c, x⟩, hp, rfl⟩
    have hx := (Keyed.lookup_eq_some_iff hs.cells).mpr hp
    have hcount := hs.count c
    rw [count_of_lookup hx, List.count_nil, hs.holders_eq_card c] at hcount
    have hpos : 0 < (s.alive.filter fun k => s.cell? k = some c).card := by
      have := hs.positive c x hx
      omega
    obtain ⟨k, hk⟩ := Finset.card_pos.mp hpos
    obtain ⟨hk, hc⟩ := Finset.mem_filter.mp hk
    exact ⟨k, hk, hc⟩

theorem Counted.live_eq_card (hs : Counted base [] s) :
    s.live = base + (s.alive.image s.cell?).card := by
  have hnodup : (s.cells.map fun p => some p.1).Nodup := by
    have hmap : (s.cells.map fun p => some p.1) = (s.cells.map Prod.fst).map some := by simp
    rw [hmap]
    exact hs.cells.map (Option.some_injective Nat)
  rw [hs.live, hs.image_cell, List.toFinset_card_of_nodup hnodup, List.length_map]

end NetKit.Handles
