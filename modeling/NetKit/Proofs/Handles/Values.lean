import NetKit.Proofs.Handles.Counts

/-!
# What is read through a handle

Each operation changes what is read through the handle that it names and through no other, whether
the handle shares its value or not.
-/

namespace NetKit.Handles

variable {α ε : Type} {base : Nat} {owed : List Nat} {s : Handles α} {c : Nat}

/-- What is read through a handle depends on its cell and on the value there. -/
theorem get?_congr {s t : Handles α} {k : Nat} (hk : t.cell? k = s.cell? k)
    (hv : ∀ c, s.cell? k = some c →
      (List.lookup c t.cells).map (·.value) = (List.lookup c s.cells).map (·.value)) :
    t.get? k = s.get? k := by
  simp only [get?, content?, hk]
  cases hc : s.cell? k with
  | none => rfl
  | some c => simpa using hv c hc

theorem Counted.get?_isSome (hs : Counted base owed s) (k : Nat) :
    (s.get? k).isSome = (s.cell? k).isSome := by
  cases hk : s.cell? k with
  | none => simp [get?, content?, hk]
  | some c =>
      obtain ⟨x, _, hc⟩ := hs.content hk
      simp [get?, hc]

/-! ## Cells -/

theorem Counted.get?_alloc (hs : Counted base owed s) (a : α) (k : Nat) :
    (s.alloc a).get? k = s.get? k := by
  refine get?_congr rfl fun c hc => ?_
  obtain ⟨x, hx, _⟩ := hs.content hc
  have hne : c ≠ s.fresh := Nat.ne_of_lt (hs.fresh c x hx)
  simp [Handles.alloc, Keyed.lookup_cons_ite, hne]

theorem get?_retain (s : Handles α) (c k : Nat) : (s.retain c).get? k = s.get? k := by
  cases hx : List.lookup c s.cells with
  | none => simp [retain, hx]
  | some x =>
      refine get?_congr (by simp [retain, hx, cell?]) fun i _ => ?_
      by_cases hi : i = c
      · simp [retain, hx, hi]
      · simp [retain, hx, hi]

/-- A handle that still holds the cell is counted, so its value stays. -/
theorem Counted.get?_release (hs : Counted base (c :: owed) s) (k : Nat) :
    (s.release c).get? k = s.get? k := by
  have hc := hs.count c
  rw [List.count_cons_self] at hc
  obtain ⟨x, hx, hxc⟩ := lookup_of_count_pos (s := s) (c := c) (by omega)
  by_cases hle : x.count ≤ 1
  · refine get?_congr (by simp [Handles.release, hx, hle, cell?]) fun i hi => ?_
    have hne : i ≠ c := by
      intro he
      have := holders_pos hi
      rw [he] at this
      omega
    simp [Handles.release, hx, hle, hne]
  · refine get?_congr (by simp [Handles.release, hx, hle, cell?]) fun i _ => ?_
    by_cases he : i = c
    · simp [Handles.release, hx, hle, he]
    · simp [Handles.release, hx, hle, he]

/-! ## Handles -/

theorem Counted.get?_point {x : Cell α} (hs : Counted base (c :: owed) s)
    (hx : List.lookup c s.cells = some x) (h k : Nat) :
    (s.point h c).get? k = if k = h then some x.value else s.get? k := by
  have ht : Handles.get? { s with holds := Keyed.put h c s.holds } k =
      if k = h then some x.value else s.get? k := by
    by_cases hk : k = h
    · simp [get?, content?, cell?, hk, hx]
    · simp [get?, content?, cell?, hk]
  rw [← ht]
  have hh := hs.hold h
  simp only [Handles.point]
  cases ho : s.cell? h with
  | none => rfl
  | some old =>
      simp only [ho, Option.toList_some, List.singleton_append] at hh
      exact hh.get?_release k

theorem Counted.get?_insert (hs : Counted base owed s) (h : Nat) (a : α) (k : Nat) :
    (s.insert h a).get? k = if k = h then some a else s.get? k := by
  have hx : List.lookup s.fresh (s.alloc a).cells = some { value := a } := by
    simp [Handles.alloc]
  rw [Handles.insert, (hs.alloc a).get?_point hx h k, hs.get?_alloc a k]

theorem Counted.get?_copy {source : Nat} (hs : Counted base owed s)
    (hc : s.cell? source = some c) (h k : Nat) :
    ((s.retain c).point h c).get? k = if k = h then s.get? source else s.get? k := by
  obtain ⟨x, hx, hv⟩ := hs.content hc
  have hy : List.lookup c (s.retain c).cells = some { x with count := x.count + 1 } := by
    simp [Handles.retain, hx]
  have hsource : s.get? source = some x.value := by simp [get?, hv]
  rw [(hs.retain hc).get?_point hy h k, get?_retain, hsource]

theorem Counted.get?_drop (hs : Counted base owed s) (h k : Nat) :
    (s.drop h).get? k = if k = h then none else s.get? k := by
  have ht : Handles.get? { s with holds := Keyed.erase h s.holds } k =
      if k = h then none else s.get? k := by
    by_cases hk : k = h
    · simp [get?, content?, cell?, hk]
    · simp [get?, content?, cell?, hk]
  rw [Handles.drop]
  cases hc : s.cell? h with
  | none =>
      by_cases hk : k = h
      · simp [get?, content?, hk, hc]
      · simp [hk]
  | some c =>
      rw [← ht]
      exact (hs.unhold hc).get?_release k

theorem Counted.two_le_count {h k : Nat} (hs : Counted base owed s) (hh : s.cell? h = some c)
    (hk : s.cell? k = some c) (hne : k ≠ h) : 2 ≤ s.count c := by
  have he : List.lookup k (Keyed.erase h s.holds) = some c := by
    rw [Keyed.lookup_erase, if_neg hne]
    exact hk
  have hpos : 0 < (Keyed.erase h s.holds).countP fun p => p.2 == c :=
    List.countP_pos_iff.mpr ⟨(k, c), Keyed.mem_of_lookup he, by simp⟩
  have hholders := holders_erase hs.handles hh c
  rw [List.count_singleton_self] at hholders
  have hcount := hs.count c
  omega

/-- The value is replaced in its cell where no other handle holds the cell. -/
theorem Counted.get?_set (hs : Counted base owed s) (h : Nat) (a : α) (k : Nat) :
    (s.set h a).get? k = if k = h then (s.get? h).map fun _ => a else s.get? k := by
  cases hc : s.cell? h with
  | none =>
      by_cases hk : k = h
      · simp [Handles.set, hc, hk, get?, content?]
      · simp [Handles.set, hc, hk]
  | some c =>
      obtain ⟨x, hx, hv⟩ := hs.content hc
      have hread : s.get? h = some x.value := by simp [get?, hv]
      by_cases hle : x.count ≤ 1
      · have hset : s.set h a = { s with cells := Keyed.put c { x with value := a } s.cells } := by
          simp [Handles.set, hc, hx, hle]
        rw [hset]
        by_cases hk : k = h
        · rw [if_pos hk, hk, hread]
          simp only [cell?] at hc
          simp [get?, content?, cell?, hc]
        · rw [if_neg hk]
          refine get?_congr rfl fun i hi => ?_
          have hne : i ≠ c := by
            intro he
            have := hs.two_le_count hc (he ▸ hi) hk
            rw [count_of_lookup hx] at this
            omega
          simp [hne]
      · have hset : s.set h a = s.insert h a := by simp [Handles.set, hc, hx, hle]
        rw [hset, hs.get?_insert h a k, hread, Option.map_some]

end NetKit.Handles
