import NetKit.Disk
import NetKit.Proofs.Answers

/-!
# Open files

What is done to an open file leaves the places of the disk as they are. A file that is there is
opened as the one that stands at its place, and one that is not is made there without octets.
-/

namespace NetKit.Disk

open Answer

variable {d : Disk} {text : String} {n : Nat} {bs : Bytes} {p q here : Place}

/-! ## One open file -/

theorem bytesOf_setBytes (d : Disk) (n : Nat) (bs : Bytes) : (d.setBytes n bs).bytesOf n = bs := by
  simp [bytesOf, setBytes]

theorem openFile?_openNode (d : Disk) (file : Option Nat) (append : Bool) :
    (d.openNode file append).2.openFile? (d.openNode file append).1 = some { file, append } := by
  simp [openFile?, openNode]

theorem openFile?_setOpen {fd : FileDescriptor} {old : OpenFile} (h : d.openFile? fd = some old)
    (f : OpenFile) : (d.setOpen fd f).openFile? fd = some f := by
  simp only [openFile?, setOpen] at h ⊢
  generalize d.opened = es at h ⊢
  induction es with
  | nil => cases h
  | cons e es ih =>
      rw [List.map_cons]
      by_cases hk : e.1 = fd
      · simp [hk]
      · have hne : fd ≠ e.1 := Ne.symm hk
        rw [Keyed.lookup_cons_ite, if_neg hne] at h
        rw [if_neg (by simpa using hk), Keyed.lookup_cons_ite, if_neg hne, ih h]

/-! ## Transfers -/

theorem seekTo_eq_ok {fd : FileDescriptor} {offset : Nat} :
    (seekTo fd offset d).1 = .ok () ↔ (∃ f, d.openFile? fd = some f) ∧ offset ≤ d.maxOffset := by
  rw [seekTo]
  cases d.openFile? fd with
  | none => simp
  | some f => by_cases hfar : d.maxOffset < offset <;> simp [hfar, Nat.not_lt.mp]

/-- Only the open files change. -/
theorem seekTo_keeps (fd : FileDescriptor) (offset : Nat) (d : Disk) :
    ∃ opened, (seekTo fd offset d).2 = { d with opened } := by
  rw [seekTo]
  split
  · exact ⟨d.opened, rfl⟩
  · split
    · exact ⟨d.opened, rfl⟩
    · exact ⟨_, rfl⟩

/-- Only the open files change. -/
theorem readSome_keeps (fd : FileDescriptor) (count : Nat) (d : Disk) :
    ∃ opened, (readSome fd count d).2 = { d with opened } := by
  rw [readSome]
  split
  · exact ⟨d.opened, rfl⟩
  · split
    · exact ⟨d.opened, rfl⟩
    · exact ⟨_, rfl⟩

section Transfers

variable {fd : FileDescriptor} {offset : Nat} {append : Bool}

theorem openSize_eq (h : d.openFile? fd = some { file := some n, offset, append }) :
    openSize fd d = (d.bytesOf n).length := by
  rw [openSize, h]

theorem seekTo_eq {file : Option Nat} (h : d.openFile? fd = some { file, offset, append })
    (next : Nat) :
    seekTo fd next d =
      if d.maxOffset < next then (.error .invalid, d)
      else (.ok (), d.setOpen fd { file, offset := next, append }) := by
  rw [seekTo, h]

theorem readSome_eq (h : d.openFile? fd = some { file := some n, offset, append }) (count : Nat) :
    readSome fd count d =
      (.ok (((d.bytesOf n).drop offset).take count),
        d.setOpen fd
          { file := some n,
            offset := offset + (((d.bytesOf n).drop offset).take count).length,
            append }) := by
  rw [readSome, h]

theorem readSome_directory (h : d.openFile? fd = some { file := none, offset, append })
    (count : Nat) : readSome fd count d = (.error .isDirectory, d) := by
  rw [readSome, h]

theorem writeAll_directory (h : d.openFile? fd = some { file := none, offset, append })
    (bs : Bytes) : writeAll fd bs d = (.error .isDirectory, d) := by
  rw [writeAll, h]

theorem writeAll_nil (h : d.openFile? fd = some { file := some n, offset, append }) :
    writeAll fd [] d = (.ok (), d) := by
  simp [writeAll, h]

/-- A write goes to the offset, or to the end of a file that appends; the offset comes after it. -/
theorem writeAll_cases (h : d.openFile? fd = some { file := some n, offset, append })
    (hbs : bs ≠ []) :
    (∃ e, writeAll fd bs d = (.error e, d)) ∨
      ∃ start, start = (if append then (d.bytesOf n).length else offset) ∧
        writeAll fd bs d =
          (.ok (), (d.setBytes n ((d.bytesOf n).overwrite start bs)).setOpen fd
            { file := some n, offset := start + bs.length, append }) := by
  simp only [writeAll, h]
  rw [if_neg (by simpa using hbs)]
  generalize hstart : (if append then (d.bytesOf n).length else offset) = start
  split
  · exact .inl ⟨_, rfl⟩
  · split
    · exact .inl ⟨_, rfl⟩
    · exact .inr ⟨start, rfl, rfl⟩

theorem writeAll_eq (h : d.openFile? fd = some { file := some n, offset }) (hbs : bs ≠ [])
    (hsize : offset + bs.length ≤ min d.capacity d.maxOffset) :
    writeAll fd bs d =
      (.ok (), (d.setBytes n ((d.bytesOf n).overwrite offset bs)).setOpen fd
        { file := some n, offset := offset + bs.length }) := by
  have hreach : ¬ d.maxOffset < offset + bs.length := by omega
  have hspace : ¬ d.capacity < offset + bs.length := by omega
  simp [writeAll, h, hbs, hreach, hspace]

end Transfers

/-! ## Opening -/

/-- What a path is opened as: a directory, the file that is there, or one that is made. -/
inductive Opens (d : Disk) (text : String) (a : Access) : FileDescriptor → Disk → Prop
  | directory {fd : FileDescriptor} {e : Disk} (h : d.openDirectory a = (.ok fd, e)) :
      Opens d text a fd e
  | there {p : Place} {n : Nat} {e : Disk} (hgoal : d.goal text = .ok (.entry p false))
      (hnode : d.node? p = some (.file n)) (hcreation : a.creation ≠ .always)
      (he : e = if a.truncate then d.setBytes n [] else d) :
      Opens d text a (e.openNode (some n) a.append).1 (e.openNode (some n) a.append).2
  | made {p : Place} {e : Disk} (hgoal : d.goal text = .ok (.entry p false))
      (hnode : d.node? p = none) (he : e = (d.create p).2) :
      Opens d text a (e.openNode (some d.fresh) a.append).1 (e.openNode (some d.fresh) a.append).2

theorem opens_of_openFile {a : Access} {fd : FileDescriptor} {e : Disk}
    (h : d.openFile text a = (.ok fd, e)) : d.Opens text a fd e := by
  simp only [openFile] at h
  split at h
  · cases h
  · split at h
    · cases h
    · split at h
      · cases h
      · exact .directory h
      · rename_i place slash hgoal
        split at h
        · cases h
        · rename_i hslash
          split at h
          · exact .directory h
          · rename_i n hnode
            split at h
            · cases h
            · rename_i hcreation
              split at h
              · cases h
              · rename_i hslash
                rw [Bool.eq_false_iff.mpr hslash] at hgoal
                cases h
                exact .there hgoal hnode hcreation rfl
          · rename_i hnode
            split at h
            · cases h
            · rename_i hcreation
              rw [Bool.eq_false_iff.mpr fun h => hslash ⟨h, hcreation⟩] at hgoal
              cases h
              exact .made hgoal hnode rfl

/-- An open file stands at its first octet; one that was made has none. -/
def Begins (d : Disk) (fd : FileDescriptor) (made : Prop) : Prop :=
  ∃ f, d.openFile? fd = some f ∧ f.offset = 0 ∧ (made → openSize fd d = 0)

theorem begins_of_openDirectory {a : Access} {fd : FileDescriptor} {e : Disk}
    (h : d.openDirectory a = (.ok fd, e)) : e.Begins fd (a.creation = .always) := by
  simp only [openDirectory] at h
  split at h
  · cases h
  · rename_i halways
    split at h
    · cases h
    · cases h
      exact ⟨_, openFile?_openNode d none false, rfl, fun h => absurd h halways⟩

theorem begins_of_openFile {a : Access} {fd : FileDescriptor} {e : Disk}
    (h : d.openFile text a = (.ok fd, e)) : e.Begins fd (a.creation = .always) := by
  cases opens_of_openFile h with
  | directory h => exact begins_of_openDirectory h
  | there _ _ hcreation =>
    exact ⟨_, openFile?_openNode _ _ _, rfl, fun h => absurd h hcreation⟩
  | @made place _ _ _ he =>
    have hopened := openFile?_openNode (d.create place).2 (some d.fresh) a.append
    rw [he]
    exact ⟨_, hopened, rfl, fun _ => (openSize_eq hopened).trans
      (congrArg List.length (bytesOf_setBytes d d.fresh []))⟩

/-! ## Opening a file that is there -/

theorem contents_eq_ok :
    d.contents text = .ok bs ↔ ∃ n, d.find text = .ok (.file n) ∧ d.bytesOf n = bs := by
  rw [contents]
  cases d.find text with
  | error e => simp [bind, Except.bind]
  | ok node =>
      cases node with
      | directory => simp [bind, Except.bind]
      | file n => simp [bind, Except.bind, pure, Except.pure]

/-- A path that leads to a file has no zero in it. -/
theorem zero_not_mem_of_goal {g : Goal} (h : d.goal text = .ok g) : '\x00' ∉ text.toList := by
  intro hzero
  simp [goal, Path.read, hzero, bind, Except.bind] at h

theorem goal_of_find (h : d.find text = .ok (.file n)) :
    ∃ p, d.goal text = .ok (.entry p false) ∧ d.node? p = some (.file n) := by
  rw [find] at h
  cases hg : d.goal text with
  | error e => simp [hg, bind, Except.bind] at h
  | ok g =>
      cases g with
      | directory p => simp [hg, bind, Except.bind, pure, Except.pure] at h
      | entry p slash =>
          cases hp : d.node? p with
          | none => simp [hg, hp, bind, Except.bind] at h
          | some node =>
              cases node with
              | directory => simp [hg, hp, bind, Except.bind, pure, Except.pure] at h
              | file k =>
                  cases slash with
                  | true => simp [hg, hp, bind, Except.bind] at h
                  | false =>
                      have hk : k = n := by
                        simpa [hg, hp, bind, Except.bind, pure, Except.pure] using h
                      exact ⟨p, rfl, by rw [hp, hk]⟩

/-- A file that is there is opened at its beginning, and nothing else changes. -/
theorem openFile_of_find {a : Access} (h : d.find text = .ok (.file n)) (hwrite : a.write = true)
    (hcreation : a.creation ≠ .always) (htruncate : a.truncate = false) :
    d.openFile text a = (.ok (d.openNode (some n) a.append).1, (d.openNode (some n) a.append).2) := by
  obtain ⟨p, hgoal, hnode⟩ := goal_of_find h
  simp [openFile, zero_not_mem_of_goal hgoal, hgoal, hnode, hwrite, hcreation, htruncate]

/-! ## A file that is made -/

theorem node?_eq_directory : d.node? p = some .directory ↔ p ∈ d.directories := by
  rw [node?]
  split
  · rename_i hp
    exact iff_of_true rfl hp
  · rename_i hp
    exact iff_of_false (by simp) hp

theorem enter_create {name : String} (p : Place) (h : d.enter here name = .ok q) :
    (d.create p).2.enter here name = .ok q := by
  by_cases hhere : name = "."
  · simpa [enter, hhere] using h
  · by_cases hparent : name = ".."
    · simpa [enter, hparent] using h
    · by_cases hlong : Path.maxNameLength < Path.octetCount name
      · simp [enter, hhere, hparent, hlong] at h
      · simp only [enter, if_neg hhere, if_neg hparent, if_neg hlong] at h ⊢
        split at h
        · rename_i hnode
          have hmem : here ++ [name] ∈ d.directories := node?_eq_directory.mp hnode
          have hcreated : (d.create p).2.node? (here ++ [name]) = some .directory :=
            node?_eq_directory.mpr hmem
          rwa [hcreated]
        · cases h
        · cases h

theorem foldlM_enter_create {names : List String} (p : Place)
    (h : names.foldlM d.enter here = .ok q) : names.foldlM (d.create p).2.enter here = .ok q := by
  induction names generalizing here with
  | nil => exact h
  | cons name names ih =>
    rw [List.foldlM_cons, bind_eq_ok] at h ⊢
    obtain ⟨next, hnext, hrest⟩ := h
    exact ⟨next, enter_create p hnext, ih hrest⟩

/-- Where a path leads does not depend on the files that are there. -/
theorem goal_create {g : Goal} (p : Place) (h : d.goal text = .ok g) :
    (d.create p).2.goal text = .ok g := by
  rw [goal, bind_eq_ok] at h ⊢
  obtain ⟨path, hpath, h⟩ := h
  obtain ⟨here, hhere, h⟩ := bind_eq_ok.mp h
  exact ⟨path, hpath, bind_eq_ok.mpr ⟨here, foldlM_enter_create p hhere, h⟩⟩

theorem find_of_goal (hgoal : d.goal text = .ok (.entry p false))
    (hnode : d.node? p = some (.file n)) : d.find text = .ok (.file n) := by
  simp [find, hgoal, hnode, bind, Except.bind, pure, Except.pure]

theorem find_of_goal_none {slash : Bool} (hgoal : d.goal text = .ok (.entry p slash))
    (hnode : d.node? p = none) : d.find text = .error .notFound := by
  simp [find, hgoal, hnode, bind, Except.bind]

theorem node?_create (hnode : d.node? p = none) :
    (d.create p).2.node? p = some (.file d.fresh) := by
  have hdirectory : p ∉ d.directories := fun h => by
    rw [node?_eq_directory.mpr h] at hnode
    cases hnode
  have hdirectory' : p ∉ (d.create p).2.directories := hdirectory
  rw [node?, if_neg hdirectory', create, List.lookup_cons_self, Option.map_some]

/-! ## Opening to write -/

theorem openDirectory_of_write {a : Access} (d : Disk) (hwrite : a.write = true) :
    ∃ e, d.openDirectory a = (.error e, d) := by
  rw [openDirectory]
  split
  · exact ⟨_, rfl⟩
  · rw [if_pos (.inr hwrite)]
    exact ⟨_, rfl⟩

/-- The octets at a path; there are none where there is no file. -/
def bytesAt (d : Disk) (text : String) : Bytes := (d.contents text).toOption.getD []

/-- A file that is opened to be written, and not emptied, stands at its path with the octets that
were there. -/
theorem opened_of_openFile {a : Access} {fd : FileDescriptor} {e : Disk}
    (h : d.openFile text a = (.ok fd, e)) (hwrite : a.write = true)
    (htruncate : a.truncate = false) :
    ∃ n, e.openFile? fd = some { file := some n, append := a.append } ∧
      e.find text = .ok (.file n) ∧ e.bytesOf n = d.bytesAt text := by
  cases opens_of_openFile h with
  | directory h =>
    obtain ⟨e', he'⟩ := openDirectory_of_write d hwrite
    cases he'.symm.trans h
  | @there place n _ hgoal hnode _ he =>
    rw [htruncate, if_neg Bool.false_ne_true] at he
    rw [he]
    have hplace : d.find text = .ok (.file n) := find_of_goal hgoal hnode
    refine ⟨n, openFile?_openNode _ _ _, hplace, ?_⟩
    rw [bytesAt, contents_eq_ok.mpr ⟨n, hplace, rfl⟩]
    rfl
  | @made place _ hgoal hnode he =>
    rw [he]
    have hplace : (d.create place).2.find text = .ok (.file d.fresh) :=
      find_of_goal (goal_create place hgoal) (node?_create hnode)
    have hmissing : d.contents text = .error .notFound := by
      rw [contents, find_of_goal_none hgoal hnode]
      rfl
    refine ⟨d.fresh, openFile?_openNode _ _ _, hplace, ?_⟩
    rw [bytesAt, hmissing]
    exact bytesOf_setBytes d d.fresh []

theorem createUnique_eq_ok {directory start tail path : String} {fd : FileDescriptor} {e : Disk}
    (h : createUnique directory start tail d = (.ok (fd, path), e)) :
    d.openFile path { read := true, write := true, creation := .always } = (.ok fd, e) := by
  simp only [createUnique] at h
  split at h
  · cases h
  · rename_i hopen
    cases h
    exact hopen

/-- A file with a name of its own is made without octets. -/
theorem opened_of_createUnique {directory start tail path : String} {fd : FileDescriptor} {e : Disk}
    (h : createUnique directory start tail d = (.ok (fd, path), e)) :
    ∃ n, e.openFile? fd = some { file := some n } ∧ e.find path = .ok (.file n) ∧
      e.bytesOf n = [] := by
  have hopen := createUnique_eq_ok h
  obtain ⟨n, hopened, hplace, -⟩ := opened_of_openFile hopen rfl rfl
  obtain ⟨-, -, -, hmade⟩ := begins_of_openFile hopen
  have hsize : (e.bytesOf n).length = 0 := (openSize_eq hopened).symm.trans (hmade rfl)
  exact ⟨n, hopened, hplace, List.length_eq_zero_iff.mp hsize⟩

end NetKit.Disk
