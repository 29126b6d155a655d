import NetKit.Device.File
import NetKit.Proofs.Device.Calls
import NetKit.Proofs.Disk.OpenFiles

/-!
# Positions of files

A device over a file keeps a position beside the offset that the disk keeps for its open file. Both
move together, except that a file that appends is opened at its beginning while the device stands
at the end, and that a write goes to the end wherever the device stands.
-/

namespace NetKit.FileDevice

open Device (Answer Backing Call Fault Placed Target)

/-- A device after it was opened, and the disk that its file is on. -/
def opening (f : FileDevice) (mode : OpenMode) (d : Disk) : Placed Disk StoredFile :=
  ⟨(f.open mode d).device, (f.open mode d).system⟩

/-- The file that the device has open, as the disk keeps it. -/
def openFile? (p : Placed Disk StoredFile) : Option OpenFile :=
  p.device.backing.descriptor.bind p.system.openFile?

/-- The position of the device is the offset of its open file. -/
def InStep (p : Placed Disk StoredFile) : Prop :=
  ∃ f, openFile? p = some f ∧ f.offset = p.device.pos

/-- Something is written to a file that appends, and the device does not stand at its end. -/
def Strays (p : Placed Disk StoredFile) : Call → Prop
  | .write bs =>
    bs ≠ [] ∧ (p.call (.write bs)).1.isOk = true ∧ (openFile? p).any (·.append) = true ∧
      p.device.pos ≠ p.device.size p.system
  | _ => False

instance (p : Placed Disk StoredFile) : ∀ c, Decidable (Strays p c)
  | .write bs => inferInstanceAs (Decidable (bs ≠ [] ∧ _ ∧ _ ∧ _))
  | .seek _ | .read _ | .pos | .size | .atEnd => inferInstanceAs (Decidable False)

variable {p : Placed Disk StoredFile} {f : OpenFile} {c : Call} {cs : List Call}

/-- What only changes open files leaves the rest of the disk alone, and the file of the device. -/
theorem withDescriptor_keeps {α : Type} (v : StoredFile) (d : Disk)
    (pass : FileDescriptor → Disk → Except SystemError α × Disk)
    (hpass : ∀ fd, ∃ opened, (pass fd d).2 = { d with opened }) :
    (v.withDescriptor d pass).backing = v ∧
      ∃ opened, (v.withDescriptor d pass).system = { d with opened } := by
  rw [StoredFile.withDescriptor]
  split
  · exact ⟨rfl, d.opened, rfl⟩
  · exact ⟨rfl, hpass _⟩

/-! ## One call -/

/-- What a call answers, and where it takes the device and its open file. -/
inductive Moves (p : Placed Disk StoredFile) (f : OpenFile) :
    Call → Except Fault Answer → Nat → OpenFile → Prop
  | refused {c : Call} {e : Fault} : Moves p f c (.error e) p.device.pos f
  | looked {c : Call} {a : Answer} (h : c = .pos ∨ c = .size ∨ c = .atEnd) :
      Moves p f c (.ok a) p.device.pos f
  | sought {t : Target} {n : Nat} :
      Moves p f (.seek t) (.ok (.number n)) n { f with offset := n }
  | took {count n : Nat} {bs : Bytes} (hfile : f.file = some n)
      (hbs : bs = ((p.system.bytesOf n).drop f.offset).take count) :
      Moves p f (.read count) (.ok (.octets bs)) (p.device.pos + bs.length)
        { f with offset := f.offset + bs.length }
  | nothing : Moves p f (.write []) (.ok (.number 0)) p.device.pos f
  | put {bs : Bytes} {n start : Nat} (hbs : bs ≠ []) (hfile : f.file = some n)
      (hstart : start = if f.append then (p.system.bytesOf n).length else f.offset) :
      Moves p f (.write bs) (.ok (.number bs.length)) (p.device.pos + bs.length)
        { f with offset := start + bs.length }

/-- A call leads to some placed device where the open file is the one that it moved to. -/
def MovesTo (p : Placed Disk StoredFile) (f : OpenFile) (c : Call)
    (r : Except Fault Answer × Placed Disk StoredFile) : Prop :=
  ∃ g, openFile? r.2 = some g ∧ Moves p f c r.1 r.2.device.pos g

/-- The device goes on with the file that was open, as it was left. -/
theorem openFile?_setOpen {v : FileDevice} {d : Disk} {fd : FileDescriptor} {g : OpenFile}
    (hv : v.backing.descriptor = some fd) (hd : d.openFile? fd = some g) (f : OpenFile) :
    openFile? ⟨v, d.setOpen fd f⟩ = some f := by
  rw [openFile?, hv, Option.bind_some]
  exact Disk.openFile?_setOpen hd f

theorem movesTo_seek (h : openFile? p = some f) (t : Target) :
    MovesTo p f (.seek t) (p.call (.seek t)) := by
  obtain ⟨fd, hfd, hf⟩ := Option.bind_eq_some_iff.mp h
  obtain ⟨file, offset, append⟩ := f
  have hbacking (n : Nat) :=
    StoredFile.withDescriptor_eq hfd p.system fun fd s => Storage.seekTo fd n s
  simp only [Storage.seekTo, Disk.seekTo_eq hf] at hbacking
  simp only [Placed.call, Device.seek, Backing.seek?, Storage.seekTo, hbacking]
  split
  · exact ⟨_, h, .refused⟩
  · split
    · exact ⟨_, h, .refused⟩
    · by_cases hfar : p.system.maxOffset < (p.device.resolve t p.system).toNat
      · simp only [if_pos hfar]
        exact ⟨_, h, .refused⟩
      · simp only [if_neg hfar]
        exact ⟨_, openFile?_setOpen hfd hf _, .sought⟩

theorem movesTo_read (h : openFile? p = some f) (count : Nat) :
    MovesTo p f (.read count) (p.call (.read count)) := by
  obtain ⟨fd, hfd, hf⟩ := Option.bind_eq_some_iff.mp h
  obtain ⟨file, offset, append⟩ := f
  simp only [Placed.call, Device.read, Backing.read?, Storage.readSome,
    StoredFile.withDescriptor_eq hfd]
  split
  · exact ⟨_, h, .refused⟩
  · split
    · exact ⟨_, h, .refused⟩
    · cases file with
      | none =>
          simp only [Disk.readSome_directory hf]
          exact ⟨_, h, .refused⟩
      | some n =>
          simp only [Disk.readSome_eq hf]
          exact ⟨_, openFile?_setOpen hfd hf _, .took rfl rfl⟩

theorem movesTo_write (h : openFile? p = some f) (bs : Bytes) :
    MovesTo p f (.write bs) (p.call (.write bs)) := by
  obtain ⟨fd, hfd, hf⟩ := Option.bind_eq_some_iff.mp h
  obtain ⟨file, offset, append⟩ := f
  simp only [Placed.call, Device.write, Backing.write?, Storage.writeAll,
    StoredFile.withDescriptor_eq hfd]
  split
  · exact ⟨_, h, .refused⟩
  · split
    · exact ⟨_, h, .refused⟩
    · cases file with
      | none =>
          simp only [Disk.writeAll_directory hf]
          exact ⟨_, h, .refused⟩
      | some n =>
          by_cases hbs : bs = []
          · subst hbs
            simp only [Disk.writeAll_nil hf]
            exact ⟨_, h, .nothing⟩
          · rcases Disk.writeAll_cases hf hbs with ⟨e, he⟩ | ⟨start, hstart, hwrite⟩
            · simp only [he]
              exact ⟨_, h, .refused⟩
            · simp only [hwrite]
              exact ⟨_, openFile?_setOpen hfd hf _, .put hbs rfl hstart⟩

theorem movesTo_call (h : openFile? p = some f) (c : Call) : MovesTo p f c (p.call c) := by
  cases c with
  | seek t => exact movesTo_seek h t
  | read count => exact movesTo_read h count
  | write bs => exact movesTo_write h bs
  | pos => exact ⟨f, h, .looked (.inl rfl)⟩
  | size => exact ⟨f, h, .looked (.inr (.inl rfl))⟩
  | atEnd => exact ⟨f, h, .looked (.inr (.inr rfl))⟩

/-! ## Opening -/

theorem openPath_eq_ok {mode : OpenMode} {b b' : StoredFile} {d d' : Disk} {size : Nat}
    (h : b.openPath mode d = ⟨.ok size, b', d'⟩) :
    ∃ fd, d.openFile b.path (StoredFile.access mode) = (.ok fd, d') ∧
      b' = { b with descriptor := some fd } ∧ Disk.openSize fd d' = size := by
  simp only [StoredFile.openPath, Storage.openFile] at h
  split at h
  · cases h
  · rename_i fd e hopen
    cases h
    exact ⟨fd, hopen, rfl, rfl⟩

theorem create_eq_ok {template : String} {b b' : StoredFile} {d d' : Disk} {size : Nat}
    (h : b.create template d = ⟨.ok size, b', d'⟩) :
    ∃ directory start tail fd path,
      Disk.createUnique directory start tail d = (.ok (fd, path), d') ∧
        b' = { b with path, descriptor := some fd } ∧ size = 0 := by
  simp only [StoredFile.create, Storage.createUnique] at h
  split at h
  · cases h
  · rename_i fd path e hcreate
    cases h
    exact ⟨_, _, _, fd, path, hcreate, rfl, rfl⟩

/-- A file is opened at its first octet, and the device is told its size. -/
theorem begins_of_open? {mode : OpenMode} {b b' : StoredFile} {d d' : Disk} {size : Nat}
    (h : Backing.open? mode b d = ⟨.ok size, b', d'⟩) :
    ∃ fd g, b'.descriptor = some fd ∧ d'.openFile? fd = some g ∧ g.offset = 0 ∧
      Disk.openSize fd d' = size := by
  simp only [Backing.open?] at h
  split at h
  · obtain ⟨_, _, _, fd, path, hcreate, rfl, rfl⟩ := create_eq_ok h
    obtain ⟨g, hg, hoffset, hmade⟩ := Disk.begins_of_openFile (Disk.createUnique_eq_ok hcreate)
    exact ⟨fd, g, rfl, hg, hoffset, hmade rfl⟩
  · obtain ⟨fd, hopen, rfl, hsize⟩ := openPath_eq_ok h
    obtain ⟨g, hg, hoffset, -⟩ := Disk.begins_of_openFile hopen
    exact ⟨fd, g, rfl, hg, hoffset, hsize⟩

/-- A device that was opened stands at the end of its file if it appends, its open file at the
beginning. -/
theorem opened_at {v : FileDevice} {mode : OpenMode} {d : Disk}
    (h : (v.open mode d).answer = .ok ()) :
    ∃ g, openFile? (opening v mode d) = some g ∧ g.offset = 0 ∧
      (opening v mode d).device.pos =
        if (opening v mode d).device.mode.appends then
          (opening v mode d).device.size (opening v mode d).system
        else 0 := by
  obtain ⟨size, b, d', hreply, hopen⟩ := Device.open_eq_ok h
  obtain ⟨fd, g, hfd, hg, hoffset, hsize⟩ := begins_of_open? hreply
  rw [opening, hopen]
  refine ⟨g, ?_, hoffset, ?_⟩
  · simp only [openFile?, hfd, Option.bind_some, hg]
  · simp only [Device.size, Backing.size, hfd, Storage.openSize, hsize]

/-! ## Staying in step -/

theorem size_eq {n : Nat} (h : openFile? p = some f) (hfile : f.file = some n) :
    p.device.size p.system = (p.system.bytesOf n).length := by
  obtain ⟨fd, hfd, hf⟩ := Option.bind_eq_some_iff.mp h
  obtain ⟨file, offset, append⟩ := f
  cases hfile
  simp only [Device.size, Backing.size, hfd, Storage.openSize]
  exact Disk.openSize_eq hf

theorem inStep_iff (h : openFile? p = some f) : InStep p ↔ f.offset = p.device.pos := by
  simp [InStep, h]

/-- Of the calls to a device in step, those that stray and no others put it out of step. -/
theorem InStep.call_iff (h : InStep p) (c : Call) : InStep (p.call c).2 ↔ ¬ Strays p c := by
  obtain ⟨f, hf, hpos⟩ := h
  obtain ⟨g, hg, hmoves⟩ := movesTo_call hf c
  rw [inStep_iff hg]
  generalize hanswer : (p.call c).1 = a at hmoves
  generalize (p.call c).2.device.pos = pos at hmoves ⊢
  cases hmoves with
  | refused =>
      refine iff_of_true hpos fun hstrays => ?_
      cases c with
      | write bs =>
          have hok := hstrays.2.1
          rw [hanswer] at hok
          cases hok
      | _ => exact hstrays
  | looked hc =>
      refine iff_of_true hpos ?_
      rcases hc with rfl | rfl | rfl <;> exact not_false
  | sought => exact iff_of_true rfl not_false
  | took => exact iff_of_true (congrArg (· + _) hpos) not_false
  | nothing => exact iff_of_true hpos fun hstrays => hstrays.1 rfl
  | put hbs hfile hstart =>
      rename_i bs n start
      have hstrays : Strays p (.write bs) ↔ f.append = true ∧ p.device.pos ≠ start := by
        simp only [Strays, hanswer, hf, size_eq hf hfile, Option.any_some, ne_eq, hbs,
          not_false_eq_true, true_and, Except.isOk, Except.toBool]
        refine and_congr_right fun happend => ?_
        rw [hstart, if_pos happend]
      simp only [hstrays, not_and, ne_eq, Decidable.not_not]
      cases happend : f.append with
      | true => simp [eq_comm]
      | false =>
          rw [happend] at hstart
          simpa [hstart] using hpos

/-! ## Sequences of calls -/

theorem openFile?_after (h : openFile? p = some f) (cs : List Call) :
    ∃ g, openFile? (p.after cs) = some g := by
  induction cs generalizing p f with
  | nil => exact ⟨f, h⟩
  | cons c cs ih =>
      obtain ⟨g, hg, -⟩ := movesTo_call h c
      exact ih hg

/-- A read takes its octets at the offset of the open file. -/
theorem read_at_offset {n : Nat} (h : openFile? p = some f) (hfile : f.file = some n)
    (hreads : p.device.mode.reads = true) (count : Nat) :
    (p.call (.read count)).1 =
      .ok (.octets (((p.system.bytesOf n).drop f.offset).take count)) := by
  obtain ⟨fd, hfd, hf⟩ := Option.bind_eq_some_iff.mp h
  obtain ⟨file, offset, append⟩ := f
  cases hfile
  have hopen : p.device.isOpen = true := by
    cases hclosed : p.device.isOpen with
    | true => rfl
    | false =>
        have hmode : p.device.mode = .closed := by simpa [Device.isOpen] using hclosed
        rw [hmode] at hreads
        cases hreads
  simp only [Placed.call, Device.read, hopen, hreads, Bool.not_true, Bool.false_eq_true, ite_false,
    Backing.read?, Storage.readSome, StoredFile.withDescriptor_eq hfd, Disk.readSome_eq hf]
  rfl

/-- A device that was opened is where its open file is all along exactly when it does not append to
a file with contents, and never writes to a file that appends while it stands elsewhere than at the
end. Whether in step or not, it reads at the offset of its open file. A write that fails is taken to
have written nothing and to leave that offset where it was, as `Disk.writeAll` has it. -/
theorem in_step_iff_never_strays {v : FileDevice} {mode : OpenMode} {d : Disk}
    (h : (v.open mode d).answer = .ok ()) (cs : List Call) :
    ((∀ taken, taken <+: cs → InStep ((opening v mode d).after taken)) ↔
      ((opening v mode d).device.mode.appends = true →
        (opening v mode d).device.size (opening v mode d).system = 0) ∧
      (opening v mode d).Along (fun p c => ¬ Strays p c) cs) ∧
    ∃ f, openFile? ((opening v mode d).after cs) = some f ∧
      ∀ n count, f.file = some n → ((opening v mode d).after cs).device.mode.reads = true →
        (((opening v mode d).after cs).call (.read count)).1 =
          .ok (.octets
            (((((opening v mode d).after cs).system.bytesOf n).drop f.offset).take count)) := by
  obtain ⟨g, hg, hoffset, hpos⟩ := opened_at h
  have hstart : InStep (opening v mode d) ↔
      ((opening v mode d).device.mode.appends = true →
        (opening v mode d).device.size (opening v mode d).system = 0) := by
    rw [inStep_iff hg, hoffset, hpos]
    split
    · rename_i happends
      simp [happends, eq_comm]
    · rename_i happends
      simp [happends]
  refine ⟨⟨fun halways => ?_, fun ⟨hsize, halong⟩ => ?_⟩, ?_⟩
  · have hfirst : InStep (opening v mode d) := halways [] List.nil_prefix
    exact ⟨hstart.mp hfirst,
      (Placed.always_iff_along (fun _ c hp => hp.call_iff c) hfirst cs).mp halways⟩
  · exact (Placed.always_iff_along (fun _ c hp => hp.call_iff c) (hstart.mpr hsize) cs).mpr halong
  · obtain ⟨f, hf⟩ := openFile?_after hg cs
    exact ⟨f, hf, fun n count hfile hreads => read_at_offset hf hfile hreads count⟩

def oneFile (bs : Bytes) : Disk where
  files := [(["tmp", "work", "f"], 0)]
  data := [(0, bs)]
  fresh := 1

/-- An empty file that is read from its start while it grows at its end. -/
theorem in_step_while_growing :
    let p := opening (.ofPath "f") (OpenMode.readOnly.union OpenMode.append) (oneFile [])
    let cs := [Call.write [97, 98], .seek (.start 0), .read 1, .seek (.fromEnd 0), .write [99]]
    ((FileDevice.ofPath "f").open (OpenMode.readOnly.union OpenMode.append) (oneFile [])).answer =
        .ok () ∧
      p.device.mode.appends = true ∧ ∀ taken, taken <+: cs → InStep (p.after taken) := by
  intro p cs
  have hopen : ((FileDevice.ofPath "f").open (OpenMode.readOnly.union OpenMode.append)
      (oneFile [])).answer = .ok () := rfl
  have hstays : p.Along (fun p c => ¬ Strays p c) cs := by decide
  have happends : p.device.mode.appends = true := by decide
  have hempty : p.device.size p.system = 0 := by decide
  exact ⟨hopen, happends, (in_step_iff_never_strays hopen cs).1.mpr ⟨fun _ => hempty, hstays⟩⟩

/-- A file of two octets is read from its start by a device that stands at its end. -/
theorem appending_reads_from_start :
    ¬ ∀ (v : FileDevice) (mode : OpenMode) (d : Disk) (cs : List Call),
      (v.open mode d).answer = .ok () → InStep ((opening v mode d).after cs) := by
  intro h
  obtain ⟨f, hf, hoffset⟩ := h (.ofPath "f") (OpenMode.readOnly.union OpenMode.append)
    (oneFile [97, 98]) [] rfl
  cases hf
  cases hoffset

end NetKit.FileDevice
