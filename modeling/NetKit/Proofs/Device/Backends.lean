import NetKit.Device.File
import NetKit.Proofs.Bytes.Overwrite
import NetKit.Proofs.Device.Calls
import NetKit.Proofs.Disk.OpenFiles

/-!
# Buffers and files

A buffer and a file of the same octets that are both open for reading and writing answer alike and
keep the same octets, unless nothing is written past the end: that fills the gap of a buffer, and
does not reach a file. Positions can also be set that no file has.
-/

namespace NetKit.Device

variable {σ : Type}

/-- A device after it was opened for reading and writing. -/
def Placed.opened {σ β : Type} [Backing σ β] (d : Device β) (s : σ) : Placed σ β :=
  ⟨(d.open OpenMode.readWrite s).device, (d.open OpenMode.readWrite s).system⟩

/-- The octets of a buffer stand at the path of a file. -/
def Together (b : Placed σ Memory) (f : Placed Disk StoredFile) : Prop :=
  f.system.contents f.device.backing.path = .ok b.device.backing.data

theorem open_file {d : Disk} {path : String} {n : Nat} (h : d.find path = .ok (.file n)) :
    (FileDevice.ofPath path).open OpenMode.readWrite d =
      ⟨.ok (), { backing := { path, descriptor := some d.fresh }, mode := OpenMode.readWrite },
        (d.openNode (some n) false).2⟩ := by
  have hopened : d.openFile path (StoredFile.access OpenMode.readWrite) =
      (.ok d.fresh, (d.openNode (some n) false).2) :=
    Disk.openFile_of_find h (by decide) (by decide) (by decide)
  have htemplate : StoredFile.template? { path } = none := by simp [StoredFile.template?]
  have hbacking : Backing.open? OpenMode.readWrite (FileDevice.ofPath path).backing d =
      ⟨.ok (Disk.openSize d.fresh (d.openNode (some n) false).2),
        { path, descriptor := some d.fresh }, (d.openNode (some n) false).2⟩ := by
    simp only [Backing.open?, FileDevice.ofPath, htemplate, StoredFile.openPath, Storage.openFile,
      hopened]
    rfl
  have hcompleted : OpenMode.completed OpenMode.readWrite = OpenMode.readWrite := by decide
  have happends : OpenMode.appends OpenMode.readWrite = false := by decide
  have hopen : (FileDevice.ofPath path).isOpen = false := rfl
  have haccess : OpenMode.grantsAccess OpenMode.readWrite = true := by decide
  simp only [Device.open, hopen, hcompleted, haccess, hbacking, happends]
  rfl

/-! ## A memory and an open file -/

/-- A file is open at the position and holds the octets of the memory. The disk is as large as one
before. -/
structure Level (before : Disk) (fd : FileDescriptor) (n pos : Nat) (m : Memory) (s : σ)
    (f : StoredFile) (d : Disk) : Prop where
  descriptor : f.descriptor = some fd
  opened : d.openFile? fd = some { file := some n, offset := pos }
  bytes : d.bytesOf n = m.data
  place : d.find f.path = .ok (.file n)
  capacity : d.capacity = before.capacity
  maxOffset : d.maxOffset = before.maxOffset

variable {before : Disk} {fd : FileDescriptor} {n : Nat}

section Level

variable {pos : Nat} {m : Memory} {s : σ} {f : StoredFile} {d : Disk}

theorem Level.contents (h : Level before fd n pos m s f d) : d.contents f.path = .ok m.data :=
  Disk.contents_eq_ok.mpr ⟨n, h.place, h.bytes⟩

theorem Level.move (h : Level before fd n pos m s f d) (offset : Nat) :
    Level before fd n offset m s f (d.setOpen fd { file := some n, offset }) where
  descriptor := h.descriptor
  opened := Disk.openFile?_setOpen h.opened _
  bytes := h.bytes
  place := h.place
  capacity := h.capacity
  maxOffset := h.maxOffset

theorem Level.replace (h : Level before fd n pos m s f d) (bs : Bytes) (s' : σ) :
    Level before fd n pos (m.replace bs) s' f (d.setBytes n bs) where
  descriptor := h.descriptor
  opened := h.opened
  bytes := d.bytesOf_setBytes n bs
  place := h.place
  capacity := h.capacity
  maxOffset := h.maxOffset

theorem Level.withDescriptor {α : Type} (h : Level before fd n pos m s f d)
    (call : FileDescriptor → Disk → Except SystemError α × Disk) :
    f.withDescriptor d call = ⟨(call fd d).1.mapError .system, f, (call fd d).2⟩ :=
  StoredFile.withDescriptor_eq h.descriptor d call

theorem Level.seek?_file (h : Level before fd n pos m s f d) (mode : OpenMode) (offset : Nat) :
    Backing.seek? mode offset f d =
      if before.maxOffset < offset then ⟨.error (.system .invalid), f, d⟩
      else ⟨.ok (), f, d.setOpen fd { file := some n, offset }⟩ := by
  simp only [Backing.seek?, h.withDescriptor, Storage.seekTo, Disk.seekTo_eq h.opened, h.maxOffset]
  split <;> rfl

theorem Level.write?_file_nil (h : Level before fd n pos m s f d) (p : Nat) :
    Backing.write? p [] f d = ⟨.ok (), f, d⟩ := by
  simp only [Backing.write?, h.withDescriptor, Storage.writeAll, Disk.writeAll_nil h.opened]
  rfl

variable [Allocator σ]

theorem Level.size (h : Level before fd n pos m s f d) : Backing.size m s = Backing.size f d := by
  simp only [Backing.size, h.descriptor, Storage.openSize, Disk.openSize_eq h.opened, h.bytes]

/-- Past the end is a position of a memory that can be written. -/
theorem seek?_memory {mode : OpenMode} (hwrites : mode.writes) (offset : Nat) (m : Memory) (s : σ) :
    Backing.seek? mode offset m s = ⟨.ok (), m, s⟩ := by
  simp [Backing.seek?, hwrites]

theorem Level.seek? (h : Level before fd n pos m s f d) {mode : OpenMode} (hwrites : mode.writes)
    {offset : Nat} (hoffset : ¬ before.maxOffset < offset) :
    Reply.Alike (Level before fd n) pos (fun _ => offset) (Backing.seek? mode offset m s)
      (Backing.seek? mode offset f d) := by
  rw [seek?_memory hwrites, h.seek?_file, if_neg hoffset]
  exact .ok (h.move offset)

theorem Level.read? (h : Level before fd n pos m s f d) (count : Nat) :
    Reply.Alike (Level before fd n) pos (fun bs => pos + bs.length) (Backing.read? pos count m s)
      (Backing.read? pos count f d) := by
  simp only [Backing.read?, h.withDescriptor, Storage.readSome, Disk.readSome_eq h.opened, h.bytes]
  exact .ok (h.move _)

theorem Level.write? (h : Level before fd n pos m s f d) {bs : Bytes} (hbs : bs ≠ [])
    (hsize : pos + bs.length ≤ min before.capacity before.maxOffset)
    (hroom : (m.grow? (pos + bs.length) s).1.isOk) :
    Reply.Alike (Level before fd n) pos (fun _ => pos + bs.length) (Backing.write? pos bs m s)
      (Backing.write? pos bs f d) := by
  rw [← h.capacity, ← h.maxOffset] at hsize
  simp only [Backing.write?, h.withDescriptor, Storage.writeAll,
    Disk.writeAll_eq h.opened hbs hsize, h.bytes]
  cases hgrow : m.grow? (pos + bs.length) s with
  | mk room s' =>
      cases room with
      | error e => simp [hgrow, Except.isOk, Except.toBool] at hroom
      | ok u => exact .ok ((h.replace (m.data.overwrite pos bs) s').move _)

/-- To write nothing changes no octet, unless there is a gap in front. -/
theorem Level.write?_nil (h : Level before fd n pos m s f d) (hpos : pos ≤ m.data.length) :
    Reply.Alike (Level before fd n) pos (fun _ => pos) (Backing.write? pos [] m s)
      (Backing.write? pos [] f d) := by
  have hroom : m.grow? (pos + ([] : Bytes).length) s = (.ok (), s) := if_pos hpos
  rw [h.write?_file_nil]
  simp only [Backing.write?, hroom, Bytes.overwrite_nil hpos]
  exact .ok ⟨h.descriptor, h.opened, h.bytes, h.place, h.capacity, h.maxOffset⟩

end Level

/-! ## A buffer and a file -/

/-- A buffer and a file at one position, both open for reading and writing. -/
structure Paired (before : Disk) (fd : FileDescriptor) (n : Nat) (b : Placed σ Memory)
    (f : Placed Disk StoredFile) : Prop extends Placed.Alike (Level before fd n) b f where
  readWrite : b.device.mode = OpenMode.readWrite

variable {b : Placed σ Memory} {f : Placed Disk StoredFile} {c : Call} {cs : List Call}

theorem Paired.together (h : Paired before fd n b f) : Together b f := h.backing.contents

theorem Paired.isOpen (h : Paired before fd n b f) : b.device.isOpen = true := by
  rw [Device.isOpen, h.readWrite]
  decide

theorem Paired.writes (h : Paired before fd n b f) : b.device.mode.writes = true := by
  rw [h.readWrite]
  decide

variable [Allocator σ]

/-- The same answers, and the same contents before and after each of the calls. -/
def Agree : Placed σ Memory → Placed Disk StoredFile → List Call → Prop
  | b, f, [] => Together b f
  | b, f, c :: cs => Together b f ∧ (b.call c).1 = (f.call c).1 ∧ Agree (b.call c).2 (f.call c).2 cs

/-- There is room for what is written, in memory and on the disk. -/
def Fits (d : Disk) (b : Placed σ Memory) : Call → Prop
  | .write bs => bs ≠ [] →
      b.device.pos + bs.length ≤ min d.capacity d.maxOffset ∧
      (b.device.backing.grow? (b.device.pos + bs.length) b.system).1.isOk
  | _ => True

instance (d : Disk) (b : Placed σ Memory) : ∀ c, Decidable (Fits d b c)
  | .write bs => inferInstanceAs (Decidable (bs ≠ [] → _ ∧ _))
  | .seek _ | .read _ | .pos | .size | .atEnd => inferInstanceAs (Decidable True)

/-- Where a buffer and a file part: nothing is written past the end, or the position is set to one
that no file has. -/
def Strays (d : Disk) (b : Placed σ Memory) : Call → Prop
  | .write bs => bs = [] ∧ b.device.backing.data.length < b.device.pos
  | .seek t => d.maxOffset < b.device.resolve t b.system
  | _ => False

instance (d : Disk) (b : Placed σ Memory) : ∀ c, Decidable (Strays d b c)
  | .write bs => inferInstanceAs (Decidable (bs = [] ∧ _))
  | .seek t => inferInstanceAs (Decidable ((d.maxOffset : Int) < b.device.resolve t b.system))
  | .read _ | .pos | .size | .atEnd => inferInstanceAs (Decidable False)

theorem Paired.matches (h : Paired before fd n b f) (hfits : Fits before b c)
    (hstays : ¬ Strays before b c) : b.Matches (Level before fd n) f c := by
  cases c with
  | seek t =>
      intro offset hoffset
      rw [← h.mode]
      refine h.backing.seek? h.writes fun hfar => hstays ?_
      rw [Strays, hoffset]
      exact Int.ofNat_lt.mpr hfar
  | read count =>
      simp only [Placed.Matches, ← h.pos]
      exact h.backing.read? count
  | write bs =>
      simp only [Placed.Matches, ← h.pos]
      by_cases hbs : bs = []
      · subst hbs
        exact h.backing.write?_nil (Nat.not_lt.mp fun hgap => hstays ⟨rfl, hgap⟩)
      · exact h.backing.write? hbs (hfits hbs).1 (hfits hbs).2
  | pos | size | atEnd => trivial

theorem Paired.call (h : Paired before fd n b f) (hfits : Fits before b c)
    (hstays : ¬ Strays before b c) :
    (b.call c).1 = (f.call c).1 ∧ Paired before fd n (b.call c).2 (f.call c).2 := by
  obtain ⟨hanswer, halike⟩ := h.toAlike.call h.backing.size (h.matches hfits hstays)
  exact ⟨hanswer, halike, (b.call_mode c).trans h.readWrite⟩

theorem Agree.together (h : Agree b f cs) : Together b f := by
  cases cs with
  | nil => exact h
  | cons c cs => exact h.1

/-- No file has the position; a buffer that can be written has. -/
theorem Paired.part_seek {t : Target} (h : Paired before fd n b f)
    (ht : before.maxOffset < b.device.resolve t b.system) :
    (b.call (.seek t)).1 ≠ (f.call (.seek t)).1 := by
  have hresolve := h.resolve t h.backing.size
  have hbefore : ¬ b.device.resolve t b.system < 0 := by omega
  have hfar : before.maxOffset < (b.device.resolve t b.system).toNat := by omega
  have hopen : ¬ (!b.device.isOpen) = true := by rw [h.isOpen]; decide
  simp only [Placed.call, Device.seek, ← hresolve, ← h.toAlike.isOpen, if_neg hbefore, if_neg hopen,
    seek?_memory h.writes, h.backing.seek?_file, if_pos hfar]
  intro hanswer
  cases hanswer

/-- The gap is filled in the buffer only, if there is room for it. -/
theorem Paired.part_write (h : Paired before fd n b f)
    (hgap : b.device.backing.data.length < b.device.pos) :
    (b.call (.write [])).1 ≠ (f.call (.write [])).1 ∨
      ¬ Together (b.call (.write [])).2 (f.call (.write [])).2 := by
  have hopen : ¬ (!b.device.isOpen) = true := by rw [h.isOpen]; decide
  have hwrites : ¬ (!b.device.mode.writes) = true := by rw [h.writes]; decide
  have hfile : f.call (.write []) = (.ok (.number 0), f) := by
    rw [h.toAlike.isOpen] at hopen
    rw [h.mode] at hwrites
    simp only [Placed.call, Device.write, if_neg hopen, if_neg hwrites, h.backing.write?_file_nil]
    rfl
  rw [hfile]
  simp only [Placed.call, Device.write, if_neg hopen, if_neg hwrites, Backing.write?]
  -- The buffer asks for room for the gap; without it the answers differ, with it the contents do.
  cases b.device.backing.grow? (b.device.pos + ([] : Bytes).length) b.system with
  | mk room s' =>
      cases room with
      | error e =>
          left
          intro hanswer
          cases hanswer
      | ok u =>
          right
          intro htogether
          have hlength := congrArg List.length
            (Except.ok.inj ((h.together : f.system.contents _ = _).symm.trans htogether))
          simp only [Result.told, Memory.replace, Bytes.length_overwrite] at hlength
          omega

theorem Paired.agree_iff (h : Paired before fd n b f) (hfits : b.Along (Fits before) cs) :
    Agree b f cs ↔ b.Along (fun b c => ¬ Strays before b c) cs := by
  induction cs generalizing b f with
  | nil => exact iff_of_true h.together trivial
  | cons c cs ih =>
      by_cases hstrays : Strays before b c
      · -- A stray call shows at once: in its answer, or in the contents that the calls after it find.
        refine iff_of_false (fun hagree => ?_) fun hstays => hstays.1 hstrays
        obtain ⟨-, hanswer, hafter⟩ := hagree
        cases c with
        | seek t => exact h.part_seek hstrays hanswer
        | write bs =>
            obtain ⟨rfl, hgap⟩ := hstrays
            exact (h.part_write hgap).elim (· hanswer) (· hafter.together)
        | read count | pos | size | atEnd => exact hstrays.elim
      · obtain ⟨hanswer, hpaired⟩ := h.call hfits.1 hstrays
        have hrest := ih hpaired hfits.2
        exact ⟨fun hagree => ⟨hstrays, hrest.mp hagree.2.2⟩,
          fun hstays => ⟨h.together, hanswer, hrest.mpr hstays.2⟩⟩

/-! ## From the same octets on -/

/-- A buffer and a file of the same octets agree on calls that fit as long as none of them strays. -/
theorem agree_iff_never_strays {d : Disk} {path : String} {bs : Bytes}
    (h : d.contents path = .ok bs) (s : σ) {cs : List Call}
    (hfits : (Placed.opened (Buffer.ofData bs) s).Along (Fits d) cs) :
    ((Buffer.ofData bs).open OpenMode.readWrite s).answer = .ok () ∧
      ((FileDevice.ofPath path).open OpenMode.readWrite d).answer = .ok () ∧
      (Agree (.opened (Buffer.ofData bs) s) (.opened (FileDevice.ofPath path) d) cs ↔
        (Placed.opened (Buffer.ofData bs) s).Along (fun b c => ¬ Strays d b c) cs) := by
  obtain ⟨n, hfind, hbytes⟩ := Disk.contents_eq_ok.mp h
  have hfile := open_file hfind
  have hpaired : Paired d d.fresh n (.opened (Buffer.ofData bs) s)
      (.opened (FileDevice.ofPath path) d) := by
    rw [Placed.opened, Placed.opened, hfile]
    exact ⟨⟨rfl, rfl, rfl, rfl, d.openFile?_openNode (some n) false, hbytes, hfind, rfl, rfl⟩, rfl⟩
  exact ⟨rfl, by rw [hfile], hpaired.agree_iff hfits⟩

def twoOctets : Disk where
  files := [(["tmp", "work", "f"], 0)]
  data := [(0, [97, 98])]
  fresh := 1

theorem agree_across_gap :
    let cs := [Call.seek (.start 4), .write [99], .seek (.fromEnd (-3)), .read 9, .write [], .atEnd]
    twoOctets.contents "f" = .ok [97, 98] ∧
      (Placed.opened (Buffer.ofData [97, 98]) twoOctets).Along (Fits twoOctets) cs ∧
      Agree (.opened (Buffer.ofData [97, 98]) twoOctets)
        (.opened (FileDevice.ofPath "f") twoOctets) cs := by
  intro cs
  have hfits : (Placed.opened (Buffer.ofData [97, 98]) twoOctets).Along (Fits twoOctets) cs := by
    decide
  have hstays : (Placed.opened (Buffer.ofData [97, 98]) twoOctets).Along
      (fun b c => ¬ Strays twoOctets b c) cs := by
    decide
  exact ⟨rfl, hfits, (agree_iff_never_strays rfl twoOctets hfits).2.2.mpr hstays⟩

theorem gap_filled_in_buffer_only :
    twoOctets.contents "f" = .ok [97, 98] ∧
      (Placed.opened (Buffer.ofData [97, 98]) twoOctets).Along (Fits twoOctets)
        [.seek (.start 5), .write [], .size] ∧
      ¬ Agree (.opened (Buffer.ofData [97, 98]) twoOctets)
        (.opened (FileDevice.ofPath "f") twoOctets) [.seek (.start 5), .write [], .size] := by
  refine ⟨rfl, by decide, fun h => ?_⟩
  obtain ⟨-, -, -, -, -, hsize, -⟩ := h
  have hnumbers : Except.ok (Answer.number 5) = (.ok (.number 2) : Except Fault Answer) := hsize
  cases hnumbers

end NetKit.Device
