import NetKit.Proofs.Device.Offsets
import NetKit.Proofs.Device.Store

/-!
# Devices that append

The contents of a file that was opened to append only grow, wherever the device stands. A buffer
only begins at its end, and so does a file that is made under a name of its own: what is written
after a seek goes where the device stands.
-/

namespace NetKit
open Device

namespace Device

variable {σ β : Type} [Backing σ β] {p : Placed σ β} {c : Call} {bs : Bytes}

/-! ## What calls write -/

/-- The octets that a call writes. -/
def Placed.put (p : Placed σ β) : Call → Bytes
  | .write bs => if (p.call (.write bs)).1.isOk then bs else []
  | .seek _ | .read _ | .pos | .size | .atEnd => []

/-- The octets that calls write, in order. -/
def Placed.written : Placed σ β → List Call → Bytes
  | _, [] => []
  | p, c :: cs => p.put c ++ (p.call c).2.written cs

/-- All along the calls the contents are the first ones, with what was written so far behind. -/
def Placed.OnlyGrows (holds : Placed σ β → Bytes → Prop) (p : Placed σ β) (bs : Bytes)
    (cs : List Call) : Prop :=
  ∀ taken, taken <+: cs → holds (p.after taken) (bs ++ p.written taken)

/-- Contents only grow exactly as long as no call changes them in another way. -/
theorem Placed.onlyGrows_iff_along {holds : Placed σ β → Bytes → Prop} {I : Placed σ β → Prop}
    {Q : Placed σ β → Call → Prop} (hinv : ∀ p c, I p → I (p.call c).2)
    (hstep : ∀ p c bs, I p → holds p bs → (holds (p.call c).2 (bs ++ p.put c) ↔ Q p c))
    (hp : I p) (hbs : holds p bs) (cs : List Call) : p.OnlyGrows holds bs cs ↔ p.Along Q cs := by
  induction cs generalizing p bs with
  | nil =>
    refine iff_of_true (fun taken htaken => ?_) trivial
    rw [List.prefix_nil.mp htaken]
    simpa [Placed.after, Placed.written] using hbs
  | cons c cs ih =>
    constructor
    · intro h
      have hnext : holds (p.call c).2 (bs ++ p.put c) := by
        simpa [Placed.after, Placed.written] using h [c] (List.prefix_append [c] cs)
      refine ⟨(hstep p c bs hp hbs).mp hnext, (ih (hinv p c hp) hnext).mp fun taken htaken => ?_⟩
      rw [List.append_assoc]
      exact h (c :: taken) ((List.prefix_cons_inj c).mpr htaken)
    · rintro ⟨hc, hcs⟩ taken htaken
      have hnext := (hstep p c bs hp hbs).mpr hc
      rcases List.prefix_cons_iff.mp htaken with rfl | ⟨rest, rfl, hrest⟩
      · simpa [Placed.after, Placed.written] using hbs
      · have hgrown := (ih (hinv p c hp) hnext).mpr hcs rest hrest
        rwa [List.append_assoc] at hgrown

/-- A condition that is only put under an assumption. -/
theorem Placed.along_imp_iff {a : Prop} {Q : Placed σ β → Call → Prop} {cs : List Call} :
    p.Along (fun p c => a → Q p c) cs ↔ (a → p.Along Q cs) := by
  induction cs generalizing p with
  | nil => exact iff_of_true trivial fun _ => trivial
  | cons c cs ih =>
    simp only [Placed.Along, ih]
    exact forall_and.symm

end Device

/-! ## Buffers -/

namespace Buffer

variable {σ : Type} [Allocator σ]

/-- A buffer after it was opened. -/
def opening (b : Buffer) (mode : OpenMode) (s : σ) : Placed σ Memory :=
  ⟨(b.open mode s).device, (b.open mode s).system⟩

def Holds (p : Placed σ Memory) (bs : Bytes) : Prop := p.device.backing.data = bs

/-- Octets are written elsewhere than at the end, or a gap behind the end is filled by a write of
none. -/
def WritesAway (p : Placed σ Memory) : Device.Call → Prop
  | .write bs =>
    (p.call (.write bs)).1.isOk = true ∧ p.device.pos ≠ p.device.size p.system ∧
      (bs = [] → p.device.size p.system < p.device.pos)
  | .seek _ | .read _ | .pos | .size | .atEnd => False

instance (p : Placed σ Memory) : ∀ c, Decidable (WritesAway p c)
  | .write bs => inferInstanceAs (Decidable (_ ∧ _ ∧ (bs = [] → _)))
  | .seek _ | .read _ | .pos | .size | .atEnd => inferInstanceAs (Decidable False)

theorem holds_call_iff (p : Placed σ Memory) (c : Device.Call) {bs : Bytes} (h : Holds p bs) :
    Holds (p.call c).2 (bs ++ p.put c) ↔ ¬ WritesAway p c := by
  have hdata : p.device.backing.data = bs := h
  have hsize : p.device.size p.system = bs.length := congrArg List.length hdata
  -- What the call does to the octets is said by the rules that every held buffer keeps to.
  have hstep := Held.step ⟨p, []⟩ (.device c)
  change (Held.call ⟨p, []⟩ (.device c)).2.store.contents = _ ↔ _
  change Store.Step _ _ _ (p.call c).1 _ at hstep
  generalize hanswer : (p.call c).1 = a at hstep
  generalize (Held.call ⟨p, []⟩ (.device c)).2.store = after at hstep ⊢
  cases hstep with
  | refused =>
    cases c with
    | write new => simpa [Placed.put, WritesAway, hanswer, Except.isOk, Except.toBool] using hdata
    | _ => exact iff_of_true (hdata.trans bs.append_nil.symm) not_false
  | @write new contents _ hnew =>
    have hcontents : contents = bs.overwrite p.device.pos new := hdata ▸ hnew.eq_overwrite
    simp only [Placed.put, WritesAway, hanswer, hcontents, hsize, Except.isOk, Except.toBool,
      if_true, Bytes.overwrite_eq_append_iff, true_and, ne_eq]
    grind
  | _ => exact iff_of_true (hdata.trans bs.append_nil.symm) not_false

theorem holds_opening {b : Buffer} {mode : OpenMode} {s : σ} (htruncates : mode.truncates = false)
    (h : (b.open mode s).answer = .ok ()) : Holds (b.opening mode s) b.data := by
  obtain ⟨size, m, s', hreply, hopen⟩ := open_eq_ok h
  rw [Holds, opening, hopen]
  simp only [Backing.open?, OpenMode.truncates_completed, htruncates] at hreply
  cases hreply
  rfl

end Buffer

/-! ## Files -/

/-- The disk after octets were written to a file, from an offset on. -/
def Disk.wrote (d : Disk) (n start : Nat) (bs : Bytes) : Disk :=
  if bs.isEmpty then d else d.setBytes n ((d.bytesOf n).overwrite start bs)

theorem Disk.find_wrote (d : Disk) (n start : Nat) (bs : Bytes) (text : String) :
    (d.wrote n start bs).find text = d.find text := by
  rw [wrote]
  split <;> rfl

theorem Disk.bytesOf_wrote_eq_append_iff {d : Disk} {n start : Nat} {bs : Bytes} :
    (d.wrote n start bs).bytesOf n = d.bytesOf n ++ bs ↔
      bs = [] ∨ start = (d.bytesOf n).length := by
  rw [wrote]
  cases bs with
  | nil => simp
  | cons b bs => simp [bytesOf_setBytes, Bytes.overwrite_eq_append_iff]

namespace FileDevice

variable {p : Placed Disk StoredFile} {f : OpenFile} {n : Nat} {append : Bool}

/-- Octets are written while the device stands elsewhere than at the end. -/
def WritesAway (p : Placed Disk StoredFile) (c : Call) : Prop :=
  p.put c ≠ [] ∧ p.device.pos ≠ p.device.size p.system

instance (p : Placed Disk StoredFile) (c : Call) : Decidable (WritesAway p c) :=
  inferInstanceAs (Decidable (_ ∧ _))

def Holds (p : Placed Disk StoredFile) (bs : Bytes) : Prop :=
  p.system.contents p.device.backing.path = .ok bs

/-- Of the disk only the octets of the file change, and what is known of open files. -/
theorem call_wrote {offset : Nat} (h : openFile? p = some { file := some n, offset, append })
    (c : Call) :
    (p.call c).2.device.backing = p.device.backing ∧ ∃ opened,
      (p.call c).2.system =
        { p.system.wrote n (if append then (p.system.bytesOf n).length else offset) (p.put c) with
          opened } := by
  obtain ⟨fd, hfd, hf⟩ := Option.bind_eq_some_iff.mp h
  cases c with
  | seek t =>
    have hkeeps (n : Nat) := withDescriptor_keeps p.device.backing p.system
      (fun fd => Disk.seekTo fd n) (Disk.seekTo_keeps · n p.system)
    simp only [Placed.call, Result.told, Device.seek, Backing.seek?]
    split
    · exact ⟨rfl, p.system.opened, rfl⟩
    · split
      · exact ⟨rfl, p.system.opened, rfl⟩
      · split <;> exact hkeeps _
  | read count =>
    have hkeeps := withDescriptor_keeps p.device.backing p.system
      (fun fd => Disk.readSome fd count) (Disk.readSome_keeps · count p.system)
    simp only [Placed.call, Result.told, Device.read, Backing.read?]
    split
    · exact ⟨rfl, p.system.opened, rfl⟩
    · split
      · exact ⟨rfl, p.system.opened, rfl⟩
      · split <;> exact hkeeps
  | write bs =>
    simp only [Placed.put, Placed.call, Device.write, Backing.write?, Storage.writeAll,
      StoredFile.withDescriptor_eq hfd]
    split
    · exact ⟨rfl, p.system.opened, rfl⟩
    · split
      · exact ⟨rfl, p.system.opened, rfl⟩
      · by_cases hbs : bs = []
        · subst hbs
          simp only [Disk.writeAll_nil hf]
          exact ⟨rfl, p.system.opened, rfl⟩
        · rcases Disk.writeAll_cases hf hbs with ⟨e, he⟩ | ⟨start, rfl, hwrite⟩
          · simp only [he]
            exact ⟨rfl, p.system.opened, rfl⟩
          · simp only [hwrite]
            have hsome : bs.isEmpty = false := by simpa using hbs
            simp only [Disk.wrote, Result.told, Except.map, Except.mapError, Except.isOk,
              Except.toBool, if_true, hsome]
            exact ⟨trivial, _, rfl⟩
  | pos | size | atEnd => exact ⟨rfl, p.system.opened, rfl⟩

/-- The device has a file open that stands at its path. -/
structure Holding (n : Nat) (append : Bool) (p : Placed Disk StoredFile) : Prop where
  opened : ∃ offset, openFile? p = some { file := some n, offset, append }
  inStep : append = false → InStep p
  place : p.system.find p.device.backing.path = .ok (.file n)

theorem Holding.holds_iff (h : Holding n append p) {bs : Bytes} :
    Holds p bs ↔ p.system.bytesOf n = bs := by
  rw [Holds, Disk.contents_eq_ok]
  constructor
  · rintro ⟨k, hplace, hbytes⟩
    cases h.place.symm.trans hplace
    exact hbytes
  · exact fun hbytes => ⟨n, h.place, hbytes⟩

/-- The offset is all that a call changes of an open file. -/
theorem Moves.offset {c : Call} {a : Except Fault Answer} {pos : Nat} {g : OpenFile}
    (h : Moves p f c a pos g) : ∃ offset, g = { f with offset } := by
  cases h <;> exact ⟨_, rfl⟩

theorem Holding.call (h : Holding n append p) (c : Call) : Holding n append (p.call c).2 := by
  obtain ⟨offset, hopened⟩ := h.opened
  obtain ⟨hbacking, opened, hsystem⟩ := call_wrote hopened c
  refine ⟨?_, fun happend => ?_, ?_⟩
  · obtain ⟨g, hg, hmoves⟩ := movesTo_call hopened c
    obtain ⟨next, rfl⟩ := hmoves.offset
    exact ⟨next, hg⟩
  · -- Only a file that appends can stray.
    refine ((h.inStep happend).call_iff c).mpr fun hstrays => ?_
    cases c with
    | write bs =>
      obtain ⟨-, -, happends, -⟩ := hstrays
      rw [hopened, Option.any_some, happend] at happends
      cases happends
    | _ => exact hstrays
  · rw [hbacking, hsystem]
    exact (Disk.find_wrote _ _ _ _ _).trans h.place

theorem Holding.holds_call_iff (h : Holding n append p) (c : Call) {bs : Bytes} (hbs : Holds p bs) :
    Holds (p.call c).2 (bs ++ p.put c) ↔ (append = false → ¬ WritesAway p c) := by
  obtain ⟨offset, hopened⟩ := h.opened
  obtain ⟨-, opened, hsystem⟩ := call_wrote hopened c
  rw [(h.call c).holds_iff, ← h.holds_iff.mp hbs, hsystem, WritesAway, size_eq hopened rfl]
  refine Disk.bytesOf_wrote_eq_append_iff.trans ?_
  cases happend : append with
  | true => simp
  | false =>
    have hoffset : offset = p.device.pos := (inStep_iff hopened).mp (h.inStep happend)
    simp only [hoffset, Bool.false_eq_true, if_false, true_implies, ne_eq]
    tauto

/-! ## Opening a file -/

/-- Only a file without a path is made under a name of its own. -/
theorem path_of_template? {v : StoredFile} {template : String} (h : v.template? = some template) :
    v.path = "" := by
  rw [StoredFile.template?] at h
  split at h
  · rename_i hempty
    exact String.isEmpty_iff.mp hempty
  · cases h

theorem begins_holding {v : FileDevice} {d : Disk} {fd : FileDescriptor} {bs : Bytes}
    (hfd : v.backing.descriptor = some fd)
    (hopened : d.openFile? fd = some { file := some n, append })
    (hpos : append = false → v.pos = 0) (hplace : d.find v.backing.path = .ok (.file n))
    (hbytes : d.bytesOf n = bs) : Holding n append ⟨v, d⟩ ∧ Holds ⟨v, d⟩ bs := by
  have hfile : openFile? ⟨v, d⟩ = some { file := some n, append } := by
    rw [openFile?, hfd, Option.bind_some, hopened]
  have hholding : Holding n append ⟨v, d⟩ :=
    ⟨⟨0, hfile⟩, fun happend => (inStep_iff hfile).mpr (hpos happend).symm, hplace⟩
  exact ⟨hholding, hholding.holds_iff.mpr hbytes⟩

/-- A file is opened to append unless it is made under a name of its own. -/
theorem holding_opening {v : FileDevice} {mode : OpenMode} {d : Disk}
    (happends : mode.appends = true) (h : (v.open mode d).answer = .ok ()) :
    ∃ n, Holding n v.backing.template?.isNone (opening v mode d) ∧
      Holds (opening v mode d) (d.bytesAt v.path) := by
  obtain ⟨size, b, e, hreply, hopen⟩ := open_eq_ok h
  rw [opening, hopen]
  cases htemplate : v.backing.template? with
  | none =>
    simp only [Backing.open?, htemplate] at hreply
    obtain ⟨fd, hfile, rfl, -⟩ := openPath_eq_ok hreply
    have haccess : (StoredFile.access mode.completed).append = true := by
      simp [StoredFile.access, happends]
    have htruncate : (StoredFile.access mode.completed).truncate = false := by
      simp [StoredFile.access, happends]
    obtain ⟨n, hopened, hplace, hbytes⟩ :=
      Disk.opened_of_openFile hfile (OpenMode.writes_completed happends) htruncate
    rw [haccess] at hopened
    exact ⟨n, begins_holding rfl hopened Bool.noConfusion hplace hbytes⟩
  | some template =>
    simp only [Backing.open?, htemplate] at hreply
    obtain ⟨_, _, _, fd, path, hcreate, rfl, rfl⟩ := create_eq_ok hreply
    obtain ⟨n, hopened, hplace, hbytes⟩ := Disk.opened_of_createUnique hcreate
    have hmissing : d.bytesAt v.path = [] := by
      rw [FileDevice.path, path_of_template? htemplate]
      rfl
    exact ⟨n, begins_holding rfl hopened (fun _ => ite_self 0) hplace (hbytes.trans hmissing.symm)⟩

end FileDevice

/-! ## Both -/

namespace Device

/-- What is written to a device that was opened to append goes behind what it held. A file only
grows, if it was not made under a name of its own by opening it; a buffer, or such a file, only
grows as long as nothing is written elsewhere than at its end. A write that fails is taken to have
written nothing and to leave the offset where it was, as `Disk.writeAll` has it. -/
theorem appended_unless_written_away {mode : OpenMode} (happends : mode.appends = true)
    (htruncates : mode.truncates = false) :
    (∀ {σ : Type} [Allocator σ] (b : Buffer) (s : σ), (b.open mode s).answer = .ok () →
      ∀ cs, (b.opening mode s).OnlyGrows Buffer.Holds b.data cs ↔
        (b.opening mode s).Along (fun p c => ¬ Buffer.WritesAway p c) cs) ∧
    ∀ (f : FileDevice) (d : Disk), (f.open mode d).answer = .ok () →
      ∀ cs, (f.opening mode d).OnlyGrows FileDevice.Holds (d.bytesAt f.path) cs ↔
        (f.backing.template?.isNone = false →
          (f.opening mode d).Along (fun p c => ¬ FileDevice.WritesAway p c) cs) := by
  refine ⟨fun b s hopen cs => ?_, fun f d hopen cs => ?_⟩
  · exact Placed.onlyGrows_iff_along (I := fun _ => True) (fun _ _ _ => trivial)
      (fun p c _ _ hbs => Buffer.holds_call_iff p c hbs) trivial
      (Buffer.holds_opening htruncates hopen) cs
  · obtain ⟨n, hholding, hbs⟩ := FileDevice.holding_opening happends hopen
    exact (Placed.onlyGrows_iff_along (fun _ c hp => hp.call c)
      (fun _ c _ hp hbs => hp.holds_call_iff c hbs) hholding hbs cs).trans Placed.along_imp_iff

/-- A buffer goes back to its end before it is written again, a file does not have to. -/
theorem appended_wherever_a_file_stands :
    OpenMode.append.appends = true ∧ OpenMode.append.truncates = false ∧
      ((Buffer.ofData [97]).opening OpenMode.append ({} : Disk)).OnlyGrows Buffer.Holds [97]
        [.write [98], .seek (.start 0), .seek (.fromEnd 0), .write [99]] ∧
      ((FileDevice.ofPath "f").opening OpenMode.append (FileDevice.oneFile [97])).OnlyGrows
        FileDevice.Holds [97] [.write [98], .seek (.start 0), .write [99]] := by
  have happends : OpenMode.append.appends = true := by decide
  have htruncates : OpenMode.append.truncates = false := by decide
  have hgrows := appended_unless_written_away happends htruncates
  refine ⟨happends, htruncates, ?_, ?_⟩
  · exact (hgrows.1 (Buffer.ofData [97]) ({} : Disk) rfl _).mpr (by decide)
  · exact (hgrows.2 (FileDevice.ofPath "f") (FileDevice.oneFile [97]) rfl _).mpr nofun

/-- The octets at the start of a buffer that was opened to append are written over after a seek. -/
theorem start_of_appending_buffer_is_overwritten :
    ¬ ∀ (b : Buffer) (mode : OpenMode) (s : Disk) (cs : List Call), mode.appends = true →
      mode.truncates = false → (b.open mode s).answer = .ok () →
      (b.opening mode s).OnlyGrows Buffer.Holds b.data cs := by
  intro h
  have hgrows := h (Buffer.ofData [97, 98]) OpenMode.append {} [.seek (.start 0), .write [120]]
    (by decide) (by decide) rfl
  have hall := hgrows _ (List.prefix_refl _)
  exact absurd (show ([120, 98] : Bytes) = [97, 98, 120] from hall) (by decide)

end Device
end NetKit
