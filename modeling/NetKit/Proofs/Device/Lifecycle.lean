import NetKit.Device.File
import NetKit.Disk
import NetKit.Proofs.Device.Calls

/-!
# The life of a temporary file

A temporary file is planned until it is created, once and under a name of its own; it is renamed
away, or goes with its device. A storage that keeps a record of its requests shows what the device
asked for, whatever the answers were.
-/

namespace NetKit

/-! ## Storages with a record -/

/-- What a storage was asked to do with names, and whether it did. -/
inductive Request where
  | opening (path : String) (access : Access) (done : Bool)
  /-- A file with a name of its own, and its path if it was made. -/
  | creating (made : Option String)
  | removing (path : String) (done : Bool)
  | renaming (source target : String) (done : Bool)
deriving DecidableEq, Repr

/-- A storage and what it was asked, in order. -/
structure Recorded (σ : Type) where
  storage : σ
  requests : List Request := []

namespace Recorded

variable {σ : Type}

/-- Goes on with a storage that has answered a request. -/
def after (s : Recorded σ) (r : Request) (storage : σ) : Recorded σ :=
  ⟨storage, s.requests ++ [r]⟩

instance [Storage σ] : Storage (Recorded σ) where
  openFile path access s :=
    let (answer, storage) := Storage.openFile path access s.storage
    (answer, s.after (.opening path access answer.isOk) storage)
  createUnique directory start tail s :=
    let (answer, storage) := Storage.createUnique directory start tail s.storage
    (answer, s.after (.creating (answer.toOption.map (·.2))) storage)
  closeFile fd s := { s with storage := Storage.closeFile fd s.storage }
  openSize fd s := Storage.openSize fd s.storage
  seekTo fd offset s :=
    let (answer, storage) := Storage.seekTo fd offset s.storage
    (answer, { s with storage })
  readSome fd count s :=
    let (answer, storage) := Storage.readSome fd count s.storage
    (answer, { s with storage })
  writeAll fd bs s :=
    let (answer, storage) := Storage.writeAll fd bs s.storage
    (answer, { s with storage })
  isPresent path s := Storage.isPresent path s.storage
  isFile path s := Storage.isFile path s.storage
  sizeOf path s := Storage.sizeOf path s.storage
  contents path s := Storage.contents path s.storage
  removeFile path s :=
    let (answer, storage) := Storage.removeFile path s.storage
    (answer, s.after (.removing path answer.isOk) storage)
  renameFile source target s :=
    let (answer, storage) := Storage.renameFile source target s.storage
    (answer, s.after (.renaming source target answer.isOk) storage)

variable [Storage σ] {s : Recorded σ} {storage : σ}

theorem openFile_eq {path : String} {access : Access} {answer : Except SystemError FileDescriptor}
    (h : Storage.openFile path access s.storage = (answer, storage)) :
    Storage.openFile path access s =
      (answer, s.after (.opening path access answer.isOk) storage) := by
  simp only [Storage.openFile, h]

theorem createUnique_eq {directory start tail : String}
    {answer : Except SystemError (FileDescriptor × String)}
    (h : Storage.createUnique directory start tail s.storage = (answer, storage)) :
    Storage.createUnique directory start tail s =
      (answer, s.after (.creating (answer.toOption.map (·.2))) storage) := by
  simp only [Storage.createUnique, h]

theorem removeFile_eq {path : String} {answer : Except SystemError Unit}
    (h : Storage.removeFile path s.storage = (answer, storage)) :
    Storage.removeFile path s = (answer, s.after (.removing path answer.isOk) storage) := by
  simp only [Storage.removeFile, h]

theorem renameFile_eq {source target : String} {answer : Except SystemError Unit}
    (h : Storage.renameFile source target s.storage = (answer, storage)) :
    Storage.renameFile source target s =
      (answer, s.after (.renaming source target answer.isOk) storage) := by
  simp only [Storage.renameFile, h]

end Recorded

/-- No file has the empty path. -/
class Storage.NamesFiles (σ : Type) [Storage σ] : Prop where
  created {directory start tail path : String} {s s' : σ} {fd : FileDescriptor}
    (h : Storage.createUnique directory start tail s = (.ok (fd, path), s')) : path ≠ ""
  renamed {source target : String} {s s' : σ}
    (h : Storage.renameFile source target s = (.ok (), s')) : target ≠ ""

instance : Storage.NamesFiles Disk where
  created {directory start tail path s s' fd} h := by
    simp only [Storage.createUnique, Disk.createUnique] at h
    split at h
    · cases h
    · cases h
      intro hempty
      simp [String.append_eq_empty_iff] at hempty
  renamed {source target s s'} h := by
    rintro rfl
    have hgoal : s.goal "" = .error .notFound := rfl
    simp only [Storage.renameFile, Disk.renameFile, hgoal] at h
    cases hsource : s.goal source with
    | error e =>
      rw [hsource] at h
      cases h
    | ok g =>
      rw [hsource] at h
      cases h

namespace TemporaryFile

open Device (Placed)

/-! ## Calls -/

/-- What can be done to a temporary file. -/
inductive Call where
  | open
  | openAs (mode : OpenMode)
  | close
  | device (c : Device.Call)
  | flush
  | setTemplate (template : String)
  | setAutoRemove (on : Bool)
  | remove
  | rename (target : String)

variable {σ : Type} [Storage σ]

def call (x : Placed σ StoredFile) : Call → Placed σ StoredFile
  | .open =>
    let r := FileDevice.openTemporary x.device x.system
    ⟨r.device, r.system⟩
  | .openAs mode =>
    let r := x.device.open mode x.system
    ⟨r.device, r.system⟩
  | .close =>
    let (d, s) := x.device.close x.system
    ⟨d, s⟩
  | .device c => (x.call c).2
  | .flush =>
    let r := FileDevice.flush x.device x.system
    ⟨r.device, r.system⟩
  | .setTemplate template => { x with device := FileDevice.setTemplate x.device template }
  | .setAutoRemove on => { x with device := FileDevice.setAutoRemove x.device on }
  | .remove =>
    let r := FileDevice.remove x.device x.system
    ⟨r.device, r.system⟩
  | .rename target =>
    let r := FileDevice.rename x.device target x.system
    ⟨r.device, r.system⟩

def run (x : Placed σ StoredFile) (calls : List Call) : Placed σ StoredFile := calls.foldl call x

/-- A new temporary file, on a storage that was asked nothing yet. -/
def start (template : String) (s : σ) : Placed (Recorded σ) StoredFile :=
  ⟨FileDevice.ofTemplate template, { storage := s }⟩

/-! ## Histories -/

/-- The path of a file that was made by a request. -/
def made? : Request → Option String
  | .creating made => made
  | _ => none

/-- The files that were made, with names of their own. -/
def made (rs : List Request) : List String := rs.filterMap made?

def isRenamed : Request → Bool
  | .renaming _ _ done => done
  | _ => false

/-- Whether a file was given another name. -/
def renamed (rs : List Request) : Bool := rs.any isRenamed

theorem made_append (rs more : List Request) : made (rs ++ more) = made rs ++ made more :=
  List.filterMap_append

theorem renamed_append (rs more : List Request) :
    renamed (rs ++ more) = (renamed rs || renamed more) :=
  List.any_append

/-- What a call changes of the plan for the file. -/
def Call.configure : Call → Temporary → Temporary
  | .setTemplate template, t => { t with template }
  | .setAutoRemove autoRemove, t => { t with autoRemove }
  | _, t => t

/-- Whether the file is to be removed in the end, after a call. -/
def Call.removesInTheEnd : Call → Bool → Bool
  | .setAutoRemove on, _ => on
  | _, on => on

theorem Call.configure_autoRemove (c : Call) (t : Temporary) :
    (c.configure t).autoRemove = c.removesInTheEnd t.autoRemove := by
  cases c <;> rfl

/-- Whether the file is to be removed in the end, as it was said last. -/
def goesInTheEnd (calls : List Call) : Bool :=
  calls.foldl (fun on c => c.removesInTheEnd on) true

/-! ## One call -/

/-- What counts of a file: its path, what is temporary about it, and what was asked for it. -/
structure Standing where
  path : String
  temporary : Option Temporary
  requests : List Request

def standing (f : StoredFile) (s : Recorded σ) : Standing := ⟨f.path, f.temporary, s.requests⟩

/-- What becomes of a file by a call. -/
inductive Move : Standing → Call → Standing → Prop
  | stays {path : String} {temporary : Option Temporary} {rs more : List Request} {c : Call}
      (hmade : made more = []) (hrenamed : renamed more = false) :
      Move ⟨path, temporary, rs⟩ c ⟨path, temporary.map c.configure, rs ++ more⟩
  | creates {path : String} {t : Temporary} {rs : List Request} {c : Call}
      (hc : ∀ t, c.configure t = t) (hpath : path ≠ "") :
      Move ⟨"", some t, rs⟩ c ⟨path, some t, rs ++ [.creating (some path)]⟩
  | renames {path target : String} {temporary : Option Temporary} {rs : List Request}
      (hpath : path ≠ "") (htarget : target ≠ "") :
      Move ⟨path, temporary, rs⟩ (.rename target)
        ⟨target, none, rs ++ [.renaming path target true]⟩

theorem Move.configured {a b : Standing} {c : Call}
    (h : b = { a with temporary := a.temporary.map c.configure }) : Move a c b := by
  have hstays := @Move.stays a.path a.temporary a.requests [] c rfl rfl
  rwa [List.append_nil, ← h] at hstays

/-- Nothing but requests that neither make nor rename a file. -/
theorem Move.quiet {a b : Standing} {c : Call} (hc : ∀ t, c.configure t = t) {more : List Request}
    (h : b = { a with requests := a.requests ++ more }) (hmade : made more = [])
    (hrenamed : renamed more = false) : Move a c b := by
  have hstays := @Move.stays a.path a.temporary a.requests more c hmade hrenamed
  rwa [show c.configure = id from funext hc, Option.map_id, id, ← h] at hstays

theorem Move.same {a b : Standing} {c : Call} (hc : ∀ t, c.configure t = t) (h : b = a) :
    Move a c b := by
  apply Move.configured
  rw [h, show c.configure = id from funext hc, Option.map_id, id]

section Backing

variable (f : StoredFile) (s : Recorded σ)

theorem move_create [Storage.NamesFiles σ] {c : Call} (hc : ∀ t, c.configure t = t) {t : Temporary}
    (hpath : f.path = "") (htemporary : f.temporary = some t) (template : String) :
    let r := f.create template s
    Move (standing f s) c (standing r.backing r.system) := by
  cases hcreate : Storage.createUnique (Path.parent template) (Temporary.shape template).1
    (Temporary.shape template).2 s.storage with
  | mk answer storage =>
    simp only [StoredFile.create, Recorded.createUnique_eq hcreate]
    cases answer with
    | error e => exact .quiet hc rfl rfl rfl
    | ok made =>
      simp only [standing, hpath, htemporary]
      exact .creates hc (Storage.NamesFiles.created hcreate)

/-- A file that has a path is opened there. -/
theorem standing_openPath (mode : OpenMode) :
    ∃ done, standing (f.openPath mode s).backing (f.openPath mode s).system =
      { standing f s with
        requests := s.requests ++ [.opening f.path (StoredFile.access mode) done] } := by
  cases hopen : Storage.openFile f.path (StoredFile.access mode) s.storage with
  | mk answer storage =>
    refine ⟨answer.isOk, ?_⟩
    simp only [StoredFile.openPath, Recorded.openFile_eq hopen]
    cases answer <;> rfl

theorem move_open? [Storage.NamesFiles σ] {c : Call} (hc : ∀ t, c.configure t = t)
    (mode : OpenMode) :
    let r := Device.Backing.open? mode f s
    Move (standing f s) c (standing r.backing r.system) := by
  simp only [Device.Backing.open?]
  split
  · rename_i template htemplate
    simp only [StoredFile.template?, String.isEmpty_iff, Option.ite_none_right_eq_some,
      Option.map_eq_some_iff] at htemplate
    obtain ⟨hpath, t, ht, -⟩ := htemplate
    exact move_create f s hc hpath ht template
  · obtain ⟨done, h⟩ := standing_openPath f s mode
    exact .quiet hc h rfl rfl

end Backing

theorem move_open [Storage.NamesFiles σ] (d : FileDevice) (s : Recorded σ) (mode : OpenMode)
    {c : Call} (hc : ∀ t, c.configure t = t) :
    let r := d.open mode s
    Move (standing d.backing s) c (standing r.device.backing r.system) := by
  simp only [Device.open]
  split
  · exact .same hc rfl
  · split
    · exact .same hc rfl
    · split <;> exact move_open? d.backing s hc mode.completed

theorem standing_close (d : FileDevice) (s : Recorded σ) :
    standing (d.close s).1.backing (d.close s).2 = standing d.backing s := by
  simp only [Device.close, Device.Backing.close]
  cases d.backing.descriptor <;> rfl

theorem move_remove (d : FileDevice) (s : Recorded σ) :
    let r := FileDevice.remove d s
    Move (standing d.backing s) .remove (standing r.device.backing r.system) := by
  rw [← standing_close d s]
  cases hremove : Storage.removeFile (d.close s).1.backing.path (d.close s).2.storage with
  | mk answer storage =>
    simp only [FileDevice.remove, Recorded.removeFile_eq hremove]
    cases answer <;> exact .quiet (fun _ => rfl) rfl rfl rfl

theorem move_rename [Storage.NamesFiles σ] (d : FileDevice) (s : Recorded σ) (target : String) :
    let r := FileDevice.rename d target s
    Move (standing d.backing s) (.rename target) (standing r.device.backing r.system) := by
  rw [← standing_close d s]
  simp only [FileDevice.rename, String.isEmpty_iff]
  split
  · exact .same (fun _ => rfl) rfl
  · rename_i hpath
    cases hrename : Storage.renameFile (d.close s).1.backing.path target (d.close s).2.storage with
    | mk answer storage =>
      simp only [Recorded.renameFile_eq hrename]
      cases answer with
      | error e => exact .quiet (fun _ => rfl) rfl rfl rfl
      | ok done => exact .renames hpath (Storage.NamesFiles.renamed hrename)

omit [Storage σ] in
/-- A call that is passed on to the open file leaves its path and the record alone. -/
theorem withDescriptor_keeps {α : Type} (f : StoredFile) (s : Recorded σ)
    (pass : FileDescriptor → Recorded σ → Except SystemError α × Recorded σ)
    (hpass : ∀ fd, (pass fd s).2.requests = s.requests) :
    standing (f.withDescriptor s pass).backing (f.withDescriptor s pass).system = standing f s := by
  simp only [StoredFile.withDescriptor]
  split
  · rfl
  · simp only [standing, hpass]

theorem standing_device (x : Placed (Recorded σ) StoredFile) (c : Device.Call) :
    standing (x.call c).2.device.backing (x.call c).2.system =
      standing x.device.backing x.system := by
  cases c with
  | pos | size | atEnd => rfl
  | seek t =>
      have hkeeps (n : Nat) := withDescriptor_keeps x.device.backing x.system
        (fun fd s => Storage.seekTo fd n s) fun _ => rfl
      simp only [Placed.call, Device.Result.told, Device.seek, Device.Backing.seek?]
      split
      · rfl
      · split
        · rfl
        · split <;> exact hkeeps _
  | read count =>
      have hkeeps := withDescriptor_keeps x.device.backing x.system
        (fun fd s => Storage.readSome fd count s) fun _ => rfl
      simp only [Placed.call, Device.Result.told, Device.read, Device.Backing.read?]
      split
      · rfl
      · split
        · rfl
        · split <;> exact hkeeps
  | write bs =>
      have hkeeps := withDescriptor_keeps x.device.backing x.system
        (fun fd s => Storage.writeAll fd bs s) fun _ => rfl
      simp only [Placed.call, Device.Result.told, Device.write, Device.Backing.write?]
      split
      · rfl
      · split
        · rfl
        · split <;> exact hkeeps

theorem move_call [Storage.NamesFiles σ] (x : Placed (Recorded σ) StoredFile) (c : Call) :
    Move (standing x.device.backing x.system) c
      (standing (call x c).device.backing (call x c).system) := by
  cases c with
  | «open» =>
      simp only [call, FileDevice.openTemporary]
      split
      · exact .same (fun _ => rfl) rfl
      · exact move_open x.device x.system _ fun _ => rfl
  | openAs mode => exact move_open x.device x.system mode fun _ => rfl
  | close => exact .same (fun _ => rfl) (standing_close x.device x.system)
  | device c => exact .same (fun _ => rfl) (standing_device x c)
  | flush =>
      simp only [call, FileDevice.flush]
      split <;> exact .same (fun _ => rfl) rfl
  | setTemplate _ | setAutoRemove _ => exact .configured rfl
  | remove => exact move_remove x.device x.system
  | rename target => exact move_rename x.device x.system target

/-! ## Runs -/

/-- How far a file has come, when `on` says whether it goes with its device. -/
inductive Stage (on : Bool) : Standing → Prop
  | planned {t : Temporary} {rs : List Request} (ht : t.autoRemove = on) (hmade : made rs = [])
      (hrenamed : renamed rs = false) : Stage on ⟨"", some t, rs⟩
  | made {path : String} {t : Temporary} {rs : List Request} (ht : t.autoRemove = on)
      (hpath : path ≠ "") (hmade : made rs = [path]) (hrenamed : renamed rs = false) :
      Stage on ⟨path, some t, rs⟩
  | renamed {path : String} {rs : List Request} (hpath : path ≠ "")
      (hmade : (made rs).length = 1) (hrenamed : renamed rs = true) : Stage on ⟨path, none, rs⟩

theorem Move.stage {on : Bool} {a b : Standing} {c : Call} (h : Move a c b) (ha : Stage on a) :
    Stage (c.removesInTheEnd on) b := by
  cases h with
  | stays hmade hrenamed =>
      cases ha with
      | planned ht hmade' hrenamed' =>
          refine .planned ?_ ?_ ?_
          · rw [Call.configure_autoRemove, ht]
          · rw [made_append, hmade, hmade', List.append_nil]
          · rw [renamed_append, hrenamed, hrenamed', Bool.or_false]
      | made ht hpath hmade' hrenamed' =>
          refine .made ?_ hpath ?_ ?_
          · rw [Call.configure_autoRemove, ht]
          · rw [made_append, hmade, hmade', List.append_nil]
          · rw [renamed_append, hrenamed, hrenamed', Bool.or_false]
      | renamed hpath hmade' hrenamed' =>
          refine .renamed hpath ?_ ?_
          · rw [made_append, hmade, List.append_nil, hmade']
          · rw [renamed_append, hrenamed', Bool.true_or]
  | creates hc hpath =>
      cases ha with
      | planned ht hmade hrenamed =>
          refine .made ?_ hpath ?_ ?_
          · rw [← ht, ← Call.configure_autoRemove, hc]
          · rw [made_append, hmade]
            rfl
          · rw [renamed_append, hrenamed]
            rfl
      | made _ hempty _ _ => exact absurd rfl hempty
  | renames hpath htarget =>
      cases ha with
      | planned _ _ _ => exact absurd rfl hpath
      | made _ _ hmade _ =>
          refine .renamed htarget ?_ ?_
          · rw [made_append, hmade]
            rfl
          · rw [renamed_append]
            exact Bool.or_true _
      | renamed _ hmade _ =>
          refine .renamed htarget ?_ ?_
          · rw [made_append, List.length_append, hmade]
            rfl
          · rw [renamed_append]
            exact Bool.or_true _

theorem stage_run [Storage.NamesFiles σ] (calls : List Call) {on : Bool}
    {x : Placed (Recorded σ) StoredFile} (h : Stage on (standing x.device.backing x.system)) :
    Stage (calls.foldl (fun on c => c.removesInTheEnd on) on)
      (standing (run x calls).device.backing (run x calls).system) := by
  induction calls generalizing x on with
  | nil => exact h
  | cons c calls ih => exact ih ((move_call x c).stage h)

theorem stage_start [Storage.NamesFiles σ] (template : String) (s : σ) (calls : List Call) :
    Stage (goesInTheEnd calls) (standing (run (start template s) calls).device.backing
      (run (start template s) calls).system) :=
  stage_run calls (.planned rfl rfl rfl)

/-! ## Reopening and dropping -/

/-- Opening a closed file that has a path asks for just that path. -/
theorem open_of_path {d : FileDevice} (s : Recorded σ) (hclosed : d.isOpen = false)
    (hpath : d.backing.path ≠ "") (mode : OpenMode) (hmode : mode.completed.grantsAccess) :
    ∃ done, (d.open mode s).device.isOpen = done ∧
      standing (d.open mode s).device.backing (d.open mode s).system =
        { standing d.backing s with
          requests := s.requests ++
            [.opening d.backing.path (StoredFile.access mode.completed) done] } := by
  have htemplate : d.backing.template? = none := by
    simp only [StoredFile.template?, String.isEmpty_iff, if_neg hpath]
  cases hopen : Storage.openFile d.backing.path (StoredFile.access mode.completed) s.storage with
  | mk answer storage =>
    refine ⟨answer.isOk, ?_⟩
    simp only [Device.open, hclosed, hmode, Device.Backing.open?, htemplate, StoredFile.openPath,
      Recorded.openFile_eq hopen]
    cases answer with
    | error e => exact ⟨hclosed, rfl⟩
    | ok fd =>
      refine ⟨bne_iff_ne.mpr fun hmode' : mode.completed = .closed => ?_, rfl⟩
      rw [hmode'] at hmode
      exact absurd hmode (by decide)

theorem run_close_open (x : Placed (Recorded σ) StoredFile) :
    let r := (x.device.close x.system).1.open OpenMode.readWrite (x.device.close x.system).2
    run x [.close, .open] = ⟨r.device, r.system⟩ := by
  have hclosed : (x.device.close x.system).1.isOpen = false := rfl
  simp only [run, List.foldl_cons, List.foldl_nil, call, FileDevice.openTemporary, hclosed,
    Bool.false_eq_true, if_false]

theorem reopened (x : Placed (Recorded σ) StoredFile) (hpath : x.device.backing.path ≠ "") :
    ∃ done, (run x [.close, .open]).device.isOpen = done ∧
      standing (run x [.close, .open]).device.backing (run x [.close, .open]).system =
        { standing x.device.backing x.system with
          requests := x.system.requests ++ [.opening x.device.backing.path
            { read := true, write := true, creation := .ifMissing } done] } := by
  have hclose := standing_close x.device x.system
  obtain ⟨hsame, -, hrequests⟩ := Standing.mk.inj hclose
  rw [run_close_open, ← hclose, ← hsame, ← hrequests]
  exact open_of_path _ rfl (hsame ▸ hpath) OpenMode.readWrite (by decide)

theorem requests_drop {d : FileDevice} {s : Recorded σ} {on : Bool}
    (h : Stage on (standing d.backing s)) :
    ∃ done, (FileDevice.drop d s).2.requests = s.requests ++
      if made s.requests ≠ [] ∧ renamed s.requests = false ∧ on then
        [.removing d.backing.path done]
      else [] := by
  have hclose := standing_close d s
  simp only [FileDevice.drop, FileDevice.leftover?, FileDevice.autoRemove, FileDevice.path]
  generalize d.close s = closed at hclose ⊢
  obtain ⟨⟨⟨path, descriptor, temporary⟩, _, _, _⟩, s'⟩ := closed
  obtain ⟨⟨path', descriptor', temporary'⟩, _, _, _⟩ := d
  obtain ⟨rfl, rfl, hrequests⟩ := Standing.mk.inj hclose
  rw [← hrequests]
  simp only [standing, ← hrequests] at h
  cases hremove : Storage.removeFile path s'.storage with
  | mk answer storage =>
    refine ⟨answer.isOk, ?_⟩
    cases h with
    | planned ht hmade hrenamed => simp [hmade]
    | made ht hpath hmade hrenamed =>
      cases on with
      | true =>
        simp [ht, hpath, hmade, hrenamed, Recorded.removeFile_eq hremove, Recorded.after]
      | false => simp [ht]
    | renamed hpath hmade hrenamed => simp [hrenamed]

/-! ## The life of a file -/

theorem Move.path {a b : Standing} {c : Call} (h : Move a c b) :
    b.path = a.path ∨
      (a.path = "" ∧ b.requests = a.requests ++ [.creating (some b.path)]) ∨
      (c = .rename b.path ∧ b.requests = a.requests ++ [.renaming a.path b.path true]) := by
  cases h with
  | stays _ _ => exact .inl rfl
  | creates _ _ => exact .inr (.inl ⟨rfl, rfl⟩)
  | renames _ _ => exact .inr (.inr ⟨rfl, rfl⟩)

theorem Stage.path {on : Bool} {a : Standing} (h : Stage on a) :
    (a.path = "" ↔ TemporaryFile.made a.requests = []) ∧
      (TemporaryFile.made a.requests).length ≤ 1 := by
  cases h with
  | planned _ hmade _ => simp [hmade]
  | made _ hpath hmade _ => simp [hmade, hpath]
  | renamed hpath hmade _ =>
      refine ⟨iff_of_false hpath fun hnil => ?_, Nat.le_of_eq hmade⟩
      rw [hnil] at hmade
      cases hmade

/-- Whatever the storage answers, a temporary file is made at most once and is then where it was
made or renamed to last; it is opened there again as it was left, and asked to be removed with its
device exactly if it was never renamed and is to go in the end. -/
theorem life_of_temporary_file [Storage.NamesFiles σ] (template : String) (s : σ)
    (calls : List Call) :
    let x := run (start template s) calls
    let path (x : Placed (Recorded σ) StoredFile) := FileDevice.path x.device
    let requests (x : Placed (Recorded σ) StoredFile) := x.system.requests
    (path x = "" ↔ made (requests x) = []) ∧ (made (requests x)).length ≤ 1 ∧
    (∀ c, path (call x c) = path x ∨
      (path x = "" ∧
        requests (call x c) = requests x ++ [.creating (some (path (call x c)))]) ∨
      (c = .rename (path (call x c)) ∧
        requests (call x c) = requests x ++ [.renaming (path x) (path (call x c)) true])) ∧
    (path x ≠ "" → ∃ done, path (run x [.close, .open]) = path x ∧
      (run x [.close, .open]).device.isOpen = done ∧
      requests (run x [.close, .open]) = requests x ++
        [.opening (path x) { read := true, write := true, creation := .ifMissing } done]) ∧
    (∃ done, (FileDevice.drop x.device x.system).2.requests = requests x ++
      if made (requests x) ≠ [] ∧ renamed (requests x) = false ∧ goesInTheEnd calls then
        [.removing (path x) done]
      else []) := by
  intro x path requests
  have hstage := stage_start template s calls
  refine ⟨hstage.path.1, hstage.path.2, fun c => (move_call x c).path, fun hpath => ?_,
    requests_drop hstage⟩
  obtain ⟨done, hopened, hreopened⟩ := reopened x hpath
  exact ⟨done, congrArg Standing.path hreopened, hopened, congrArg Standing.requests hreopened⟩

theorem written_file_goes_with_its_device :
    let calls : List Call :=
      [.open, .device (.write [1]), .close, .setTemplate "/tmp/b", .open, .rename ""]
    let x := run (start "/tmp/a" ({} : Disk)) calls
    FileDevice.path x.device = "/tmp/a.000000" ∧
      ∃ done, (FileDevice.drop x.device x.system).2.requests =
        x.system.requests ++ [.removing "/tmp/a.000000" done] := by
  intro calls x
  obtain ⟨-, -, -, -, done, hdrop⟩ := life_of_temporary_file "/tmp/a" ({} : Disk) calls
  have hpath : FileDevice.path x.device = "/tmp/a.000000" := by decide
  have hgoes : made x.system.requests ≠ [] ∧ renamed x.system.requests = false ∧
      goesInTheEnd calls := by decide
  rw [if_pos hgoes] at hdrop
  exact ⟨hpath, done, hpath ▸ hdrop⟩

end TemporaryFile
end NetKit
