import NetKit.Device
import NetKit.Disk.Path
import NetKit.Storage

/-!
Devices over files. A temporary file gets its name when it is first opened, and goes with the device
unless it was renamed.
-/
namespace NetKit

/-- What is still temporary about a file. -/
structure Temporary where
  template : String
  autoRemove : Bool := true
deriving DecidableEq, Repr

/-- A file that is opened by its path. -/
structure StoredFile where
  /-- Empty for a temporary file that was not created yet. -/
  path : String
  descriptor : Option FileDescriptor := none
  temporary : Option Temporary := none
deriving DecidableEq, Repr

namespace Temporary

/-- The run that becomes the unique part of a name. -/
def placeholder : List Char := List.replicate 6 'X'

/-- The parts of a list before and after the last place where `part` stands. -/
def splitAtLast? (part : List Char) : List Char → Option (List Char × List Char)
  | [] => if part.isEmpty then some ([], []) else none
  | c :: cs =>
    match splitAtLast? part cs with
    | some (before, after) => some (c :: before, after)
    | none =>
      if part.isPrefixOf (c :: cs) then some ([], (c :: cs).drop part.length) else none

/-- What stands before and after the unique part. A template without a run gets it at its end, after
a point. -/
def shape (template : String) : String × String :=
  let name := (Path.name? template).getD ""
  match splitAtLast? placeholder name.toList with
  | some (before, after) => (String.ofList before, String.ofList after)
  | none => (name ++ ".", "")

/-- The template that an empty one stands for. -/
def defaultTemplate : String := "/tmp/netbridge.XXXXXX"

end Temporary

namespace StoredFile

/-- Writing without reading starts with an empty file, unless it appends or asks for a new one. -/
def truncates (mode : OpenMode) : Bool :=
  mode.truncates ||
    (mode.writes && !mode.intersects ((OpenMode.readOnly.union OpenMode.append).union OpenMode.newOnly))

def access (mode : OpenMode) : Access where
  read := mode.reads
  write := mode.writes
  append := mode.appends
  truncate := truncates mode && !mode.appends
  creation :=
    if mode.contains OpenMode.newOnly then .always
    else if mode.writes && !mode.contains OpenMode.existingOnly then .ifMissing
    else .existing

variable {σ : Type} [Storage σ]

/-- Whether opening the file creates it under a name of its own. -/
def template? (f : StoredFile) : Option String :=
  if f.path.isEmpty then f.temporary.map (·.template) else none

def create (f : StoredFile) (template : String) (s : σ) : Device.Reply σ StoredFile Nat :=
  let (start, tail) := Temporary.shape template
  match Storage.createUnique (Path.parent template) start tail s with
  | (.error e, s) => ⟨.error (.system e), f, s⟩
  | (.ok (fd, path), s) => ⟨.ok 0, { f with path, descriptor := some fd }, s⟩

def openPath (f : StoredFile) (mode : OpenMode) (s : σ) : Device.Reply σ StoredFile Nat :=
  match Storage.openFile f.path (access mode) s with
  | (.error e, s) => ⟨.error (.system e), f, s⟩
  | (.ok fd, s) => ⟨.ok (Storage.openSize fd s), { f with descriptor := some fd }, s⟩

/-- Passes a call on to the open file. -/
def withDescriptor {α : Type} (f : StoredFile) (s : σ)
    (call : FileDescriptor → σ → Except SystemError α × σ) : Device.Reply σ StoredFile α :=
  match f.descriptor with
  | none => ⟨.error .notOpen, f, s⟩
  | some fd =>
    let (r, s) := call fd s
    ⟨r.mapError .system, f, s⟩

omit [Storage σ] in
theorem withDescriptor_eq {α : Type} {f : StoredFile} {fd : FileDescriptor}
    (h : f.descriptor = some fd) (s : σ) (call : FileDescriptor → σ → Except SystemError α × σ) :
    f.withDescriptor s call = ⟨(call fd s).1.mapError .system, f, (call fd s).2⟩ := by
  rw [withDescriptor, h]

instance : Device.Backing σ StoredFile where
  open? mode f s :=
    match f.template? with
    | some template => f.create template s
    | none => f.openPath mode s
  close f s :=
    match f.descriptor with
    | none => (f, s)
    | some fd => ({ f with descriptor := none }, Storage.closeFile fd s)
  size f s :=
    match f.descriptor with
    | none => Storage.sizeOf f.path s
    | some fd => Storage.openSize fd s
  seek? _ pos f s := f.withDescriptor s fun fd s => Storage.seekTo fd pos s
  read? _ count f s := f.withDescriptor s fun fd s => Storage.readSome fd count s
  write? _ bs f s := f.withDescriptor s fun fd s => Storage.writeAll fd bs s

end StoredFile

abbrev FileDevice := Device StoredFile

namespace FileDevice
variable {σ : Type} [Storage σ]

def ofPath (path : String) : FileDevice := { backing := { path } }

/-- A temporary file. An empty template stands for the default one. -/
def ofTemplate (template : String) : FileDevice :=
  let template := if template.isEmpty then Temporary.defaultTemplate else template
  { backing := { path := "", temporary := some { template } } }

def path (d : FileDevice) : String := d.backing.path

def isPresent (d : FileDevice) (s : σ) : Bool := Storage.isPresent d.path s

def flush (d : FileDevice) (s : σ) : Device.Result σ StoredFile Unit :=
  match d.backing.descriptor with
  | none => d.fail .notOpen s
  | some _ => ⟨.ok (), d, s⟩

/-- Closes the device and removes the file. -/
def remove (d : FileDevice) (s : σ) : Device.Result σ StoredFile Unit :=
  let (d, s) := d.close s
  match Storage.removeFile d.backing.path s with
  | (.error e, s) => d.fail (.system e) s
  | (.ok (), s) => ⟨.ok (), d, s⟩

/-! ## Temporary files -/

/-- Opens for reading and writing. A device that is open already will do. -/
def openTemporary (d : FileDevice) (s : σ) : Device.Result σ StoredFile Unit :=
  if d.isOpen then ⟨.ok (), d, s⟩ else d.open OpenMode.readWrite s

def autoRemove (d : FileDevice) : Bool := (d.backing.temporary.map (·.autoRemove)).getD false

def template (d : FileDevice) : String := (d.backing.temporary.map (·.template)).getD ""

def mapTemporary (d : FileDevice) (f : Temporary → Temporary) : FileDevice :=
  { d with backing := { d.backing with temporary := d.backing.temporary.map f } }

def setAutoRemove (d : FileDevice) (autoRemove : Bool) : FileDevice :=
  d.mapTemporary fun t => { t with autoRemove }

/-- Has an effect only on a file that was not created yet. -/
def setTemplate (d : FileDevice) (template : String) : FileDevice :=
  d.mapTemporary fun t => { t with template }

/-- Closes the device and moves the file; it is no longer temporary then. -/
def rename (d : FileDevice) (target : String) (s : σ) : Device.Result σ StoredFile Unit :=
  let (d, s) := d.close s
  if d.backing.path.isEmpty then d.fail .notCreated s
  else match Storage.renameFile d.backing.path target s with
    | (.error e, s) => d.fail (.system e) s
    | (.ok (), s) =>
      ⟨.ok (), { d with backing := { d.backing with path := target, temporary := none } }, s⟩

/-- The path that goes with the device. -/
def leftover? (d : FileDevice) : Option String :=
  if d.autoRemove && !d.path.isEmpty then some d.path else none

/-- Closes the device and removes what goes with it; tells what became of that. -/
def drop (d : FileDevice) (s : σ) : Except SystemError Unit × σ :=
  let (d, s) := d.close s
  match leftover? d with
  | none => (.ok (), s)
  | some path => Storage.removeFile path s

end FileDevice
end NetKit
