import NetKit.Bytes
import NetKit.Device.Buffer
import NetKit.Disk.Path
import NetKit.Storage

/-!
A disk in memory: directories, files under their places, and open files, which go on when their
place is taken away.
-/
namespace NetKit

/-- An open file. Directories can be opened too, but not read. -/
structure OpenFile where
  /-- The number of the file's contents; none for a directory. -/
  file : Option Nat
  offset : Nat := 0
  /-- Every write goes to the end of the file. -/
  append : Bool := false
deriving DecidableEq, Repr

structure Disk where
  working : Place := ["tmp", "work"]
  directories : List Place := [[], ["tmp"], ["tmp", "work"]]
  files : List (Place × Nat) := []
  /-- The contents of files by number. Those that no place has can still be open. -/
  data : List (Nat × Bytes) := []
  opened : List (FileDescriptor × OpenFile) := []
  /-- Larger than every number in use. -/
  fresh : Nat := 0
  /-- No file has room for more octets. -/
  capacity : Nat := 0x4000000
  /-- No offset in a file is larger. -/
  maxOffset : Nat := 0xFFFFFFFF000
  /-- There is no memory for more octets. -/
  memory : Nat := 0x1000000000
deriving Repr

namespace Disk

/-- What is told of the size of a directory. -/
def directorySize : Nat := 4096

/-! ## Places -/

inductive Node where
  | directory
  | file (number : Nat)
deriving DecidableEq, Repr

def node? (d : Disk) (p : Place) : Option Node :=
  if p ∈ d.directories then some .directory else (List.lookup p d.files).map .file

/-- Goes from a directory to one of the directories in it. -/
def enter (d : Disk) (here : Place) (name : String) : Except SystemError Place :=
  if name = "." then .ok here
  else if name = ".." then .ok here.dropLast
  else if Path.maxNameLength < Path.octetCount name then .error .nameTooLong
  else match d.node? (here ++ [name]) with
    | some .directory => .ok (here ++ [name])
    | some (.file _) => .error .notDirectory
    | none => .error .notFound

/-- What a path leads to. -/
inductive Goal where
  /-- A directory that is there, named by a point, two points, or the root. -/
  | directory (p : Place)
  /-- A name in a directory that is there. -/
  | entry (p : Place) (slash : Bool)
deriving DecidableEq, Repr

def goal (d : Disk) (text : String) : Except SystemError Goal := do
  let path ← Path.read text
  let start : Place := if path.absolute then [] else d.working
  let here ← path.names.dropLast.foldlM d.enter start
  match path.names.getLast? with
  | none => return .directory here
  | some "." => return .directory here
  | some ".." => return .directory here.dropLast
  | some name =>
    if Path.maxNameLength < Path.octetCount name then .error .nameTooLong
    else return .entry (here ++ [name]) path.slash

/-- What stands at the end of a path. -/
def find (d : Disk) (text : String) : Except SystemError Node := do
  match ← d.goal text with
  | .directory _ => return .directory
  | .entry p slash =>
    match d.node? p with
    | none => .error .notFound
    | some .directory => return .directory
    | some (.file n) => if slash then .error .notDirectory else return .file n

/-! ## Contents -/

def bytesOf (d : Disk) (n : Nat) : Bytes := (List.lookup n d.data).getD []

def setBytes (d : Disk) (n : Nat) (bs : Bytes) : Disk :=
  { d with data := (n, bs) :: d.data.filter fun e => e.1 != n }

/-- A new empty file at a place. -/
def create (d : Disk) (p : Place) : Nat × Disk :=
  (d.fresh, { d.setBytes d.fresh [] with files := (p, d.fresh) :: d.files, fresh := d.fresh + 1 })

def sizeOfNode (d : Disk) : Node → Nat
  | .directory => directorySize
  | .file n => (d.bytesOf n).length

def contents (text : String) (d : Disk) : Except SystemError Bytes := do
  match ← d.find text with
  | .directory => .error .isDirectory
  | .file n => return d.bytesOf n

def isPresent (text : String) (d : Disk) : Bool := (d.find text).toOption.isSome

def isFile (text : String) (d : Disk) : Bool :=
  match d.find text with
  | .ok (.file _) => true
  | _ => false

def sizeOf (text : String) (d : Disk) : Nat :=
  match d.find text with
  | .ok n => d.sizeOfNode n
  | .error _ => 0

/-! ## Open files -/

def openNode (d : Disk) (file : Option Nat) (append : Bool) : FileDescriptor × Disk :=
  (d.fresh,
    { d with opened := (d.fresh, { file, append }) :: d.opened, fresh := d.fresh + 1 })

def openDirectory (d : Disk) (a : Access) : Except SystemError FileDescriptor × Disk :=
  if a.creation = .always then (.error .alreadyExists, d)
  else if a.creation = .ifMissing ∨ a.write then (.error .isDirectory, d)
  else
    let (fd, d) := d.openNode none false
    (.ok fd, d)

def openFile (text : String) (a : Access) (d : Disk) : Except SystemError FileDescriptor × Disk :=
  if '\x00' ∈ text.toList then (.error .zeroInName, d)
  else if !a.write ∧ !a.append ∧ (a.truncate ∨ a.creation ≠ .existing) then
    (.error .createWithoutWrite, d)
  else match d.goal text with
    | .error e => (.error e, d)
    | .ok (.directory _) => d.openDirectory a
    | .ok (.entry p slash) =>
      if slash ∧ a.creation ≠ .existing then (.error .isDirectory, d)
      else match d.node? p with
        | some .directory => d.openDirectory a
        | some (.file n) =>
          if a.creation = .always then (.error .alreadyExists, d)
          else if slash then (.error .notDirectory, d)
          else
            let d := if a.truncate then d.setBytes n [] else d
            let (fd, d) := d.openNode (some n) a.append
            (.ok fd, d)
        | none =>
          if a.creation = .existing then (.error .notFound, d)
          else
            let (n, d) := d.create p
            let (fd, d) := d.openNode (some n) a.append
            (.ok fd, d)

def openFile? (d : Disk) (fd : FileDescriptor) : Option OpenFile := List.lookup fd d.opened

def setOpen (d : Disk) (fd : FileDescriptor) (f : OpenFile) : Disk :=
  { d with opened := d.opened.map fun e => if e.1 == fd then (fd, f) else e }

def closeFile (fd : FileDescriptor) (d : Disk) : Disk :=
  { d with opened := d.opened.filter fun e => e.1 != fd }

def openSize (fd : FileDescriptor) (d : Disk) : Nat :=
  match d.openFile? fd with
  | none => 0
  | some ⟨none, _, _⟩ => directorySize
  | some ⟨some n, _, _⟩ => (d.bytesOf n).length

def seekTo (fd : FileDescriptor) (offset : Nat) (d : Disk) : Except SystemError Unit × Disk :=
  match d.openFile? fd with
  | none => (.error .invalid, d)
  | some f =>
    if d.maxOffset < offset then (.error .invalid, d) else (.ok (), d.setOpen fd { f with offset })

def readSome (fd : FileDescriptor) (count : Nat) (d : Disk) : Except SystemError Bytes × Disk :=
  match d.openFile? fd with
  | none => (.error .invalid, d)
  | some f =>
    match f.file with
    | none => (.error .isDirectory, d)
    | some n =>
      let bs := ((d.bytesOf n).drop f.offset).take count
      (.ok bs, d.setOpen fd { f with offset := f.offset + bs.length })

/-- Writes all octets. A write that fails is taken to have written nothing and to leave the offset
where it was; a system may fail with a part of the octets written. -/
def writeAll (fd : FileDescriptor) (bs : Bytes) (d : Disk) : Except SystemError Unit × Disk :=
  match d.openFile? fd with
  | none => (.error .invalid, d)
  | some f =>
    match f.file with
    | none => (.error .isDirectory, d)
    | some n =>
      let old := d.bytesOf n
      let offset := if f.append then old.length else f.offset
      -- Writing nothing does not reach the file.
      if bs.isEmpty then (.ok (), d)
      else if d.maxOffset < offset + bs.length then (.error .fileTooLarge, d)
      else if d.capacity < offset + bs.length then (.error .noSpace, d)
      else
        (.ok (), (d.setBytes n (Bytes.overwrite old offset bs)).setOpen fd
          { f with offset := offset + bs.length })

/-! ## Places come and go -/

def removeFile (text : String) (d : Disk) : Except SystemError Unit × Disk :=
  match d.goal text with
  | .error e => (.error e, d)
  | .ok (.directory _) => (.error .isDirectory, d)
  | .ok (.entry p slash) =>
    match d.node? p with
    | none => (.error .notFound, d)
    | some .directory => (.error .isDirectory, d)
    | some (.file _) =>
      if slash then (.error .notDirectory, d)
      else (.ok (), { d with files := d.files.filter fun e => e.1 != p })

/-- Moves a file; a file that stands at the target is replaced. -/
def renameFile (source target : String) (d : Disk) : Except SystemError Unit × Disk :=
  match d.goal source, d.goal target with
  | .error e, _ => (.error e, d)
  | _, .error e => (.error e, d)
  | .ok (.entry p pSlash), .ok (.entry q qSlash) =>
    match d.node? p with
    | none => (.error .notFound, d)
    | some .directory => (.error .isDirectory, d)
    | some (.file n) =>
      if pSlash ∨ qSlash then (.error .notDirectory, d)
      else if d.node? q = some .directory then (.error .isDirectory, d)
      else (.ok (), { d with files := (q, n) :: d.files.filter fun e => e.1 != p && e.1 != q })
  | _, _ => (.error .busy, d)

/-- Six digits. -/
def uniquePart (n : Nat) : String :=
  String.ofList ((List.range 6).map fun i => Nat.digitChar (n / Nat.pow 10 (5 - i) % 10))

/-- A new file in a directory. Of the names that can be made, one is not yet in use. -/
def createUnique (directory start tail : String) (d : Disk) :
    Except SystemError (FileDescriptor × String) × Disk :=
  let path (k : Nat) := directory ++ "/" ++ start ++ uniquePart k ++ tail
  let free := (List.range (d.files.length + d.directories.length + 1)).find? fun k =>
    !d.isPresent (path (d.fresh + k))
  let name := path (d.fresh + free.getD 0)
  match d.openFile name { read := true, write := true, creation := .always } with
  | (.error e, d) => (.error e, d)
  | (.ok fd, d) => (.ok (fd, name), d)

/-- Makes a directory and those that lead to it. -/
def makeDirectories (text : String) (d : Disk) : Disk :=
  match Path.read text with
  | .error _ => d
  | .ok path =>
    let start : Place := if path.absolute then [] else d.working
    let added := (List.range path.names.length).map fun i => start ++ path.names.take (i + 1)
    { d with directories := d.directories ++ added }

/-- Puts a file at a path, in place of one that is there. -/
def put (text : String) (bs : Bytes) (d : Disk) : Disk :=
  match d.openFile text { write := true, truncate := true, creation := .ifMissing } with
  | (.ok fd, d) => ((d.writeAll fd bs).2).closeFile fd
  | (.error _, d) => d

instance : Storage Disk where
  openFile := openFile
  createUnique := createUnique
  closeFile := closeFile
  openSize := openSize
  seekTo := seekTo
  readSome := readSome
  writeAll := writeAll
  isPresent := isPresent
  isFile := isFile
  sizeOf := sizeOf
  contents := contents
  removeFile := removeFile
  renameFile := renameFile

/-- The memory of the machine that the disk is in. -/
instance : Allocator Disk where
  allocate size d :=
    (if Saturating.maxInt64 < size then .error .tooLarge
      else if d.memory < size then .error .outOfMemory
      else .ok (), d)

end Disk
end NetKit
