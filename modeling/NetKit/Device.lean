import NetKit.Handles
import NetKit.OpenMode
import NetKit.Saturating
import NetKit.SystemError
import NetKit.Text.Utf8

/-!
Random-access devices. A device keeps its mode, its position and its last error; what it reads and
writes is kept by its backing, which may need a system to answer.
-/
namespace NetKit
namespace Device

/-- Why a device fails. -/
inductive Error where
  | alreadyOpen
  | noAccess
  | notOpen
  | writeOnly
  | readOnly
  | invalidPosition
  | openBuffer
  | notCreated
  /-- There is no memory for contents of that size. -/
  | outOfMemory
  /-- No contents can be of that size. -/
  | tooLarge
  | system (e : SystemError)
deriving DecidableEq, Repr

def Error.message : Error → String
  | .alreadyOpen => "Device already open"
  | .noAccess => "Device access not specified"
  | .notOpen => "Device not open"
  | .writeOnly => "WriteOnly device"
  | .readOnly => "ReadOnly device"
  | .invalidPosition => "Invalid pos"
  | .openBuffer => "Cannot replace the data of an open buffer"
  | .notCreated => "The file has not been created"
  | .outOfMemory => "memory allocation failed because the memory allocator returned an error"
  | .tooLarge =>
    "memory allocation failed because the computed capacity exceeded the collection's maximum"
  | .system e => e.message

/-- What a caller is told. A position before the start is refused before the device is asked. -/
inductive Fault where
  | beforeStart
  | failed (e : Error)
deriving DecidableEq, Repr

def Fault.message : Fault → String
  | .beforeStart => Error.invalidPosition.message
  | .failed e => e.message

/-- The name of the kind of fault. -/
def Fault.kind : Fault → String
  | .beforeStart => "InvalidInput"
  | .failed _ => "Other"

/-- The answer of a backing, and what became of the backing and the system. -/
structure Reply (σ β α : Type) where
  answer : Except Error α
  backing : β
  system : σ

/-- What keeps the octets of a device. The operations are only used as the mode allows. -/
class Backing (σ β : Type) where
  /-- Opens in a mode; the answer is the size. -/
  open? : OpenMode → β → σ → Reply σ β Nat
  close : β → σ → β × σ
  size : β → σ → Nat
  /-- Whether the position may be set. The mode tells whether gaps can be filled later. -/
  seek? : OpenMode → Nat → β → σ → Reply σ β Unit
  /-- At most so many octets from the position on. -/
  read? : (pos count : Nat) → β → σ → Reply σ β Bytes
  /-- Writes all octets from the position on. -/
  write? : (pos : Nat) → Bytes → β → σ → Reply σ β Unit

end Device

structure Device (β : Type) where
  backing : β
  mode : OpenMode := .closed
  pos : Nat := 0
  /-- The last failure; none when nothing failed yet. -/
  error : Option Device.Error := none
deriving Repr

namespace Device

/-- What an operation answers, and what became of the device and the system. -/
structure Result (σ β α : Type) where
  answer : Except Fault α
  device : Device β
  system : σ

/-- From where a position is counted. -/
inductive Target where
  | start (offset : Nat)
  | current (delta : Int)
  | fromEnd (delta : Int)
deriving DecidableEq, Repr

variable {σ β : Type}

def errorText (d : Device β) : String :=
  match d.error with
  | none => "Unknown error"
  | some e => e.message

def isOpen (d : Device β) : Bool := d.mode != .closed

def fail {α : Type} (d : Device β) (e : Error) (s : σ) : Result σ β α :=
  ⟨.error (.failed e), { d with error := some e }, s⟩

variable [Backing σ β]

/-- Opens the device; appending begins at the end. -/
def «open» (d : Device β) (mode : OpenMode) (s : σ) : Result σ β Unit :=
  if d.isOpen then d.fail .alreadyOpen s
  else if !mode.completed.grantsAccess then d.fail .noAccess s
  else
    let r := Backing.open? mode.completed d.backing s
    match r.answer with
    | .error e => { d with backing := r.backing }.fail e r.system
    | .ok size =>
      ⟨.ok (),
        { d with
          backing := r.backing
          mode := mode.completed
          pos := if mode.completed.appends then size else 0 },
        r.system⟩

def close (d : Device β) (s : σ) : Device β × σ :=
  let (backing, s) := Backing.close d.backing s
  ({ d with backing, mode := .closed, pos := 0 }, s)

def size (d : Device β) (s : σ) : Nat := Backing.size d.backing s

/-- Closed, or with nothing left to read. -/
def atEnd (d : Device β) (s : σ) : Bool := !d.isOpen || d.size s ≤ d.pos

/-- A count as a signed 64-bit number has it: from 2⁶³ on it wraps round. -/
def signed (n : Nat) : Int := (Int64.ofNat n).toInt

/-- The position meant, kept in the signed 64-bit range. -/
def resolve (d : Device β) (t : Target) (s : σ) : Int :=
  match t with
  | .start offset => Saturating.clamp offset
  | .current delta => Saturating.add (signed d.pos) delta
  | .fromEnd delta => Saturating.add (signed (d.size s)) delta

def seek (d : Device β) (t : Target) (s : σ) : Result σ β Nat :=
  let target := d.resolve t s
  if target < 0 then ⟨.error .beforeStart, d, s⟩
  else if !d.isOpen then d.fail .notOpen s
  else
    let r := Backing.seek? d.mode target.toNat d.backing s
    match r.answer with
    | .error e => { d with backing := r.backing }.fail e r.system
    | .ok () =>
      ⟨.ok target.toNat, { d with backing := r.backing, pos := target.toNat }, r.system⟩

def read (d : Device β) (count : Nat) (s : σ) : Result σ β Bytes :=
  if !d.isOpen then d.fail .notOpen s
  else if !d.mode.reads then d.fail .writeOnly s
  else
    let r := Backing.read? d.pos count d.backing s
    match r.answer with
    | .error e => { d with backing := r.backing }.fail e r.system
    | .ok bs => ⟨.ok bs, { d with backing := r.backing, pos := d.pos + bs.length }, r.system⟩

/-- Reads up to the end. No more is left than the device holds. -/
def readAll (d : Device β) (s : σ) : Result σ β Bytes := d.read (d.size s) s

def write (d : Device β) (bs : Bytes) (s : σ) : Result σ β Nat :=
  if !d.isOpen then d.fail .notOpen s
  else if !d.mode.writes then d.fail .readOnly s
  else
    let r := Backing.write? d.pos bs d.backing s
    match r.answer with
    | .error e => { d with backing := r.backing }.fail e r.system
    | .ok () =>
      ⟨.ok bs.length, { d with backing := r.backing, pos := d.pos + bs.length }, r.system⟩

/-- Writes all octets; nothing is asked of the device when there are none. -/
def writeAll (d : Device β) (bs : Bytes) (s : σ) : Result σ β Unit :=
  if bs.isEmpty then ⟨.ok (), d, s⟩
  else
    let r := d.write bs s
    ⟨r.answer.map fun _ => (), r.device, r.system⟩

end Device
end NetKit
