import NetKit.Device.Buffer
import NetKit.Device.File
import NetKit.Log.Note

/-!
What devices note about their work.
-/
namespace NetKit.Journal
open Log (Note)

def deviceTarget : String := "bridge_native::iodevice"

def deviceFailure (e : Device.Error) : Note :=
  ⟨.debug, deviceTarget, "Device operation failed", [("error", e.message)]⟩

/-- Every failure of the device itself is noted. -/
def device {σ β α : Type} (r : Device.Result σ β α) : Noted (Device.Result σ β α) :=
  match r.answer with
  | .error (.failed e) => ⟨r, [deviceFailure e]⟩
  | _ => pure r

/-- Opening may create a temporary file. -/
def opening {σ : Type} (d : FileDevice) (r : Device.Result σ StoredFile Unit) :
    Noted (Device.Result σ StoredFile Unit) := do
  if d.path.isEmpty && !r.device.backing.path.isEmpty then
    Noted.note ⟨.debug, deviceTarget, "Created temporary file", [("path", r.device.backing.path)]⟩
  device r

variable {σ : Type} [Storage σ]

def removing (d : FileDevice) (s : σ) : Noted (Device.Result σ StoredFile Unit) := do
  Noted.note ⟨.debug, "core_io::device", "Removing file", [("file", d.path)]⟩
  device (d.remove s)

def moving (d : FileDevice) (target : String) (s : σ) :
    Noted (Device.Result σ StoredFile Unit) := do
  Noted.note
    ⟨.debug, "core_io::device", "Renaming temporary file", [("from", d.path), ("to", target)]⟩
  device (d.rename target s)

/-- A file that was gone already is not worth a note. -/
def dropping (d : FileDevice) (s : σ) : Noted σ :=
  let (r, s) := d.drop s
  match d.leftover?, r with
  | some path, .ok () => ⟨s, [⟨.debug, deviceTarget, "Removed temporary file", [("path", path)]⟩]⟩
  | none, _ | _, .error .notFound => pure s
  | some path, .error e =>
    ⟨s, [⟨.warn, deviceTarget, "Could not remove temporary file",
      [("path", path), ("error", e.message)]⟩]⟩

end NetKit.Journal
