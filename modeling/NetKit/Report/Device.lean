import NetKit.Device
import NetKit.Report

/-!
Reports of devices.
-/
namespace NetKit.Report
variable {σ β : Type} [Device.Backing σ β]

def deviceFields (d : Device β) (s : σ) : List (String × Json) :=
  [("open", d.isOpen), ("mode", d.mode), ("size", d.size s), ("pos", d.pos),
    ("at_end", d.atEnd s), ("error", d.errorText)]

end NetKit.Report
