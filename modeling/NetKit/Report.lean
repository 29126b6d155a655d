import NetKit.Bytes
import NetKit.Coded
import NetKit.Flags
import NetKit.Json

/-!
What is told of values in JSON. Where JSON is expected, a value that can be reported stands for its
report.
-/
namespace NetKit

class Reported (α : Type) where
  report : α → Json

export Reported (report)

namespace Report
variable {α β : Type}

instance [Reported α] : CoeHead α Json := ⟨report⟩

/-- Members of enumerations are told by their names. -/
instance [Coded α] : Reported α := ⟨fun a => .str (Coded.name a)⟩

instance : Reported Json := ⟨id⟩
instance : Reported Unit := ⟨fun _ => .null⟩
instance : Reported Bool := ⟨.bool⟩
instance : Reported Nat := ⟨.ofNat⟩
instance : Reported Int := ⟨.ofInt⟩
instance : Reported UInt16 := ⟨fun n => .ofNat n.toNat⟩
instance : Reported String := ⟨.str⟩
instance [Reported α] : Reported (Option α) := ⟨Json.ofOption report⟩
instance [Reported α] : Reported (List α) := ⟨Json.ofList report⟩
instance [Reported α] [Reported β] : Reported (α × β) := ⟨fun p => .arr [report p.1, report p.2]⟩
instance {names : FlagNames} : Reported (Flags names) := ⟨fun f => .ofNat f.bits.toNat⟩

instance : Reported Ordering where
  report
    | .lt => .ofInt (-1)
    | .eq => .ofInt 0
    | .gt => .ofInt 1

/-- Octets in hexadecimal digits. -/
def hex (bs : Bytes) : Json := .str (Bytes.hex bs)

/-- Octets are told as the text that they are, or else in hexadecimal digits. -/
instance : Reported Bytes where
  report bs :=
    match Utf8.decode? bs with
    | some s => .str s
    | none => .obj [("hex", hex bs)]

/-- Octets with the texts that show them, as a view and as an array, which is equal to the view. -/
def octets (bs : Bytes) : Json :=
  .obj [("len", bs.length), ("empty", bs.isEmpty), ("debug", Bytes.text "ByteArrayView" bs),
    ("data", bs), ("array_debug", Bytes.text "ByteArray" bs), ("lossy", Utf8.decodeLossy bs),
    ("eq", true)]

/-- A set of flags, and what it is to another one. -/
def flags {names : FlagNames} (a b : Flags names) : Json :=
  .obj [("bits", a), ("debug", a.text), ("empty", a.isEmpty), ("contains", a.contains b),
    ("intersects", a.intersects b), ("or", a.union b), ("and", a.inter b), ("not", a.compl),
    ("assigned", a.union b), ("eq", a == b)]

end Report
end NetKit
