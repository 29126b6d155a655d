import NetKit.Flags

/-!
The modes in which a device is opened.
-/
namespace NetKit

/-- Reading and writing are the two bits of the mode that has both. -/
def openModeNames : FlagNames :=
  [("READ_ONLY", 1), ("WRITE_ONLY", 2), ("READ_WRITE", 3), ("APPEND", 4), ("TRUNCATE", 8),
    ("TEXT", 16), ("UNBUFFERED", 32), ("NEW_ONLY", 64), ("EXISTING_ONLY", 128)]

abbrev OpenMode := Flags openModeNames

namespace OpenMode

def closed : OpenMode := ⟨0⟩
def readOnly : OpenMode := ⟨1⟩
def writeOnly : OpenMode := ⟨2⟩
def readWrite : OpenMode := ⟨3⟩
def append : OpenMode := ⟨4⟩
def truncate : OpenMode := ⟨8⟩
def newOnly : OpenMode := ⟨64⟩
def existingOnly : OpenMode := ⟨128⟩

def reads (m : OpenMode) : Bool := Flags.contains m readOnly

def writes (m : OpenMode) : Bool := Flags.contains m writeOnly

def appends (m : OpenMode) : Bool := Flags.contains m append

def truncates (m : OpenMode) : Bool := Flags.contains m truncate

/-- Appending and truncating ask for writing too. -/
def completed (m : OpenMode) : OpenMode :=
  if m.intersects (append.union truncate) then Flags.union m writeOnly else m

/-- Whether the mode gives any access. -/
def grantsAccess (m : OpenMode) : Bool := Flags.intersects m readWrite

@[simp] theorem appends_completed (m : OpenMode) : m.completed.appends = m.appends := by
  rw [completed, appends, appends]
  split
  · exact m.contains_union_of_disjoint (by decide)
  · rfl

@[simp] theorem truncates_completed (m : OpenMode) : m.completed.truncates = m.truncates := by
  rw [completed, truncates, truncates]
  split
  · exact m.contains_union_of_disjoint (by decide)
  · rfl

theorem writes_completed {m : OpenMode} (h : m.appends = true) : m.completed.writes = true := by
  have hasks : m.intersects (append.union truncate) = true :=
    Flags.intersects_of_contains h (by decide) (by decide)
  rw [completed, if_pos hasks, writes]
  exact m.contains_union_self writeOnly

end OpenMode
end NetKit
