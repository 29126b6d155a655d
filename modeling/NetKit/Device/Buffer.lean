import NetKit.Bytes
import NetKit.Device

/-!
Buffers: devices over octets in memory.
-/
namespace NetKit

/-- Who gives out memory. A request that is refused now may be granted later. -/
class Allocator (σ : Type) where
  /-- Asks for room for so many octets. -/
  allocate : (size : Nat) → σ → Except Device.Error Unit × σ

/-- Octets in memory. They can be handed out without being copied until they are opened for
writing. -/
structure Memory where
  data : Bytes := []
  /-- How often the octets were opened for writing or replaced. -/
  revision : Nat := 0
deriving DecidableEq, Repr

namespace Memory

def replace (m : Memory) (data : Bytes) : Memory := ⟨data, m.revision + 1⟩

/-- Makes sure of room for `needed` octets before anything is changed. -/
def grow? {σ : Type} [Allocator σ] (m : Memory) (needed : Nat) (s : σ) :
    Except Device.Error Unit × σ :=
  if needed ≤ m.data.length then (.ok (), s) else Allocator.allocate needed s

/-- Octets that were handed out. -/
structure Snapshot where
  data : Bytes
  revision : Nat
deriving DecidableEq, Repr

def snapshot (m : Memory) : Snapshot := ⟨m.data, m.revision⟩

/-- How many hold the octets of a snapshot: the memory does until its own are opened for writing. -/
def Snapshot.holders (s : Snapshot) (m : Memory) : Nat := if s.revision = m.revision then 2 else 1

/-- A position past the end is allowed when writing can fill the gap. -/
instance {σ : Type} [Allocator σ] : Device.Backing σ Memory where
  open? mode m s :=
    let m := if mode.truncates then m.replace [] else m
    ⟨.ok m.data.length, m, s⟩
  close m s := (m, s)
  size m _ := m.data.length
  seek? mode pos m s :=
    ⟨if m.data.length < pos ∧ !mode.writes then .error .invalidPosition else .ok (), m, s⟩
  read? pos count m s := ⟨.ok ((m.data.drop pos).take count), m, s⟩
  write? pos bs m s :=
    match m.grow? (pos + bs.length) s with
    | (.error e, s) => ⟨.error e, m.replace m.data, s⟩
    | (.ok (), s) => ⟨.ok (), m.replace (m.data.overwrite pos bs), s⟩

end Memory

abbrev Buffer := Device Memory

namespace Buffer

def ofData (data : Bytes) : Buffer := { backing := { data } }

def data (b : Buffer) : Bytes := b.backing.data

/-- The contents are replaced only while the buffer is closed. -/
def setData {σ : Type} (b : Buffer) (data : Bytes) (s : σ) : Device.Result σ Memory Unit :=
  if b.isOpen then b.fail .openBuffer s
  else ⟨.ok (), { b with backing := b.backing.replace data }, s⟩

end Buffer
end NetKit
