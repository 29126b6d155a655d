import NetKit.Keyed

/-!
Numbered handles on shared values. A copied handle shares the value of its source until one of
them is changed; the change then goes to a cell of its own. A cell counts its handles and is freed
with the last of them.
-/
namespace NetKit

/-- A value in memory, and how many handles hold it. -/
structure Cell (α : Type) where
  value : α
  count : Nat := 1
deriving Repr

/-- Which cell each handle holds, and the cells that are held. -/
structure Handles (α : Type) where
  holds : List (Nat × Nat) := []
  cells : List (Nat × Cell α) := []
  /-- Larger than every cell in use. -/
  fresh : Nat := 0
  /-- Goes up with every cell that is made and down with every cell that is freed. -/
  live : Nat := 0
deriving Repr

class Editable (α : Type) (ε : outParam Type) where
  /-- The changed value; none when the change is refused. -/
  change? : ε → α → Option α
  /-- Whether the value is opened for writing, which ends its sharing, even if the change is refused
  then. -/
  opens : ε → α → Bool := fun _ _ => true

/-- The value that a change leaves; a value that is not opened stays as it is. -/
def Editable.result {α ε : Type} [Editable α ε] (e : ε) (a : α) : α :=
  if opens e a then (change? e a).getD a else a

namespace Handles
variable {α ε : Type}

def cell? (s : Handles α) (h : Nat) : Option Nat := List.lookup h s.holds

def content? (s : Handles α) (h : Nat) : Option (Cell α) :=
  (s.cell? h).bind fun c => List.lookup c s.cells

/-- The value read through a handle. -/
def get? (s : Handles α) (h : Nat) : Option α := (s.content? h).map (·.value)

def refs (s : Handles α) (h : Nat) : Nat := ((s.content? h).map (·.count)).getD 0

/-! ## Cells -/

/-- Makes the cell `s.fresh`, counted once. -/
def alloc (s : Handles α) (a : α) : Handles α :=
  { s with cells := (s.fresh, { value := a }) :: s.cells, fresh := s.fresh + 1, live := s.live + 1 }

def retain (s : Handles α) (c : Nat) : Handles α :=
  match List.lookup c s.cells with
  | some x => { s with cells := Keyed.put c { x with count := x.count + 1 } s.cells }
  | none => s

/-- Counts a cell once less, and frees it with the last count. -/
def release (s : Handles α) (c : Nat) : Handles α :=
  match List.lookup c s.cells with
  | some x =>
    if x.count ≤ 1 then { s with cells := Keyed.erase c s.cells, live := s.live - 1 }
    else { s with cells := Keyed.put c { x with count := x.count - 1 } s.cells }
  | none => s

/-! ## Handles -/

/-- Makes a handle hold a cell that already counts it, in the place of what it held before. -/
def point (s : Handles α) (h c : Nat) : Handles α :=
  let t := { s with holds := Keyed.put h c s.holds }
  match s.cell? h with
  | some old => t.release old
  | none => t

def insert (s : Handles α) (h : Nat) (a : α) : Handles α := (s.alloc a).point h s.fresh

/-- Makes `h` a copy of `source`, sharing its value. -/
def copy? (s : Handles α) (source h : Nat) : Option (Handles α) :=
  (s.cell? source).map fun c => (s.retain c).point h c

def drop (s : Handles α) (h : Nat) : Handles α :=
  match s.cell? h with
  | some c => { s with holds := Keyed.erase h s.holds }.release c
  | none => s

/-- Replaces the value read through one handle. A shared value is left to the other handles. -/
def set (s : Handles α) (h : Nat) (a : α) : Handles α :=
  match s.cell? h with
  | none => s
  | some c =>
    match List.lookup c s.cells with
    | none => s
    | some x =>
      if x.count ≤ 1 then { s with cells := Keyed.put c { x with value := a } s.cells }
      else s.insert h a

/-- Changes the value read through one handle; tells whether the change was made. -/
def edit? [Editable α ε] (s : Handles α) (h : Nat) (e : ε) : Option (Bool × Handles α) :=
  (s.get? h).map fun a =>
    ((Editable.change? e a).isSome,
      if Editable.opens e a then s.set h (Editable.result e a) else s)

/-- Whether two handles hold the same cell or equal values. -/
def same [BEq α] (s : Handles α) (a b : Nat) : Bool :=
  s.cell? a == s.cell? b || s.get? a == s.get? b

end Handles
end NetKit
