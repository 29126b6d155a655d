/-!
Sets of named flags kept in one word. Only bits that some name uses can be set.
-/
namespace NetKit

/-- The names of a kind of flag set in order, each with its bits. -/
abbrev FlagNames := List (String × UInt32)

def FlagNames.mask (names : FlagNames) : UInt32 :=
  names.foldl (fun acc n => acc ||| n.2) 0

structure Flags (names : FlagNames) where
  bits : UInt32
deriving DecidableEq, Repr

namespace Flags
variable {names : FlagNames}

/-- The set with the known bits among the given ones. -/
def ofBits (bits : UInt32) : Flags names := ⟨bits &&& names.mask⟩

def isEmpty (a : Flags names) : Bool := a.bits == 0

def contains (a b : Flags names) : Bool := a.bits &&& b.bits == b.bits

def intersects (a b : Flags names) : Bool := a.bits &&& b.bits != 0

def union (a b : Flags names) : Flags names := ⟨a.bits ||| b.bits⟩

def inter (a b : Flags names) : Flags names := ⟨a.bits &&& b.bits⟩

def compl (a : Flags names) : Flags names := ofBits (~~~a.bits)

/-- The non-empty named sets that are contained, in the order of the names. -/
def present (a : Flags names) : List String :=
  (names.filter fun n => n.2 != 0 && a.contains ⟨n.2⟩).map (·.1)

def text (a : Flags names) : String :=
  "\x7b" ++ ", ".intercalate a.present ++ "\x7d"

instance : Union (Flags names) := ⟨union⟩
instance : Inter (Flags names) := ⟨inter⟩

theorem contains_union_self (a b : Flags names) : (a.union b).contains b = true := by
  have hbits : (a.bits ||| b.bits) &&& b.bits = b.bits := by
    rw [← UInt32.toNat_inj, UInt32.toNat_and, UInt32.toNat_or]
    refine Nat.eq_of_testBit_eq fun i => ?_
    simpa using Or.inr
  rw [contains, union, hbits, beq_self_eq_true]

theorem contains_union_of_disjoint (a : Flags names) {b c : Flags names}
    (h : c.bits &&& b.bits = 0) : (a.union c).contains b = a.contains b := by
  have hbits : (a.bits ||| c.bits) &&& b.bits = a.bits &&& b.bits := by
    rw [← UInt32.toNat_inj] at h ⊢
    rw [UInt32.toNat_and] at h
    rw [UInt32.toNat_and, UInt32.toNat_or, UInt32.toNat_and, Nat.and_or_distrib_right, h]
    exact Nat.or_zero _
  rw [contains, contains, union, hbits]

theorem intersects_of_contains {a b c : Flags names} (ha : a.contains b = true)
    (hc : c.contains b = true) (hb : b.bits ≠ 0) : a.intersects c = true := by
  rw [contains, beq_iff_eq] at ha hc
  rw [intersects, bne_iff_ne]
  intro hnone
  apply hb
  calc b.bits = a.bits &&& (c.bits &&& b.bits) := by rw [hc, ha]
    _ = 0 := by rw [← UInt32.and_assoc, hnone, UInt32.zero_and]

end Flags
end NetKit
