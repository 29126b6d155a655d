/-!
Integers kept in the signed 64-bit range by clamping.
-/
namespace NetKit.Saturating

def minInt64 : Int := -9223372036854775808

def maxInt64 : Int := 9223372036854775807

def InRange (i : Int) : Prop := minInt64 ≤ i ∧ i ≤ maxInt64

instance (i : Int) : Decidable (InRange i) := inferInstanceAs (Decidable (_ ∧ _))

/-- The nearest number in range. -/
def clamp (i : Int) : Int := max minInt64 (min maxInt64 i)

def add (a b : Int) : Int := clamp (a + b)

def sub (a b : Int) : Int := clamp (a - b)

def mul (a b : Int) : Int := clamp (a * b)

theorem clamp_inRange (i : Int) : InRange (clamp i) := by
  unfold clamp InRange minInt64 maxInt64; omega

theorem clamp_of_inRange {i : Int} (h : InRange i) : clamp i = i := by
  unfold InRange minInt64 maxInt64 at h; unfold clamp minInt64 maxInt64; omega

end NetKit.Saturating
