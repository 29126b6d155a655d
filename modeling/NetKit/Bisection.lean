/-!
Bisection of lists that begin with the elements that pass a test and end with those that fail it.
-/
namespace NetKit.Bisection
variable {α : Type}

/-- Narrows down the place of the first failure to one place between two. -/
def narrow (p : α → Bool) (l : List α) (low high : Nat) : Nat :=
  if low < high then
    let middle := low + (high - low) / 2
    if l[middle]?.any p then narrow p l (middle + 1) high else narrow p l low middle
  else low
termination_by high - low

/-- How many elements pass; of use only when no element that passes follows one that fails. -/
def partitionPoint (p : α → Bool) (l : List α) : Nat := narrow p l 0 l.length

end NetKit.Bisection
