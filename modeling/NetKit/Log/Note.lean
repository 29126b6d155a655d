import NetKit.Log.Level

/-!
What the library says about its own work: operations give back notes beside their answers.
-/
namespace NetKit.Log

/-- A message with named values, and the part of the library it comes from. -/
structure Note where
  level : Level
  target : String
  message : String
  fields : List (String × String) := []
deriving DecidableEq, Repr

end NetKit.Log

namespace NetKit

/-- An answer, and the notes that were made on the way to it. -/
structure Noted (α : Type) where
  val : α
  notes : List Log.Note := []
deriving Repr

namespace Noted
variable {α β : Type}

def bind (x : Noted α) (f : α → Noted β) : Noted β :=
  let y := f x.val
  ⟨y.val, x.notes ++ y.notes⟩

instance : Monad Noted where
  pure a := ⟨a, []⟩
  bind := bind

def note (n : Log.Note) : Noted Unit := ⟨(), [n]⟩

@[simp] theorem val_pure (a : α) : (pure a : Noted α).val = a := rfl

@[simp] theorem val_bind (x : Noted α) (f : α → Noted β) : (x >>= f).val = (f x.val).val := rfl

end Noted
end NetKit
