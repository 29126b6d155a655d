/-!
Looking for one list inside another.
-/
namespace NetKit.Text
variable {α : Type} [BEq α]

/-- Whether `part` stands somewhere in a list. -/
def occursIn (part : List α) : List α → Bool
  | [] => part.isEmpty
  | a :: l => part.isPrefixOf (a :: l) || occursIn part l

/-- What stands before the first `part` of a list. -/
def before (part : List α) : List α → List α
  | [] => []
  | a :: l => if part.isPrefixOf (a :: l) then [] else a :: before part l

end NetKit.Text
