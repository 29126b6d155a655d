/-!
Enumerations whose members have integer codes and names.
-/
namespace NetKit

/-- The members of an enumeration in order, with the code and the name of each. -/
class Coded (α : Type) where
  all : List α
  code : α → Int
  name : α → String
  /-- The name of the enumeration itself. -/
  kind : String

namespace Coded
variable {α : Type} [Coded α]

/-- The member with a code. -/
def ofCode? (n : Int) : Option α := (all : List α).find? fun a => code a == n

end Coded
end NetKit
