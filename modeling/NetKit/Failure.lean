import NetKit.Coded

/-!
Failures of the library's own operations.
-/
namespace NetKit

inductive Failure where
  | notAvailable (what : String)
  | operationFailed (what : String)
  | invalidArgument (what : String)
  | io (what : String)
deriving DecidableEq, Repr

namespace Failure

def message : Failure → String
  | .notAvailable what => "Bridge capability not available: " ++ what
  | .operationFailed what => "Bridge operation failed: " ++ what
  | .invalidArgument what => "Invalid argument: " ++ what
  | .io what => "IO error: " ++ what

/-- The name of the kind of failure. -/
def kind : Failure → String
  | .notAvailable _ => "NotAvailable"
  | .operationFailed _ => "OperationFailed"
  | .invalidArgument _ => "InvalidArgument"
  | .io _ => "Io"

/-- No member of an enumeration has the code. -/
def notMember (code : Int) (enumeration : String) : Failure :=
  .invalidArgument s!"{code} is not a valid {enumeration}"

end Failure

/-- The member of an enumeration that has a code. -/
def Coded.read {α : Type} [Coded α] (code : Int) : Except Failure α :=
  match (Coded.ofCode? code : Option α) with
  | some a => .ok a
  | none => .error (.notMember code (Coded.kind α))

end NetKit
