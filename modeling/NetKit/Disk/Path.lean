import NetKit.SystemError
import NetKit.Text.Blank
import NetKit.Text.Utf8

/-!
Texts that name places on a disk: names with slashes between, from the root or from the working
directory.
-/
namespace NetKit

/-- The names on the way from the root to a place. -/
abbrev Place := List String

/-- A path that was taken apart. -/
structure Path where
  absolute : Bool
  names : List String
  /-- Ends with a slash, so that only a directory can be meant. -/
  slash : Bool
deriving DecidableEq, Repr

namespace Path

def maxLength : Nat := 4095

def maxNameLength : Nat := 255

def octetCount (s : String) : Nat := (Utf8.encode s).length

def pieces (cs : List Char) : List String :=
  ((Text.splitBy (· == '/') cs).filter fun p => !p.isEmpty).map String.ofList

/-- Takes a path apart, unless it can name nothing. -/
def read (text : String) : Except SystemError Path :=
  let cs := text.toList
  if '\x00' ∈ cs then .error .zeroInName
  else if cs.isEmpty then .error .notFound
  else if maxLength < octetCount text then .error .nameTooLong
  else .ok ⟨cs.head? == some '/', pieces cs, cs.getLast? == some '/'⟩

/-- The directory part of a path, a point when there is none. -/
def parent (text : String) : String :=
  let names := (pieces text.toList).filter (· != ".")
  let absolute := text.toList.head? == some '/'
  match names.dropLast with
  | [] => if absolute then "/" else "."
  | shorter => (if absolute then "/" else "") ++ "/".intercalate shorter

/-- The last name of a path, none when it ends at a parent directory or has no names. -/
def name? (text : String) : Option String :=
  ((pieces text.toList).filter (· != ".")).getLast?.filter (· != "..")

end Path
end NetKit
