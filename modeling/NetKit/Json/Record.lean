import NetKit.Json

/-!
Records in JSON: an object with a field for each part, or a list of the parts in order. Fields that
are not known are passed over.
-/
namespace NetKit.Json

/-- The parts of a record by their names, none for a part that is missing. A part may not come
twice, and a list may not be too long. -/
def parts? (names : List String) : Json → Option (List (Option Json))
  | .obj fields =>
    let part (name : String) : Option (Option Json) :=
      match fields.filter fun f => f.1 == name with
      | [] => some none
      | [f] => some (some f.2)
      | _ => none
    names.mapM part
  | .arr items =>
    if items.length ≤ names.length then
      some (items.map some ++ List.replicate (names.length - items.length) none)
    else none
  | _ => none

/-- A part that may be missing or null. -/
def optional? {α : Type} (read : Json → Option α) : Option Json → Option (Option α)
  | none | some .null => some none
  | some j => (read j).map some

/-- The name of a member of an enumeration: a string, or an object with the name and null. -/
def memberName? : Json → Option String
  | .str s => some s
  | .obj [(name, .null)] => some name
  | _ => none

/-- Text by text; the last of several fields of one name counts. -/
def texts? : Json → Option (List (String × String))
  | .obj fields => fields.mapM fun (name, j) => j.str?.map fun s => (name, s)
  | _ => none

end NetKit.Json
