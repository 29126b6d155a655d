import NetKit.Bindings
import NetKit.Journal
import NetKit.Log.Redaction

/-!
What setting up the library notes.
-/
namespace NetKit.Journal

variable {σ : Type} [Storage σ]

/-- The certificates at a path, with the notes that loading them makes. -/
def certificatesAt (path : String) (format : EncodingFormat) (s : σ) : Noted (List Certificate) :=
  match Storage.contents path s with
  | .ok bs => certificateFile bs format
  | .error e => ⟨[], [unreadableFile path e.message]⟩

def contractNote (c : Contract) : Log.Note := ⟨.info, "netbridge::contracts", c.text, []⟩

/-- Notes on the contracts come before those on the bundle. -/
def bindings (c : Config) (s : σ) : Noted (Except SetupError Bindings) := do
  if (c.validate s).toBool && c.reportContracts then
    for contract in Contract.all do Noted.note (contractNote contract)
  let r := Bindings.new c s
  if (c.validate s).toBool then
    if let some path := c.trustedCertificates then
      discard (certificatesAt path .pem s)
      if let .ok b := r then
        Noted.note ⟨.debug, "netbridge", "Loaded trusted certificates",
          [("file", Log.baseName path), ("count", toString b.trusted.length)]⟩
  return r

end NetKit.Journal
