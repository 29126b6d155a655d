import NetKit.Certificate
import NetKit.Config
import NetKit.Contract
import NetKit.EventLoop

/-!
The library set up from a configuration, with the certificates that it trusts.
-/
namespace NetKit

structure Bindings where
  config : Config
  trusted : List Certificate
deriving DecidableEq

namespace Bindings

/-- The certificates in a file; none when it cannot be read. -/
def certificatesAt {σ : Type} [Storage σ] (path : String) (format : EncodingFormat) (s : σ) :
    List Certificate :=
  match Storage.contents path s with
  | .ok bs => Certificate.ofData bs format
  | .error _ => []

/-- A bundle must hold at least one certificate. -/
def loadTrusted {σ : Type} [Storage σ] (c : Config) (s : σ) :
    Except SetupError (List Certificate) :=
  match c.trustedCertificates with
  | none => .ok []
  | some path =>
    match certificatesAt path .pem s with
    | [] => .error (.noCertificates path)
    | cs => .ok cs

def new {σ : Type} [Storage σ] (c : Config) (s : σ) : Except SetupError Bindings := do
  c.validate s
  return ⟨c, ← loadTrusted c s⟩

/-- Whether a certificate is one of the bundle. The null certificate is not trusted. -/
def isTrusted (b : Bindings) (c : Certificate) : Bool := !c.isNull && b.trusted.contains c

/-- Runs a loop until it exits, or until the configured waiting time is over. -/
def action (b : Bindings) : Action :=
  match b.config.eventLoopTimeout with
  | none => .exec
  | some d => .execTimeout (min d.millis (UInt64.size - 1))

end Bindings
end NetKit
