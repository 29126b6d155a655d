/-!
Why the library cannot be set up.
-/
namespace NetKit

inductive SetupError where
  | configuration (what : String)
  | capabilityMissing (capability what : String)
  | internal (what : String)
  | noCertificates (file : String)
deriving DecidableEq, Repr

namespace SetupError

def message : SetupError → String
  | .configuration what => "Configuration error: " ++ what
  | .capabilityMissing capability what => "Capability missing: " ++ capability ++ " - " ++ what
  | .internal what => "Internal error: " ++ what
  | .noCertificates file => "No certificates found in " ++ file

/-- The name of the kind of error. -/
def kind : SetupError → String
  | .configuration _ => "Config"
  | .capabilityMissing .. => "CapabilityMissing"
  | .internal _ => "Internal"
  | .noCertificates _ => "EmptyCertificateBundle"

def invalidSettings : SetupError := .configuration "Invalid settings: "

def invalidFilter : SetupError := .configuration "Invalid log filter: "

def noWaitingTime : SetupError :=
  .configuration
    "Event loop timeout must be greater than 0ms. Leave it unset to wait forever."

def emptyPath : SetupError := .configuration "Trusted certificate path cannot be empty"

def noBundle (path : String) : SetupError :=
  .capabilityMissing "TrustedCertificates"
    ("Certificate bundle " ++ path ++ " does not exist or is not a file")

end SetupError
end NetKit
