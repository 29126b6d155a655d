import NetKit.Coded

/-!
The two encodings of certificates and keys.
-/
namespace NetKit

inductive EncodingFormat where
  | pem
  | der
deriving DecidableEq, Repr

instance : Coded EncodingFormat where
  kind := "EncodingFormat"
  all := [.pem, .der]
  code
    | .pem => 0
    | .der => 1
  name
    | .pem => "Pem"
    | .der => "Der"

end NetKit
