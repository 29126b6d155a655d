import NetKit.Der

/-!
Why octets are no certificate.
-/
namespace NetKit.Certificate

inductive Fault where
  | der (f : Der.Fault)
  | serial
  | algorithm
  | date
  | publicKey
  | issuerId
  | subjectId
  | extensions
  | signature
  /-- Something is left over where nothing may follow. -/
  | notAtEnd
deriving DecidableEq, Repr

namespace Fault

def part (name : String) : String := "Parsing Error: " ++ name

def text : Fault → String
  | .der f => f.readingText fun cause => "Der(" ++ cause ++ ")"
  | .serial => part "InvalidSerial"
  | .algorithm => part "InvalidAlgorithmIdentifier"
  | .date => part "InvalidDate"
  | .publicKey => part "InvalidSPKI"
  | .issuerId => part "InvalidIssuerUID"
  | .subjectId => part "InvalidSubjectUID"
  | .extensions => part "InvalidExtensions"
  | .signature => part "InvalidSignatureValue"
  | .notAtEnd => part "NomError(Eof)"

end Fault
end NetKit.Certificate
