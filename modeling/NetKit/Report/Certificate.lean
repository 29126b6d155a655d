import NetKit.Certificate
import NetKit.Instant
import NetKit.Report

/-!
Reports of certificates and keys.
-/
namespace NetKit.Report

def keyFields (k : Key) : List (String × Json) :=
  [("null", k.isNull), ("algorithm", k.algorithm), ("type", k.type), ("length", k.length),
    ("der_len", k.encoding.length), ("pem", k.pem), ("debug", k.text)]

instance : Reported Key := ⟨fun k => .obj (keyFields k)⟩

instance : Reported AlternativeName := ⟨fun n => report (n.kind, n.value)⟩

instance : Reported AlternativeNames.Item where
  report
    | .entry n => report n
    | .key k => report k
    | .value bs => report bs

instance : Reported AlternativeNames where
  report m :=
    .obj [("len", m.size), ("entries", m.entries), ("keys", m.keys), ("debug", m.text)]

/-- Only what a name says is told. -/
instance : Reported DistinguishedName where
  report n :=
    .obj ((Coded.all : List SubjectInfo).filterMap fun i =>
      if (n.values i).isEmpty then none else some (Coded.name i, report (n.values i)))

/-- An instant of a certificate as text, as far as the calendar reaches. -/
def instantText? (secs : Int) : Option String := (Instant.ofUnix? secs).map Instant.textWithZone

instance : Reported Certificate where
  report c :=
    .obj [("null", c.isNull), ("version", c.versionText), ("serial", c.serialText),
      ("subject", c.subject), ("issuer", c.issuer), ("subject_name", c.subject.displayName),
      ("issuer_name", c.issuer.displayName), ("effective", c.notBefore), ("expiry", c.notAfter),
      ("effective_text", instantText? c.notBefore), ("expiry_text", instantText? c.notAfter),
      ("self_signed", c.selfSigned), ("key", c.publicKey), ("names", c.alternativeNames),
      ("text", c.summary), ("debug", c.text), ("der_len", c.encoding.length)]

end NetKit.Report
