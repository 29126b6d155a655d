import NetKit.Certificate.Fault
import NetKit.Der.Oid

/-!
The part of a key that names its algorithm, and public keys with it.
-/
namespace NetKit
open Der (Element Oid Reader)

/-- Gives a failure another cause. -/
def Der.Reader.orElse {ε ε' α : Type} (r : Reader ε α) (f : ε') : Reader ε' α :=
  fun bs => (r.run bs).mapError fun _ => f

/-- Treats the failures of elements as failures of what they are part of. -/
def Der.Reader.lift {α : Type} (r : Reader Der.Fault α) : Reader Certificate.Fault α :=
  fun bs => (r.run bs).mapError .der

structure AlgorithmIdentifier where
  oid : Oid
  parameters : Option Element
deriving DecidableEq, Repr

namespace AlgorithmIdentifier

def reader : Reader Certificate.Fault AlgorithmIdentifier :=
  Der.within Der.Tag.sequence .der do
    let oid ← Der.oid.orElse .algorithm
    let rest ← get
    if rest.isEmpty then return ⟨oid, none⟩
    return ⟨oid, some (← Der.element.lift)⟩

end AlgorithmIdentifier

/-- A public key with its algorithm. -/
structure PublicKeyInfo where
  algorithm : AlgorithmIdentifier
  key : Bytes
  /-- The octets from the beginning to the end of the key. -/
  encoding : Bytes
deriving DecidableEq, Repr

namespace PublicKeyInfo

def reader : Reader Certificate.Fault PublicKeyInfo := fun bs => do
  let (e, rest) ← ((Der.tagged Der.Tag.sequence).lift).run bs
  let (algorithm, after) ← AlgorithmIdentifier.reader.run e.content
  let (key, after) ← (Der.bitString.orElse Certificate.Fault.publicKey).run after
  return (⟨algorithm, key, bs.take (bs.length - rest.length - after.length)⟩, rest)

end PublicKeyInfo
end NetKit
