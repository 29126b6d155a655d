import NetKit.Coded
import NetKit.Digest.Sha2

/-!
Message digests, taken of a whole message or of a stream that may still grow.
-/
namespace NetKit

inductive DigestAlgorithm where
  | sha224
  | sha256
  | sha384
  | sha512
deriving DecidableEq, Repr

instance : Coded DigestAlgorithm where
  kind := "CryptographicHashAlgorithm"
  all := [.sha224, .sha256, .sha384, .sha512]
  code
    | .sha224 => 3
    | .sha256 => 4
    | .sha384 => 5
    | .sha512 => 6
  name
    | .sha224 => "Sha224"
    | .sha256 => "Sha256"
    | .sha384 => "Sha384"
    | .sha512 => "Sha512"

namespace DigestAlgorithm

/-- The size of a digest in octets. -/
def length : DigestAlgorithm → Nat
  | .sha224 => 28
  | .sha256 => 32
  | .sha384 => 48
  | .sha512 => 64

end DigestAlgorithm

namespace Sha2

/-- A state whose words come from a list that holds eight. -/
def stateOf {W : Type} [Inhabited W] (ws : List W) : State W :=
  ⟨ws.getD 0 default, ws.getD 1 default, ws.getD 2 default, ws.getD 3 default,
    ws.getD 4 default, ws.getD 5 default, ws.getD 6 default, ws.getD 7 default⟩

def start224 : State UInt32 := stateOf ((squareRoots.drop 8).map UInt64.toUInt32)

def start256 : State UInt32 :=
  stateOf ((squareRoots.take 8).map fun w : UInt64 => (w >>> 32).toUInt32)

def start384 : State UInt64 := stateOf (squareRoots.drop 8)

def start512 : State UInt64 := stateOf (squareRoots.take 8)

end Sha2

namespace Digest
open Sha2

/-- A chaining state of either word size. -/
inductive Chain where
  | narrow (s : State UInt32)
  | wide (s : State UInt64)
deriving DecidableEq, Repr

namespace Chain

def start : DigestAlgorithm → Chain
  | .sha224 => .narrow start224
  | .sha256 => .narrow start256
  | .sha384 => .wide start384
  | .sha512 => .wide start512

/-- Compresses the whole blocks of some data; gives back what is left over. -/
def absorb : Chain → Bytes → Chain × Bytes
  | .narrow s, bs => let r := Sha2.absorb word32 s bs; (.narrow r.1, r.2)
  | .wide s, bs => let r := Sha2.absorb word64 s bs; (.wide r.1, r.2)

def padding : Chain → Nat → Bytes
  | .narrow _, total => Sha2.padding word32 total
  | .wide _, total => Sha2.padding word64 total

def output : Chain → Bytes
  | .narrow s => Sha2.output word32 s
  | .wide s => Sha2.output word64 s

end Chain

/-- The digest of a message. -/
def hash (a : DigestAlgorithm) (message : Bytes) : Bytes :=
  let c := Chain.start a
  ((c.absorb (message ++ c.padding message.length)).1.output).take a.length

end Digest

/-- A digest in progress: what has been compressed, what waits for a whole block, and how much
data there has been. -/
structure Hasher where
  algorithm : DigestAlgorithm
  chain : Digest.Chain
  pending : Bytes
  total : Nat
deriving DecidableEq, Repr

namespace Hasher

def new (a : DigestAlgorithm) : Hasher := ⟨a, .start a, [], 0⟩

def add (h : Hasher) (data : Bytes) : Hasher :=
  let r := h.chain.absorb (h.pending ++ data)
  { h with chain := r.1, pending := r.2, total := h.total + data.length }

def reset (h : Hasher) : Hasher := new h.algorithm

/-- The digest of everything added so far. -/
def result (h : Hasher) : Bytes :=
  ((h.chain.absorb (h.pending ++ h.chain.padding h.total)).1.output).take h.algorithm.length

/-- Adds some data as a stream does that may take less than it is given; a hasher takes all. -/
def write (h : Hasher) (data : Bytes) : Hasher × Nat := (h.add data, data.length)

inductive Call where
  | add (data : Bytes)
  | write (data : Bytes)
  | reset
  | result
deriving DecidableEq, Repr

/-- What a call answers: nothing, how many octets have been taken, or a digest. -/
inductive Answer where
  | done
  | taken (count : Nat)
  | digest (octets : Bytes)
deriving DecidableEq, Repr

def call (h : Hasher) : Call → Hasher × Answer
  | .add data => (h.add data, .done)
  | .write data => let r := h.write data; (r.1, .taken r.2)
  | .reset => (h.reset, .done)
  | .result => (h, .digest h.result)

end Hasher
end NetKit
