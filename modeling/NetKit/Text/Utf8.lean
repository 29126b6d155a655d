/-!
UTF-8 over lists of octets: encoding, strict decoding, and lossy decoding in which every maximal
ill-formed run reads as one replacement character.
-/
namespace NetKit

/-- Octet strings. -/
abbrev Bytes := List UInt8

namespace Utf8

/-- What a leading octet announces: how many continuation octets follow, the range of the first of
them, and the leading octet's own bits. -/
structure Lead where
  owed : Nat
  low : UInt8
  high : UInt8
  bits : Nat
deriving DecidableEq, Repr

/-- The ranges keep out overlong forms, surrogates and values above U+10FFFF. -/
def lead? (b : UInt8) : Option Lead :=
  if b < 0x80 then some ⟨0, 0x80, 0xBF, b.toNat⟩
  else if b < 0xC2 then none
  else if b < 0xE0 then some ⟨1, 0x80, 0xBF, b.toNat - 0xC0⟩
  else if b = 0xE0 then some ⟨2, 0xA0, 0xBF, 0⟩
  else if b = 0xED then some ⟨2, 0x80, 0x9F, 0xD⟩
  else if b < 0xF0 then some ⟨2, 0x80, 0xBF, b.toNat - 0xE0⟩
  else if b = 0xF0 then some ⟨3, 0x90, 0xBF, 0⟩
  else if b < 0xF4 then some ⟨3, 0x80, 0xBF, b.toNat - 0xF0⟩
  else if b = 0xF4 then some ⟨3, 0x80, 0x8F, 4⟩
  else none

/-- Reads the continuation octets owed; stops in front of the first octet that cannot continue. -/
def continuation : Nat → UInt8 → UInt8 → Nat → Bytes → Option Nat × Bytes
  | 0, _, _, acc, rest => (some acc, rest)
  | _ + 1, _, _, _, [] => (none, [])
  | n + 1, low, high, acc, b :: rest =>
    if low ≤ b ∧ b ≤ high then continuation n 0x80 0xBF (acc * 64 + (b.toNat - 0x80)) rest
    else (none, b :: rest)

theorem continuation_length_le (n : Nat) (low high : UInt8) (acc : Nat) (bs : Bytes) :
    (continuation n low high acc bs).2.length ≤ bs.length := by
  induction n generalizing low high acc bs with
  | zero => simp [continuation]
  | succ n ih =>
    cases bs with
    | nil => simp [continuation]
    | cons b rest =>
      unfold continuation
      split
      · exact Nat.le_trans (ih ..) (by simp)
      · simp

/-- The first character of a non-empty octet string, or nothing for an ill-formed run, with the
octets after it. -/
def next (b : UInt8) (rest : Bytes) : Option Char × Bytes :=
  match lead? b with
  | none => (none, rest)
  | some l =>
    let r := continuation l.owed l.low l.high l.bits rest
    (r.1.map Char.ofNat, r.2)

theorem next_length_le (b : UInt8) (rest : Bytes) : (next b rest).2.length ≤ rest.length := by
  unfold next
  split
  · simp
  · exact continuation_length_le ..

/-- The characters in order, with nothing standing for an ill-formed run. -/
def scan : Bytes → List (Option Char)
  | [] => []
  | b :: rest =>
    have := next_length_le b rest
    (next b rest).1 :: scan (next b rest).2
termination_by bs => bs.length
decreasing_by simp; omega

/-- U+FFFD, which stands for octets that are no character. -/
def replacement : Char := '\uFFFD'

def decodeLossy (bs : Bytes) : String :=
  String.ofList ((scan bs).map (·.getD replacement))

def decode? (bs : Bytes) : Option String :=
  ((scan bs).mapM id).map String.ofList

def encode (s : String) : Bytes :=
  s.toList.flatMap String.utf8EncodeChar

/-- The number of octets of the encoded text. -/
def size (cs : List Char) : Nat :=
  (cs.map Char.utf8Size).foldr (· + ·) 0

end Utf8

end NetKit
