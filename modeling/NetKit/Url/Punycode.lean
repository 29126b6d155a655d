/-!
Punycode: a label with characters outside ASCII as an ASCII label. Each further character is
written as the distance that a decoder has to walk to it.
-/
namespace NetKit.Punycode

/-- Letters stand for 0 to 25, decimal digits for 26 to 35. -/
def digitChar (d : Nat) : Char :=
  if d < 26 then Char.ofNat (0x61 + d) else Char.ofNat (0x30 + d - 26)

def digitValue? (c : Char) : Option Nat :=
  if 'a' ≤ c ∧ c ≤ 'z' then some (c.toNat - 0x61)
  else if 'A' ≤ c ∧ c ≤ 'Z' then some (c.toNat - 0x41)
  else if '0' ≤ c ∧ c ≤ '9' then some (c.toNat - 0x30 + 26)
  else none

/-- The least value of a digit that is not the last, by its position. -/
def threshold (k bias : Nat) : Nat := min 26 (max 1 (k - bias))

theorem one_le_threshold (k bias : Nat) : 1 ≤ threshold k bias := by unfold threshold; omega

theorem threshold_le (k bias : Nat) : threshold k bias ≤ 26 := by unfold threshold; omega

def shrink (delta k : Nat) : Nat × Nat :=
  if 455 < delta then shrink (delta / 35) (k + 36) else (delta, k)
termination_by delta

/-- The bias that suits distances like the last one. -/
def adapt (delta points : Nat) (isFirst : Bool) : Nat :=
  let d := if isFirst then delta / 700 else delta / 2
  let (d, k) := shrink (d + d / points) 0
  k + 36 * d / (d + 38)

/-- A distance in digits, the least significant first. -/
def writeDistance (bias k q : Nat) : List Char :=
  let t := threshold k bias
  if q < t then [digitChar q]
  else digitChar (t + (q - t) % (36 - t)) :: writeDistance bias (k + 36) ((q - t) / (36 - t))
termination_by q
decreasing_by
  have := one_le_threshold k bias
  have := threshold_le k bias
  exact Nat.lt_of_le_of_lt (Nat.div_le_self _ _) (by omega)

structure Walk where
  out : List Char
  delta : Nat
  bias : Nat
  handled : Nat

/-- Passes one character of the label while code point `m` is being written. -/
def pass (basic m : Nat) (w : Walk) (c : Char) : Walk :=
  if c.toNat < m then { w with delta := w.delta + 1 }
  else if c.toNat = m then
    { out := w.out ++ writeDistance w.bias 36 w.delta, delta := 0,
      bias := adapt w.delta (w.handled + 1) (w.handled == basic), handled := w.handled + 1 }
  else w

def walk (label : List Char) (basic : Nat) : List Nat → Nat → Walk → Walk
  | [], _, w => w
  | m :: rest, n, w =>
    let w := { w with delta := w.delta + (m - n) * (w.handled + 1) }
    let w := label.foldl (pass basic m) w
    walk label basic rest (m + 1) { w with delta := w.delta + 1 }

def isAscii (c : Char) : Bool := c.toNat < 0x80

/-- The ASCII form of a label, without the mark that says it is one. -/
def encode (label : List Char) : List Char :=
  let basic := label.filter isAscii
  let points := ((label.filter (!isAscii ·)).map Char.toNat).mergeSort.eraseDups
  basic ++ (if basic.isEmpty then [] else ['-']) ++
    (walk label basic.length points 128 ⟨[], 0, 72, basic.length⟩).out

/-- Reads one distance: the position it leads to and what follows. -/
def readDistance (bias : Nat) : List Char → Nat → Nat → Nat → Option (Nat × List Char)
  | [], _, _, _ => none
  | c :: rest, k, weight, i =>
    match digitValue? c with
    | none => none
    | some d =>
      let t := threshold k bias
      let i := i + d * weight
      if d < t then some (i, rest) else readDistance bias rest (k + 36) (weight * (36 - t)) i

theorem readDistance_length {bias : Nat} {cs rest : List Char} {k weight i j : Nat}
    (h : readDistance bias cs k weight i = some (j, rest)) : rest.length < cs.length := by
  induction cs generalizing k weight i with
  | nil => simp [readDistance] at h
  | cons c cs ih =>
    simp only [readDistance] at h
    split at h
    · simp at h
    · split at h
      · simp only [Option.some.injEq, Prod.mk.injEq] at h; simp [← h.2]
      · have := ih h; simp; omega

/-- Inserts the further characters one after another. -/
def unwalk (out : List Char) (n i bias : Nat) (cs : List Char) : Option (List Char) :=
  match cs with
  | [] => some out
  | c :: rest =>
    match _h : readDistance bias (c :: rest) 36 1 i with
    | none => none
    | some (j, more) =>
      let points := out.length + 1
      let n := n + j / points
      if 0x10FFFF < n ∨ (0xD800 ≤ n ∧ n < 0xE000) then none
      else
        let at_ := j % points
        unwalk (out.take at_ ++ Char.ofNat n :: out.drop at_) n (at_ + 1)
          (adapt (j - i) points (i == 0)) more
termination_by cs.length
decreasing_by exact readDistance_length _h

/-- The label that an ASCII form stands for. -/
def decode? (cs : List Char) : Option (List Char) :=
  let tail := (cs.reverse.takeWhile (· != '-')).reverse
  let basic := (cs.take (cs.length - tail.length)).dropLast
  unwalk basic 128 0 72 tail

end NetKit.Punycode
