import NetKit.Text.Utf8

/-!
The SHA-2 compression functions over 32-bit and 64-bit words, and message padding.
-/
namespace NetKit.Sha2

/-- The first 64 bits of the fractional parts of the cube roots of the first eighty primes. -/
def cubeRoots : List UInt64 := [
    0x428A2F98D728AE22, 0x7137449123EF65CD, 0xB5C0FBCFEC4D3B2F, 0xE9B5DBA58189DBBC,
    0x3956C25BF348B538, 0x59F111F1B605D019, 0x923F82A4AF194F9B, 0xAB1C5ED5DA6D8118,
    0xD807AA98A3030242, 0x12835B0145706FBE, 0x243185BE4EE4B28C, 0x550C7DC3D5FFB4E2,
    0x72BE5D74F27B896F, 0x80DEB1FE3B1696B1, 0x9BDC06A725C71235, 0xC19BF174CF692694,
    0xE49B69C19EF14AD2, 0xEFBE4786384F25E3, 0x0FC19DC68B8CD5B5, 0x240CA1CC77AC9C65,
    0x2DE92C6F592B0275, 0x4A7484AA6EA6E483, 0x5CB0A9DCBD41FBD4, 0x76F988DA831153B5,
    0x983E5152EE66DFAB, 0xA831C66D2DB43210, 0xB00327C898FB213F, 0xBF597FC7BEEF0EE4,
    0xC6E00BF33DA88FC2, 0xD5A79147930AA725, 0x06CA6351E003826F, 0x142929670A0E6E70,
    0x27B70A8546D22FFC, 0x2E1B21385C26C926, 0x4D2C6DFC5AC42AED, 0x53380D139D95B3DF,
    0x650A73548BAF63DE, 0x766A0ABB3C77B2A8, 0x81C2C92E47EDAEE6, 0x92722C851482353B,
    0xA2BFE8A14CF10364, 0xA81A664BBC423001, 0xC24B8B70D0F89791, 0xC76C51A30654BE30,
    0xD192E819D6EF5218, 0xD69906245565A910, 0xF40E35855771202A, 0x106AA07032BBD1B8,
    0x19A4C116B8D2D0C8, 0x1E376C085141AB53, 0x2748774CDF8EEB99, 0x34B0BCB5E19B48A8,
    0x391C0CB3C5C95A63, 0x4ED8AA4AE3418ACB, 0x5B9CCA4F7763E373, 0x682E6FF3D6B2B8A3,
    0x748F82EE5DEFB2FC, 0x78A5636F43172F60, 0x84C87814A1F0AB72, 0x8CC702081A6439EC,
    0x90BEFFFA23631E28, 0xA4506CEBDE82BDE9, 0xBEF9A3F7B2C67915, 0xC67178F2E372532B,
    0xCA273ECEEA26619C, 0xD186B8C721C0C207, 0xEADA7DD6CDE0EB1E, 0xF57D4F7FEE6ED178,
    0x06F067AA72176FBA, 0x0A637DC5A2C898A6, 0x113F9804BEF90DAE, 0x1B710B35131C471B,
    0x28DB77F523047D84, 0x32CAAB7B40C72493, 0x3C9EBE0A15C9BEBC, 0x431D67C49C100D4C,
    0x4CC5D4BECB3E42B6, 0x597F299CFC657E2A, 0x5FCB6FAB3AD6FAEC, 0x6C44198C4A475817
]

/-- The first 64 bits of the fractional parts of the square roots of the first sixteen primes. -/
def squareRoots : List UInt64 := [
    0x6A09E667F3BCC908, 0xBB67AE8584CAA73B, 0x3C6EF372FE94F82B, 0xA54FF53A5F1D36F1,
    0x510E527FADE682D1, 0x9B05688C2B3E6C1F, 0x1F83D9ABFB41BD6B, 0x5BE0CD19137E2179,
    0xCBBB9D5DC1059ED8, 0x629A292A367CD507, 0x9159015A3070DD17, 0x152FECD8F70E5939,
    0x67332667FFC00B31, 0x8EB44A8768581511, 0xDB0C2E0D64F98FA7, 0x47B5481DBEFA4FA4
]

/-- A word size: its rounds, its rotations, and its octets in network order. -/
structure WordSize (W : Type) where
  octets : Nat
  constants : List W
  bigSigma0 : W → W
  bigSigma1 : W → W
  smallSigma0 : W → W
  smallSigma1 : W → W
  ofNat : Nat → W
  toNat : W → Nat

/-- A block is sixteen words. -/
def WordSize.block {W : Type} (k : WordSize W) : Nat := 16 * k.octets

def rotr32 (x n : UInt32) : UInt32 := (x >>> n) ||| (x <<< (32 - n))

def rotr64 (x n : UInt64) : UInt64 := (x >>> n) ||| (x <<< (64 - n))

def word32 : WordSize UInt32 where
  octets := 4
  constants := (cubeRoots.take 64).map fun w : UInt64 => (w >>> 32).toUInt32
  bigSigma0 x := rotr32 x 2 ^^^ rotr32 x 13 ^^^ rotr32 x 22
  bigSigma1 x := rotr32 x 6 ^^^ rotr32 x 11 ^^^ rotr32 x 25
  smallSigma0 x := rotr32 x 7 ^^^ rotr32 x 18 ^^^ (x >>> 3)
  smallSigma1 x := rotr32 x 17 ^^^ rotr32 x 19 ^^^ (x >>> 10)
  ofNat := UInt32.ofNat
  toNat := UInt32.toNat

def word64 : WordSize UInt64 where
  octets := 8
  constants := cubeRoots
  bigSigma0 x := rotr64 x 28 ^^^ rotr64 x 34 ^^^ rotr64 x 39
  bigSigma1 x := rotr64 x 14 ^^^ rotr64 x 18 ^^^ rotr64 x 41
  smallSigma0 x := rotr64 x 1 ^^^ rotr64 x 8 ^^^ (x >>> 7)
  smallSigma1 x := rotr64 x 19 ^^^ rotr64 x 61 ^^^ (x >>> 6)
  ofNat := UInt64.ofNat
  toNat := UInt64.toNat

/-- The chaining state. -/
structure State (W : Type) where
  a : W
  b : W
  c : W
  d : W
  e : W
  f : W
  g : W
  h : W
deriving Repr, DecidableEq

namespace State
variable {W : Type}

def toList (s : State W) : List W := [s.a, s.b, s.c, s.d, s.e, s.f, s.g, s.h]

def add [Add W] (s t : State W) : State W :=
  ⟨s.a + t.a, s.b + t.b, s.c + t.c, s.d + t.d, s.e + t.e, s.f + t.f, s.g + t.g, s.h + t.h⟩

theorem length_toList (s : State W) : s.toList.length = 8 := rfl

end State

/-- The number that the octets denote, most significant first. -/
def bigEndian (bs : Bytes) : Nat := bs.foldl (fun acc b => acc * 256 + b.toNat) 0

/-- The lowest `n` octets of a number, most significant first. -/
def bigEndianOctets (n v : Nat) : Bytes :=
  (List.range n).map fun i => UInt8.ofNat (v >>> (8 * (n - 1 - i)))

theorem length_bigEndianOctets (n v : Nat) : (bigEndianOctets n v).length = n := by
  simp [bigEndianOctets]

variable {W : Type} [Add W] [XorOp W] [AndOp W] [Complement W] [Inhabited W]

/-- The words of a block. -/
def blockWords (k : WordSize W) : Nat → Bytes → List W
  | 0, _ => []
  | n + 1, bs => k.ofNat (bigEndian (bs.take k.octets)) :: blockWords k n (bs.drop k.octets)

/-- Extends the window of the last sixteen words, newest first, by one word. -/
def extend (k : WordSize W) (ws : List W) : W :=
  k.smallSigma1 (ws.getD 1 default) + ws.getD 6 default + k.smallSigma0 (ws.getD 14 default) +
    ws.getD 15 default

/-- The message schedule, newest first, after `n` further words. -/
def schedule (k : WordSize W) : Nat → List W → List W
  | 0, ws => ws
  | n + 1, ws => schedule k n (extend k ws :: ws)

def round (k : WordSize W) (s : State W) (kw : W × W) : State W :=
  let t1 := s.h + k.bigSigma1 s.e + ((s.e &&& s.f) ^^^ (~~~s.e &&& s.g)) + kw.1 + kw.2
  let t2 := k.bigSigma0 s.a + ((s.a &&& s.b) ^^^ (s.a &&& s.c) ^^^ (s.b &&& s.c))
  ⟨t1 + t2, s.a, s.b, s.c, s.d + t1, s.e, s.f, s.g⟩

def compress (k : WordSize W) (s : State W) (blk : Bytes) : State W :=
  let ws := (schedule k (k.constants.length - 16) (blockWords k 16 blk).reverse).reverse
  s.add ((k.constants.zip ws).foldl (round k) s)

/-- Compresses whole blocks while there are any; gives back what is left over. -/
def absorb (k : WordSize W) (s : State W) (bs : Bytes) : State W × Bytes :=
  if _h : 0 < k.block ∧ k.block ≤ bs.length then
    absorb k (compress k s (bs.take k.block)) (bs.drop k.block)
  else (s, bs)
termination_by bs.length
decreasing_by simp; omega

/-- A one bit, zeros, and the length in bits, so that padded messages fill whole blocks. -/
def padding (k : WordSize W) (total : Nat) : Bytes :=
  let filled := (total + 1 + 2 * k.octets) % k.block
  0x80 :: List.replicate ((k.block - filled) % k.block) 0 ++
    bigEndianOctets (2 * k.octets) (8 * total)

def output (k : WordSize W) (s : State W) : Bytes :=
  s.toList.flatMap fun w => bigEndianOctets k.octets (k.toNat w)

end NetKit.Sha2
