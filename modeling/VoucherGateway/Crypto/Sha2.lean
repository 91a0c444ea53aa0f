import VoucherGateway.Bytes

/-!
# Sha2 — the hash functions SHA-256 and SHA-512

Both functions follow one scheme on words of 32 and of 64 bits.  A message is padded to whole blocks of
sixteen words; each block is stretched by a schedule and stirred into eight registers, one round for each
constant.  The constants of the shorter words are the upper halves of those of the longer ones.
-/

namespace VoucherGateway
namespace Sha2

/-- Three amounts to turn or shift a word by. -/
structure Turns where
  first : Nat
  second : Nat
  third : Nat

/-- A member of the family. -/
structure Variant where
  /-- Bits in a word. -/
  width : Nat
  /-- Rounds for each block. -/
  rounds : Nat
  /-- Turns of the two register sums. -/
  sumA : Turns
  sumE : Turns
  /-- Turns of the two schedule mixes; the third is a shift. -/
  mixOld : Turns
  mixNew : Turns

/-- The hash function with 32 bytes of output. -/
def sha256 : Variant where
  width := 32
  rounds := 64
  sumA := ⟨2, 13, 22⟩
  sumE := ⟨6, 11, 25⟩
  mixOld := ⟨7, 18, 3⟩
  mixNew := ⟨17, 19, 10⟩

/-- The hash function with 64 bytes of output. -/
def sha512 : Variant where
  width := 64
  rounds := 80
  sumA := ⟨28, 34, 39⟩
  sumE := ⟨14, 18, 41⟩
  mixOld := ⟨1, 8, 7⟩
  mixNew := ⟨19, 61, 6⟩

/-- The first 64 bits of the fractional parts of the cube roots of the first eighty primes. -/
def cubeRoots : List Nat := [
    0x428A2F98D728AE22, 0x7137449123EF65CD, 0xB5C0FBCFEC4D3B2F, 0xE9B5DBA58189DBBC,
    0x3956C25BF348B538, 0x59F111F1B605D019, 0x923F82A4AF194F9B, 0xAB1C5ED5DA6D8118,
    0xD807AA98A3030242, 0x12835B0145706FBE, 0x243185BE4EE4B28C, 0x550C7DC3D5FFB4E2,
    0x72BE5D74F27B896F, 0x80DEB1FE3B1696B1, 0x9BDC06A725C71235, 0xC19BF174CF692694,
    0xE49B69C19EF14AD2, 0xEFBE4786384F25E3, 0x0FC19DC68B8CD5B5, 0x240CA1CC77AC9C65,
    0x2DE92C6F592B0275, 0x4A7484AA6EA6E483, 0x5CB0A9DCBD41FBD4, 0x76F988DA831153B5,
    0x983E5152EE66DFAB, 0xA831C66D2DB43210, 0xB00327C898FB213F, 0xBF597FC7BEEF0EE4,
    0xC6E00BF33DA88FC2, 0xD5A79147930AA725, 0x06CA6351E003826F, 0x142929670A0E6E70,
    0x27B70A8546D22FFC, 0x2E1B21385C26C926, 0x4D2C6DFC5AC42AED, 0x53380D139D95B3DF,
    0x650A73548BAF63DE, 0x766A0ABB3C77B2A8, 0x81C2C92E47EDAEE6, 0x92722C851482353B,
    0xA2BFE8A14CF10364, 0xA81A664BBC423001, 0xC24B8B70D0F89791, 0xC76C51A30654BE30,
    0xD192E819D6EF5218, 0xD69906245565A910, 0xF40E35855771202A, 0x106AA07032BBD1B8,
    0x19A4C116B8D2D0C8, 0x1E376C085141AB53, 0x2748774CDF8EEB99, 0x34B0BCB5E19B48A8,
    0x391C0CB3C5C95A63, 0x4ED8AA4AE3418ACB, 0x5B9CCA4F7763E373, 0x682E6FF3D6B2B8A3,
    0x748F82EE5DEFB2FC, 0x78A5636F43172F60, 0x84C87814A1F0AB72, 0x8CC702081A6439EC,
    0x90BEFFFA23631E28, 0xA4506CEBDE82BDE9, 0xBEF9A3F7B2C67915, 0xC67178F2E372532B,
    0xCA273ECEEA26619C, 0xD186B8C721C0C207, 0xEADA7DD6CDE0EB1E, 0xF57D4F7FEE6ED178,
    0x06F067AA72176FBA, 0x0A637DC5A2C898A6, 0x113F9804BEF90DAE, 0x1B710B35131C471B,
    0x28DB77F523047D84, 0x32CAAB7B40C72493, 0x3C9EBE0A15C9BEBC, 0x431D67C49C100D4C,
    0x4CC5D4BECB3E42B6, 0x597F299CFC657E2A, 0x5FCB6FAB3AD6FAEC, 0x6C44198C4A475817]

/-- The first 64 bits of the fractional parts of the square roots of the first eight primes. -/
def squareRoots : List Nat := [
    0x6A09E667F3BCC908, 0xBB67AE8584CAA73B, 0x3C6EF372FE94F82B, 0xA54FF53A5F1D36F1,
    0x510E527FADE682D1, 0x9B05688C2B3E6C1F, 0x1F83D9ABFB41BD6B, 0x5BE0CD19137E2179]

/-- The eight registers. -/
structure Registers (w : Nat) where
  a : BitVec w
  b : BitVec w
  c : BitVec w
  d : BitVec w
  e : BitVec w
  f : BitVec w
  g : BitVec w
  h : BitVec w

namespace Registers

variable {w : Nat}

/-- Registers from the first eight words of a list. -/
def ofList (words : List (BitVec w)) : Registers w :=
  ⟨words.getD 0 0, words.getD 1 0, words.getD 2 0, words.getD 3 0,
    words.getD 4 0, words.getD 5 0, words.getD 6 0, words.getD 7 0⟩

/-- The registers in their order. -/
def toList (r : Registers w) : List (BitVec w) := [r.a, r.b, r.c, r.d, r.e, r.f, r.g, r.h]

/-- Sum of two sets of registers. -/
def add (r s : Registers w) : Registers w :=
  ⟨r.a + s.a, r.b + s.b, r.c + s.c, r.d + s.d, r.e + s.e, r.f + s.f, r.g + s.g, r.h + s.h⟩

end Registers

namespace Variant

variable (v : Variant)

/-- Bytes in a word. -/
def wordBytes : Nat := v.width / 8

/-- Bytes in a block. -/
def blockBytes : Nat := 16 * v.wordBytes

/-- The first bits of a constant of 64 bits. -/
def leading (n : Nat) : BitVec v.width := BitVec.ofNat v.width (n >>> (64 - v.width))

/-- The three turns of a register, combined. -/
def turn (t : Turns) (x : BitVec v.width) : BitVec v.width :=
  x.rotateRight t.first ^^^ x.rotateRight t.second ^^^ x.rotateRight t.third

/-- Two turns and a shift of a scheduled word, combined. -/
def mix (t : Turns) (x : BitVec v.width) : BitVec v.width :=
  x.rotateRight t.first ^^^ x.rotateRight t.second ^^^ (x >>> t.third)

/-- One round with a constant and a scheduled word. -/
def stir (r : Registers v.width) (constant word : BitVec v.width) : Registers v.width :=
  -- `choice` takes each bit of `f` or `g` as `e` tells; `majority` is what two of three say
  let choice := (r.e &&& r.f) ^^^ (~~~r.e &&& r.g)
  let majority := (r.a &&& r.b) ^^^ (r.a &&& r.c) ^^^ (r.b &&& r.c)
  let first := r.h + v.turn v.sumE r.e + choice + constant + word
  let second := v.turn v.sumA r.a + majority
  ⟨first + second, r.a, r.b, r.c, r.d + first, r.e, r.f, r.g⟩

/-- The sixteen words of the schedule after those given: the oldest leaves, a new one comes. -/
def slide (window : List (BitVec v.width)) : List (BitVec v.width) :=
  window.drop 1 ++
    [v.mix v.mixNew (window.getD 14 0) + window.getD 9 0 + v.mix v.mixOld (window.getD 1 0) +
      window.getD 0 0]

/-- The rounds for a list of constants. -/
def stirAll : List Nat → Registers v.width → List (BitVec v.width) → Registers v.width
  | [], r, _ => r
  | constant :: rest, r, window =>
    stirAll rest (v.stir r (v.leading constant) (window.getD 0 0)) (v.slide window)

/-- Stirs a block of sixteen words into the registers. -/
def compress (r : Registers v.width) (block : List (BitVec v.width)) : Registers v.width :=
  r.add (v.stirAll (cubeRoots.take v.rounds) r block)

/-- The first words of a string of bytes. -/
def wordsOf : (count : Nat) → Bytes → List (BitVec v.width)
  | 0, _ => []
  | count + 1, bytes =>
    BitVec.ofNat v.width (Bytes.ofBigEndian (bytes.take v.wordBytes)) ::
      wordsOf count (bytes.drop v.wordBytes)

/-- Stirs the first blocks of a string of bytes into the registers. -/
def absorbBlocks : (count : Nat) → Bytes → Registers v.width → Registers v.width
  | 0, _, r => r
  | count + 1, bytes, r =>
    absorbBlocks count (bytes.drop v.blockBytes) (v.compress r (v.wordsOf 16 bytes))

/-- A message filled up to whole blocks: a one bit, zeros, and the length in bits. -/
def pad (message : Bytes) : Bytes :=
  let lengthBytes := 2 * v.wordBytes
  -- the one bit starts a byte of its own
  let used := message.length + 1 + lengthBytes
  let zeros := (v.blockBytes - used % v.blockBytes) % v.blockBytes
  message ++ 0x80 :: List.replicate zeros 0 ++ Bytes.bigEndian lengthBytes (8 * message.length)

/-- The hash of a message. -/
def hash (message : Bytes) : Bytes :=
  let padded := v.pad message
  let start := Registers.ofList (squareRoots.map v.leading)
  let final := v.absorbBlocks (padded.length / v.blockBytes) padded start
  final.toList.flatMap fun word => Bytes.bigEndian v.wordBytes word.toNat

end Variant
end Sha2
end VoucherGateway
