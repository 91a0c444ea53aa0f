import VoucherGateway.Crypto.Edwards
import VoucherGateway.Crypto.Sha2

/-!
# Ed25519 — signatures on the curve edwards25519

Deterministic signatures of 64 bytes: an encoded point and a number below the order of the base point.
Verification is strict: the number must be reduced, neither key nor point may be of small order, and the
point has to be encoded exactly as it is recomputed.
-/

namespace VoucherGateway
namespace Ed25519

open Edwards

/-- The highest bit of every secret number. -/
def scalarTop : Nat := 1 <<< 254

/-- The two halves of a hashed secret: a number with its low and high bits set in a fixed way, and bytes that
make signatures unpredictable. -/
def expand (secret : Bytes) : Nat × Bytes :=
  let h := Sha2.sha512.hash secret
  let n := Bytes.ofLittleEndian (h.take 32)
  -- the lowest three bits are cleared and the highest one is set
  (scalarTop + n % scalarTop / 8 * 8, h.drop 32)

/-- The public key of a secret of 32 bytes. -/
def publicKey (secret : Bytes) : Bytes := (Point.times (expand secret).1 Point.base).encode

/-- A hash as a number below the order. -/
def hashToScalar (message : Bytes) : Nat :=
  Bytes.ofLittleEndian (Sha2.sha512.hash message) % order

/-- The signature of a message. -/
def sign (secret message : Bytes) : Bytes :=
  let (scalar, salt) := expand secret
  let key := publicKey secret
  let r := hashToScalar (salt ++ message)
  let point := (Point.times r Point.base).encode
  let k := hashToScalar (point ++ key ++ message)
  point ++ Bytes.littleEndian 32 ((r + k * scalar) % order)

/-- Whether a signature of a message is one of a key. -/
def verify (key message signature : Bytes) : Bool :=
  let point := signature.take 32
  let s := Bytes.ofLittleEndian (signature.drop 32)
  -- a larger number would give every signature a second form
  if signature.length ≠ 64 ∨ order ≤ s then false
  else
    match Point.decode? key, Point.decode? point with
    | some a, some r =>
      let k := hashToScalar (point ++ key ++ message)
      let expected := (Point.times s Point.base).plus (Point.times k a.neg)
      !a.isSmallOrder && !r.isSmallOrder && decide (expected.encode = point)
    | _, _ => false

end Ed25519
end VoucherGateway
