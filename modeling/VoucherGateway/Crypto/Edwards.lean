import VoucherGateway.Bytes

/-!
# Edwards — the curve edwards25519

Points of the curve −x² + y² = 1 + d·x²·y² over the integers modulo 2²⁵⁵ − 19, in extended coordinates
(x = X/Z, y = Y/Z, x·y = T/Z), which need no division.  A point is encoded by its y and the parity of its x.
-/

namespace VoucherGateway
namespace Edwards

/-- The prime of the field. -/
def prime : Nat := (1 <<< 255) - 19

/-- The order of the base point. -/
def order : Nat := (1 <<< 252) + 27742317777372353535851937790883648493

/-! ## The field -/

/-- A power modulo `m`, by repeated squaring. -/
def powMod (m base : Nat) (exponent : Nat) : Nat :=
  if exponent = 0 then 1 % m
  else
    let rest := powMod m (base * base % m) (exponent / 2)
    if exponent % 2 = 1 then rest * base % m else rest
termination_by exponent

/-- Product in the field. -/
def mul (a b : Nat) : Nat := a * b % prime

/-- Sum in the field. -/
def add (a b : Nat) : Nat := (a + b) % prime

/-- Difference in the field. -/
def sub (a b : Nat) : Nat := (a + (prime - b % prime)) % prime

/-- Inverse in the field. -/
def inverse (a : Nat) : Nat := powMod prime a (prime - 2)

/-- The constant of the curve, −121665/121666. -/
def curveD : Nat := 37095705934669439343138083508754565189542113879843219016388785533085940283555

/-- A square root of −1. -/
def rootOfMinusOne : Nat := 19681161376707505956807079304988542015446066515923890162744021073123829784752

/-- A square root of `u / v`, if there is one. -/
def sqrtRatio (u v : Nat) : Option Nat :=
  let v3 := mul (mul v v) v
  let v7 := mul (mul v3 v3) v
  let root := mul (mul u v3) (powMod prime (mul u v7) ((prime - 5) / 8))
  -- the square of the candidate is the ratio or its opposite, if there is a root at all
  let check := mul v (mul root root)
  if check = u % prime then some root
  else if check = sub 0 u then some (mul root rootOfMinusOne)
  else none

/-! ## Points -/

/-- A point in extended coordinates. -/
structure Point where
  x : Nat
  y : Nat
  z : Nat
  t : Nat

namespace Point

/-- The neutral point. -/
def zero : Point := ⟨0, 1, 1, 0⟩

/-- The point with given coordinates. -/
def ofAffine (x y : Nat) : Point := ⟨x, y, 1, mul x y⟩

/-- The base point. -/
def base : Point :=
  ofAffine 15112221349535400772501151409588531511454012693041857206046113283949847762202
    46316835694926478169428394003475163141307993866256225615783033603165251855960

/-- Sum of two points. -/
def plus (p q : Point) : Point :=
  -- these formulas hold for all pairs of points, equal and neutral ones included
  let a := mul (sub p.y p.x) (sub q.y q.x)
  let b := mul (add p.y p.x) (add q.y q.x)
  let c := mul (mul p.t (2 * curveD)) q.t
  let d := mul (2 * p.z) q.z
  let e := sub b a
  let f := sub d c
  let g := add d c
  let h := add b a
  ⟨mul e f, mul g h, mul f g, mul e h⟩

/-- The opposite point. -/
def neg (p : Point) : Point := ⟨sub 0 p.x, p.y, p.z, sub 0 p.t⟩

/-- A multiple of a point, by repeated doubling. -/
def times (n : Nat) (p : Point) : Point :=
  if n = 0 then zero
  else
    let half := times (n / 2) p
    let double := plus half half
    if n % 2 = 1 then plus double p else double
termination_by n

/-- Whether eight times the point is neutral. -/
def isSmallOrder (p : Point) : Bool :=
  let q := times 8 p
  decide (q.x % prime = 0) && decide (q.y % prime = q.z % prime)

/-- The bit of an encoded point that tells the parity of its x. -/
def parityBit : Nat := 1 <<< 255

/-- The point in 32 bytes. -/
def encode (p : Point) : Bytes :=
  let scale := inverse p.z
  let x := mul p.x scale
  let y := mul p.y scale
  Bytes.littleEndian 32 (y + parityBit * (x % 2))

/-- The point encoded by 32 bytes.  The encoded y may be larger than the field, and an x of zero has either
parity. -/
def decode? (bytes : Bytes) : Option Point :=
  let n := Bytes.ofLittleEndian bytes
  let y := n % parityBit % prime
  let parity := n / parityBit % 2
  let yy := mul y y
  (sqrtRatio (sub yy 1) (add (mul curveD yy) 1)).map fun x =>
    ofAffine (if x % 2 = parity then x else sub 0 x) y

end Point
end Edwards
end VoucherGateway
