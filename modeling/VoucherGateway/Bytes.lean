/-!
# Bytes — strings of bytes and the numbers in them

Numbers are laid out in a fixed number of bytes, from either end.  Main statements: a number that fits reads
back (`ofBigEndian_bigEndian`, `ofLittleEndian_littleEndian`).
-/

namespace VoucherGateway

/-- A string of bytes. -/
abbrev Bytes := List UInt8

namespace Bytes

/-- How many numbers fit in `width` bytes. -/
def capacity : (width : Nat) → Nat
  | 0 => 1
  | width + 1 => 256 * capacity width

/-- A number in `width` bytes, least significant first. -/
def littleEndian : (width n : Nat) → Bytes
  | 0, _ => []
  | width + 1, n => UInt8.ofNat n :: littleEndian width (n / 256)

/-- The number in a string of bytes, least significant first. -/
def ofLittleEndian : Bytes → Nat
  | [] => 0
  | b :: rest => b.toNat + 256 * ofLittleEndian rest

/-- A number in `width` bytes, most significant first. -/
def bigEndian (width n : Nat) : Bytes := (littleEndian width n).reverse

/-- The number in a string of bytes, most significant first. -/
def ofBigEndian (bytes : Bytes) : Nat := ofLittleEndian bytes.reverse

@[simp] theorem length_littleEndian (width n : Nat) : (littleEndian width n).length = width := by
  induction width generalizing n with
  | zero => rfl
  | succ width ih => simp [littleEndian, ih]

@[simp] theorem length_bigEndian (width n : Nat) : (bigEndian width n).length = width := by
  simp [bigEndian]

theorem ofLittleEndian_littleEndian {width n : Nat} (h : n < capacity width) :
    ofLittleEndian (littleEndian width n) = n := by
  induction width generalizing n with
  | zero => simp_all [littleEndian, ofLittleEndian, capacity]
  | succ width ih =>
    have small : n / 256 < capacity width := Nat.div_lt_of_lt_mul h
    simp only [littleEndian, ofLittleEndian, ih small, UInt8.toNat_ofNat']
    omega

theorem ofBigEndian_bigEndian {width n : Nat} (h : n < capacity width) :
    ofBigEndian (bigEndian width n) = n := by
  simp [ofBigEndian, bigEndian, ofLittleEndian_littleEndian h]

end Bytes
end VoucherGateway
