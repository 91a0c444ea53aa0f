import VoucherGateway.Text.Radix

/-!
# Decimal — unsigned numbers in text

Reading of 64-bit numbers written with decimal digits, a plus sign allowed in front.
-/

namespace VoucherGateway
namespace Text

/-- The number written by one or more decimal digits. -/
def readNat (digits : List Char) : Option Nat := readBase 10 digits

/-- A 64-bit number: digits, possibly behind a plus sign. -/
def readWord (text : String) : Option UInt64 := do
  let digits := match text.toList with
    | '+' :: rest => rest
    | cs => cs
  let n ← readNat digits
  if n ≤ 0xFFFFFFFFFFFFFFFF then some (UInt64.ofNat n) else none

end Text
end VoucherGateway
