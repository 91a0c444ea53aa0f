import VoucherGateway.Text.Hex

/-!
# MessagePack values — a binary form of plain data

The values that a MessagePack text can hold, and how the ones this library sends are written: numbers and
array headers in their shortest form, most significant byte first.  Floating-point numbers and extensions
are recognised, but what they hold is not kept.
-/

namespace VoucherGateway
namespace MessagePack

/-- A decoded value.  Numbers remember whether they were written as signed ones. -/
inductive Value
  | nil
  | bool (b : Bool)
  | unsigned (n : Nat)
  | signed (i : Int)
  | float
  | text (bytes : Bytes)
  | binary (bytes : Bytes)
  | array (items : List Value)
  | map (pairs : List (Value × Value))
  | extension

/-- A number of at most 64 bits, in its shortest form. -/
def encodeNat (n : Nat) : Bytes :=
  if n < 0x80 then [UInt8.ofNat n]
  else if n < 0x100 then 0xCC :: Bytes.bigEndian 1 n
  else if n < 0x10000 then 0xCD :: Bytes.bigEndian 2 n
  else if n < 0x100000000 then 0xCE :: Bytes.bigEndian 4 n
  else 0xCF :: Bytes.bigEndian 8 n

/-- The header of an array of `n` items, in its shortest form. -/
def encodeArrayHeader (n : Nat) : Bytes :=
  if n < 0x10 then [UInt8.ofNat (0x90 + n)]
  else if n < 0x10000 then 0xDC :: Bytes.bigEndian 2 n
  else 0xDD :: Bytes.bigEndian 4 n

/-- A string of bytes, as an array of numbers. -/
def encodeBytes (bytes : Bytes) : Bytes :=
  encodeArrayHeader bytes.length ++ bytes.flatMap fun b => encodeNat b.toNat

end MessagePack
end VoucherGateway
