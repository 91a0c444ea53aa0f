/-!
# Quoted — one character between quotes

How a diagnostic shows the character it stumbled over: printable characters stand for themselves, the
usual control characters have short escapes, and the others are written by code point.  Only the first
256 code points are covered, because diagnostics show single bytes.
-/

namespace VoucherGateway
namespace Text

/-- The digits of a number in base sixteen, lower case. -/
def hexDigits (n : Nat) : String := String.ofList (Nat.toDigits 16 n)

/-- Whether a code point below 256 stands for itself. -/
def isPrintable (code : Nat) : Bool :=
  (0x20 ≤ code && code ≤ 0x7E) || (0xA1 ≤ code && code ≠ 0xAD)

/-- A byte, read as the code point of the same number, between single quotes. -/
def quotedByte (byte : UInt8) : String :=
  let body :=
    if byte = 0 then "\\0"
    else if byte = 9 then "\\t"
    else if byte = 10 then "\\n"
    else if byte = 13 then "\\r"
    else if byte = 39 then "\\'"
    else if byte = 92 then "\\\\"
    else if isPrintable byte.toNat then String.singleton (Char.ofNat byte.toNat)
    else "\\u\x7b" ++ hexDigits byte.toNat ++ "\x7d"
  "'" ++ body ++ "'"

end Text
end VoucherGateway
