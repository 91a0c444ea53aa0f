import VoucherGateway.Bytes
import VoucherGateway.Text.Quoted

/-!
# Hex — bytes as hexadecimal text

Bytes are written with two lower-case digits each and read in either case.  Reading works on the bytes of
the text: an odd number of them is refused before anything else, then the first byte that is no digit.
Main statement: `decode_encode`.
-/

namespace VoucherGateway

namespace Hex

/-- Why a text is not hexadecimal. -/
inductive Fault
  | oddLength
  | badDigit (byte : UInt8) (position : Nat)
  deriving DecidableEq, Repr

/-- The wording of a fault. -/
def Fault.message : Fault → String
  | .oddLength => "Odd number of digits"
  | .badDigit byte position =>
    "Invalid character " ++ Text.quotedByte byte ++ " at position " ++ toString position

/-- The bytes of a text. -/
def textBytes (text : List Char) : Bytes := text.flatMap String.utf8EncodeChar

/-- The digit of a number below sixteen. -/
def digitChar (n : Nat) : Char :=
  if n < 10 then Char.ofNat (48 + n) else Char.ofNat (87 + n)

/-- The value of the byte of a digit, in either case. -/
def digitValue? (byte : UInt8) : Option Nat :=
  if 48 ≤ byte ∧ byte ≤ 57 then some (byte.toNat - 48)
  else if 97 ≤ byte ∧ byte ≤ 102 then some (byte.toNat - 87)
  else if 65 ≤ byte ∧ byte ≤ 70 then some (byte.toNat - 55)
  else none

/-- The two digits of a byte. -/
def pair (byte : UInt8) : List Char :=
  [digitChar (byte.toNat / 16), digitChar (byte.toNat % 16)]

/-- The digits of a string of bytes. -/
def digits (bytes : Bytes) : List Char := bytes.flatMap pair

/-- A string of bytes in lower-case digits. -/
def encode (bytes : Bytes) : String := String.ofList (digits bytes)

/-- Reads pairs of digits; `position` counts the bytes already read. -/
def readPairs (position : Nat) : Bytes → Except Fault Bytes
  | [] => .ok []
  | [_] => .error .oddLength
  | high :: low :: rest =>
    match digitValue? high with
    | none => .error (.badDigit high position)
    | some h =>
      match digitValue? low with
      -- positions count bytes, not characters
      | none => .error (.badDigit low (position + 1))
      | some l =>
        match readPairs (position + 2) rest with
        | .ok bytes => .ok (UInt8.ofNat (16 * h + l) :: bytes)
        | .error fault => .error fault

/-- The bytes written by a text of digits. -/
def decode (text : List Char) : Except Fault Bytes :=
  let bytes := textBytes text
  if bytes.length % 2 = 1 then .error .oddLength else readPairs 0 bytes

/-! ## Reading what was written -/

theorem textBytes_append (a b : List Char) : textBytes (a ++ b) = textBytes a ++ textBytes b := by
  simp [textBytes]

theorem textBytes_pair : ∀ byte : UInt8, ∃ high low,
    textBytes (pair byte) = [high, low] ∧ digitValue? high = some (byte.toNat / 16) ∧
      digitValue? low = some (byte.toNat % 16) := by
  have digit : ∀ n : Fin 16,
      String.utf8EncodeChar (digitChar n) = [UInt8.ofNat (digitChar n).toNat] ∧
        digitValue? (UInt8.ofNat (digitChar n).toNat) = some n.val := by
    decide
  intro byte
  obtain ⟨h1, h2⟩ := digit ⟨byte.toNat / 16, by have := byte.toNat_lt; omega⟩
  obtain ⟨l1, l2⟩ := digit ⟨byte.toNat % 16, by omega⟩
  exact ⟨_, _, by simp only [textBytes, pair, List.flatMap_cons, List.flatMap_nil, h1, l1]; rfl, h2, l2⟩

theorem textBytes_digits_length (bytes : Bytes) : (textBytes (digits bytes)).length = 2 * bytes.length := by
  induction bytes with
  | nil => rfl
  | cons b rest ih =>
    obtain ⟨h, l, e, -, -⟩ := textBytes_pair b
    have : digits (b :: rest) = pair b ++ digits rest := rfl
    rw [this, textBytes_append, e, List.length_append, ih]
    simp; omega

theorem readPairs_digits (bytes : Bytes) (position : Nat) :
    readPairs position (textBytes (digits bytes)) = .ok bytes := by
  induction bytes generalizing position with
  | nil => rfl
  | cons b rest ih =>
    obtain ⟨h, l, e, eh, el⟩ := textBytes_pair b
    have : digits (b :: rest) = pair b ++ digits rest := rfl
    rw [this, textBytes_append, e]
    have hb : 16 * (b.toNat / 16) + b.toNat % 16 = b.toNat := by omega
    simp [readPairs, eh, el, ih, hb]

/-- Written bytes read back. -/
theorem decode_digits (bytes : Bytes) : decode (digits bytes) = .ok bytes := by
  simp [decode, textBytes_digits_length, readPairs_digits]

theorem decode_encode (bytes : Bytes) : decode (encode bytes).toList = .ok bytes := by
  simp [encode, decode_digits]

end Hex
end VoucherGateway
