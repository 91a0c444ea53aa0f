/-!
# Radix — numbers in bases up to sixteen

Digits beyond nine are the letters `a` to `f` in either case.
-/

namespace VoucherGateway
namespace Text

/-- The value of a digit below sixteen. -/
def hexDigit? (c : Char) : Option Nat :=
  if '0' ≤ c ∧ c ≤ '9' then some (c.toNat - 48)
  else if 'a' ≤ c ∧ c ≤ 'f' then some (c.toNat - 87)
  else if 'A' ≤ c ∧ c ≤ 'F' then some (c.toNat - 55)
  else none

/-- The value of a digit in a base. -/
def digit? (base : Nat) (c : Char) : Option Nat :=
  (hexDigit? c).bind fun d => if d < base then some d else none

/-- Whether a character is a digit in a base. -/
def isDigit (base : Nat) (c : Char) : Bool := (digit? base c).isSome

/-- The number written by a run of digits behind a number already read. -/
def readRun (base acc : Nat) : List Char → Option Nat
  | [] => some acc
  | c :: rest => (digit? base c).bind fun d => readRun base (base * acc + d) rest

/-- The number written by one or more digits. -/
def readBase (base : Nat) : List Char → Option Nat
  | [] => none
  | cs => readRun base 0 cs

end Text
end VoucherGateway
