import VoucherGateway.Text.Radix
import VoucherGateway.Toml.Value

/-!
# Toml number — words that are numbers

Whole numbers in four bases and numbers with a fraction or an exponent.  Underscores may stand between
digits.  A whole number has to fit in 64 bits with a sign.
-/

namespace VoucherGateway
namespace Toml

/-- A run of digits without its underscores, each of which has to stand between two digits. -/
def ungroup (isDigit : Char → Bool) : List Char → Option (List Char)
  | [] => none
  | c :: rest =>
    if isDigit c then
      match rest with
      | [] => some [c]
      | '_' :: more => (ungroup isDigit more).map (c :: ·)
      | more => (ungroup isDigit more).map (c :: ·)
    else none

/-- The digits of a decimal number that starts with no superfluous zero. -/
def wholeDigits (word : List Char) : Option (List Char) :=
  match ungroup (Text.isDigit 10) word with
  | some ('0' :: _ :: _) => none
  | digits => digits

/-- The number behind a sign. -/
def readDecimal (word : List Char) : Option Nat := (wholeDigits word).bind (Text.readBase 10)

/-- The number behind the mark of a base. -/
def readMarked (base : Nat) (word : List Char) : Option Nat :=
  (ungroup (Text.isDigit base) word).bind (Text.readBase base)

/-- Whether a whole number fits in 64 bits with a sign. -/
def isSignedWord (n : Int) : Bool := -0x8000000000000000 ≤ n && n < 0x8000000000000000

/-- The whole number that a word writes. -/
def readInteger (word : List Char) : Option Int :=
  let number : Option Int := match word with
    -- a sign stands in front of decimal digits only
    | '0' :: 'x' :: digits => (readMarked 16 digits).map Int.ofNat
    | '0' :: 'o' :: digits => (readMarked 8 digits).map Int.ofNat
    | '0' :: 'b' :: digits => (readMarked 2 digits).map Int.ofNat
    | '-' :: digits => (readDecimal digits).map fun n => -(n : Int)
    | '+' :: digits => (readDecimal digits).map Int.ofNat
    | digits => (readDecimal digits).map Int.ofNat
  number.filter isSignedWord

/-- The sign of a number and what follows it. -/
def splitSign : List Char → Bool × List Char
  | '-' :: rest => (true, rest)
  | '+' :: rest => (false, rest)
  | word => (false, word)

/-- The exponent at the end of a number. -/
def readExponent (word : List Char) : Option Int :=
  let (negative, digits) := splitSign word
  ((ungroup (Text.isDigit 10) digits).bind (Text.readBase 10)).map fun n =>
    if negative then -(n : Int) else n

/-- Whether the digits `digits`, read as a whole number and multiplied by a power of ten, lie beyond the
largest double, the halfway point to the next power of two included. -/
def isBeyondDoubles (digits : List Char) (exponent : Int) : Bool :=
  let n := (Text.readRun 10 0 digits).getD 0
  let limit := ((1 <<< 54) - 1) <<< 970
  -- the powers of ten are computed only where the length of the number does not decide
  if n = 0 ∨ digits.length + exponent < 0 then false
  else if 400 < exponent then true
  else if 0 ≤ exponent then limit ≤ n * Nat.pow 10 exponent.toNat
  else limit * Nat.pow 10 (-exponent).toNat ≤ n

/-- Whether a word writes a number with a fraction, an exponent or both, or one of the words for an
infinity and for no number.  A positive number beyond the largest double is refused. -/
def isReal (word : List Char) : Bool :=
  let (negative, body) := splitSign word
  if body = "inf".toList ∨ body = "nan".toList then true
  else
    -- the digits in front of the point or the exponent
    let whole := body.takeWhile fun c => c ≠ '.' && c ≠ 'e' && c ≠ 'E'
    let tail := body.drop whole.length
    let (fraction, tail) := match tail with
      | '.' :: rest =>
        let digits := rest.takeWhile fun c => c ≠ 'e' && c ≠ 'E'
        (some digits, rest.drop digits.length)
      | _ => (none, tail)
    let parts : Option (List Char × List Char × Int) := do
      let whole ← wholeDigits whole
      let fractionDigits ← match fraction with
        | some digits => ungroup (Text.isDigit 10) digits
        | none => some []
      let exponent ← match tail with
        | [] => if fraction.isSome then some 0 else none
        | _ :: rest => readExponent rest
      return (whole, fractionDigits, exponent)
    match parts with
    | none => false
    | some (whole, fraction, exponent) =>
      negative || !isBeyondDoubles (whole ++ fraction) (exponent - fraction.length)

end Toml
end VoucherGateway
