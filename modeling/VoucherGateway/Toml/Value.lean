/-!
# Toml value — what a settings file says

Scalars, arrays and tables.  How a table was written, inside a value or spread over lines, makes no
difference to what it says.
-/

namespace VoucherGateway
namespace Toml

/-- A value without parts.  Numbers with a fraction and moments are kept as they are written. -/
inductive Scalar
  | text (s : String)
  | integer (n : Int)
  | real (word : String)
  | truth (b : Bool)
  | moment (word : String)
  deriving DecidableEq, Repr

/-- A value. -/
inductive Value
  | scalar (x : Scalar)
  | array (items : List Value)
  | table (entries : List (String × Value))
  deriving Inhabited

namespace Value

/-- The fields of a record with these field names.  A record is a table, or an array of its fields in
their order; a moment is a record that leaves every field out. -/
def fields? (names : List String) : Value → Option (String → Option Value)
  | .table entries => some fun name => entries.lookup name
  | .array items => some fun name => (names.idxOf? name).bind fun i => items[i]?
  | .scalar (.moment _) => some fun _ => none
  | .scalar _ => none

/-- A text. -/
def text? : Value → Option String
  | .scalar (.text s) => some s
  | _ => none

/-- A number from zero up to a largest one. -/
def upTo? (most : Nat) : Value → Option Nat
  | .scalar (.integer n) => if 0 ≤ n ∧ n.toNat ≤ most then some n.toNat else none
  | _ => none

/-- A 64-bit number. -/
def word? (v : Value) : Option UInt64 := (v.upTo? 0xFFFFFFFFFFFFFFFF).map UInt64.ofNat

/-- A 32-bit number. -/
def halfWord? (v : Value) : Option UInt32 := (v.upTo? 0xFFFFFFFF).map UInt32.ofNat

/-- The name of a choice: a text, or the only key of a table, which then holds an empty table or array. -/
def choice? : Value → Option String
  | .scalar (.text s) => some s
  | .table [(name, .table [])] | .table [(name, .array [])] => some name
  | _ => none

end Value
end Toml
end VoucherGateway
