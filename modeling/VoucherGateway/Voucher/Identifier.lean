import VoucherGateway.Error
import VoucherGateway.Text.Hex

/-!
# Identifier — parties named by 32 bytes

Clients are named by their public keys and vendors by identifiers of the same size.  Both are shown as 64
lower-case digits and read in either case, with any number of `0x` in front.
-/

namespace VoucherGateway

/-- The name of a party. -/
structure Identifier where
  bytes : Bytes
  length_eq : bytes.length = 32
  deriving DecidableEq

namespace Identifier

/-- The identifier made of these bytes, if they are 32. -/
def ofBytes? (bytes : Bytes) : Option Identifier :=
  if h : bytes.length = 32 then some ⟨bytes, h⟩ else none

/-- The identifier whose bytes are all the same. -/
def ofByte (b : UInt8) : Identifier := ⟨List.replicate 32 b, by simp⟩

/-- The identifier as 64 digits. -/
def text (id : Identifier) : String := Hex.encode id.bytes

/-- A text without the marks of hexadecimal in front. -/
def dropMarks : List Char → List Char
  | '0' :: 'x' :: rest => dropMarks rest
  | cs => cs

/-- Reads an identifier. -/
def parse (text : String) : Except Error Identifier :=
  match Hex.decode (dropMarks text.toList) with
  | .error fault => .error (.serialization ("invalid hex id: " ++ fault.message))
  | .ok bytes =>
    if h : bytes.length = 32 then .ok ⟨bytes, h⟩
    else .error (.serialization s!"id must be 32 bytes, got {bytes.length}")

/-- What an identifier names. -/
inductive Role
  | client
  | vendor
  deriving DecidableEq, Repr

/-- The label of a role in diagnostics. -/
def Role.label : Role → String
  | .client => "ClientKey"
  | .vendor => "VendorId"

/-- An identifier in a diagnostic, with the label of its role. -/
def labelled (role : Role) (id : Identifier) : String := role.label ++ "(" ++ id.text ++ ")"

@[ext] theorem ext {a b : Identifier} (h : a.bytes = b.bytes) : a = b := by
  cases a; cases b; simp_all

theorem ofBytes?_bytes (id : Identifier) : ofBytes? id.bytes = some id := by
  simp [ofBytes?, id.length_eq]

end Identifier
end VoucherGateway
