import VoucherGateway.MessagePack.Decoder
import VoucherGateway.Text.Blank
import VoucherGateway.Voucher.Signed

/-!
# Wire form — signed vouchers as bytes and text

A voucher is a MessagePack array of client, vendor, nonce, atoms and signature, and travels as hexadecimal
text.  The reader also takes a map by field names, numbers in any width, and binary data for the strings of
bytes; what follows a voucher is ignored, and so is what follows the 32 bytes of a name in binary data.
-/

namespace VoucherGateway
namespace SignedVoucher

/-- The names of the fields, in their order. -/
def fieldNames : List String := ["client", "vendor", "nonce", "atoms", "signature"]

/-- A voucher as bytes. -/
def encode (v : SignedVoucher) : Bytes :=
  MessagePack.encodeArrayHeader fieldNames.length ++ MessagePack.encodeBytes v.client.bytes ++
    MessagePack.encodeBytes v.vendor.bytes ++ MessagePack.encodeNat v.nonce.toNat ++
    MessagePack.encodeNat v.atoms.toNat ++ MessagePack.encodeBytes v.signature

/-- The voucher made of the values of its fields. -/
def ofFields? : List MessagePack.Value → Option SignedVoucher
  | [client, vendor, nonce, atoms, signature] => do
    let client ← (client.bytesOfLength? 32).bind Identifier.ofBytes?
    let vendor ← (vendor.bytesOfLength? 32).bind Identifier.ofBytes?
    let nonce ← nonce.word?
    let atoms ← atoms.word?
    let signature ← signature.bytes?
    pure { client := client, vendor := vendor, nonce := nonce, atoms := atoms, signature := signature }
  | _ => none

/-- The voucher at the front of a string of bytes. -/
def decode? (bytes : Bytes) : Option SignedVoucher :=
  ((MessagePack.decode bytes).bind (MessagePack.Value.fields? fieldNames)).bind ofFields?

/-- A voucher as text. -/
def toHex (v : SignedVoucher) : String := Hex.encode (encode v)

/-- Reads a voucher from text, blanks around it allowed. -/
def ofHex (text : String) : Except Error SignedVoucher :=
  match Hex.decode (Text.trim text.toList) with
  | .error fault => .error (.serialization ("invalid voucher hex: " ++ fault.message))
  | .ok bytes =>
    match decode? bytes with
    | some v => .ok v
    | none => .error (.serialization "failed to decode voucher")

end SignedVoucher
end VoucherGateway
