import VoucherGateway.Crypto.Ed25519
import VoucherGateway.Voucher.Basic
import VoucherGateway.Voucher.Identifier

/-!
# Signed vouchers — vouchers under Ed25519

A voucher is signed over a digest of its vendor, nonce and atoms, which begins with a fixed tag so that no
signature made for another purpose can pass for one of a voucher.  The client is the public key.
-/

namespace VoucherGateway

/-- The tag in front of everything that is signed. -/
def voucherTag : Bytes := Hex.textBytes "micropay-voucher-v1".toList

/-- What a client signs. -/
def voucherDigest (vendor : Identifier) (nonce : UInt64) (atoms : Atoms) : Bytes :=
  Sha2.sha256.hash
    (voucherTag ++ vendor.bytes ++ Bytes.bigEndian 8 nonce.toNat ++ Bytes.bigEndian 8 atoms.toNat)

/-- Parties are identifiers, and signatures are checked with Ed25519. -/
@[reducible] def Scheme.ed25519 : Scheme where
  Party := Identifier
  Signature := Bytes
  decideParty := inferInstance
  partyText := Identifier.text
  verify := fun client vendor nonce atoms signature =>
    Ed25519.verify client.bytes (voucherDigest vendor nonce atoms) signature

/-- A voucher under Ed25519. -/
abbrev SignedVoucher := Voucher Scheme.ed25519

/-- A client's secret. -/
structure Signer where
  secret : Bytes

namespace Signer

/-- The client that signs with a secret. -/
def client (s : Signer) : Identifier where
  bytes := Ed25519.publicKey s.secret
  length_eq := by simp [Ed25519.publicKey, Edwards.Point.encode]

/-- Signs a voucher. -/
def sign (s : Signer) (vendor : Identifier) (nonce : UInt64) (atoms : Atoms) : SignedVoucher where
  client := s.client
  vendor := vendor
  nonce := nonce
  atoms := atoms
  signature := Ed25519.sign s.secret (voucherDigest vendor nonce atoms)

/-- A signer in a diagnostic, which keeps the secret. -/
def describe (s : Signer) : String :=
  "VoucherSigner \x7b client: " ++ s.client.labelled .client ++ ", .. \x7d"

end Signer
end VoucherGateway
