import VoucherGateway.Atoms

/-!
# Voucher — signed promises of payment

A voucher promises a vendor a number of atoms.  A client's vouchers for one vendor form a chain, numbered
by their nonces.  How parties are named and signatures checked is left to a *scheme*.
-/

namespace VoucherGateway

/-- How parties are named and signatures checked. -/
structure Scheme where
  /-- Clients and vendors. -/
  Party : Type
  /-- What a client adds to a voucher to sign it. -/
  Signature : Type
  /-- Parties can be compared. -/
  decideParty : DecidableEq Party
  /-- The text of a party. -/
  partyText : Party → String
  /-- Whether a signature of a client covers a vendor, a nonce and a number of atoms. -/
  verify : Party → Party → UInt64 → Atoms → Signature → Bool

instance (S : Scheme) : DecidableEq S.Party := S.decideParty

/-- A promise of a client to pay a vendor. -/
structure Voucher (S : Scheme) where
  client : S.Party
  vendor : S.Party
  nonce : UInt64
  atoms : Atoms
  signature : S.Signature

/-- What identifies a voucher. -/
structure VoucherId (S : Scheme) where
  client : S.Party
  vendor : S.Party
  nonce : UInt64
  deriving DecidableEq

/-- How much of a voucher is used up. -/
inductive VoucherState
  | unspent
  | partiallySpent
  | spent
  deriving DecidableEq, Repr

variable {S : Scheme}

/-- The identity of a voucher. -/
def Voucher.id (v : Voucher S) : VoucherId S := ⟨v.client, v.vendor, v.nonce⟩

/-- Whether the signature of a voucher is its client's. -/
def Voucher.isAuthentic (v : Voucher S) : Bool := S.verify v.client v.vendor v.nonce v.atoms v.signature

/-- Client, vendor and nonce, separated by slashes. -/
def VoucherId.text (id : VoucherId S) : String :=
  S.partyText id.client ++ "/" ++ S.partyText id.vendor ++ "/" ++ toString id.nonce

/-- Parties are numbers, and a signature is right exactly if it says so. -/
@[reducible] def Scheme.plain : Scheme where
  Party := UInt64
  Signature := Bool
  decideParty := inferInstance
  partyText := fun party => toString party
  verify := fun _ _ _ _ signature => signature

end VoucherGateway
