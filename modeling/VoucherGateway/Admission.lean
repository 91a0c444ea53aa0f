import VoucherGateway.Chain.Snapshot
import VoucherGateway.Config.Basic
import VoucherGateway.Store.Vouchers

/-!
# Admission — whether a voucher is acceptable

The checks that need nothing but the voucher and the nonce before it come first, in a fixed order; the
checks that depend on the client's standing follow.  The first check that fails gives the verdict.
-/

namespace VoucherGateway

variable {S : Scheme}

/-- The outcome of checking a voucher. -/
inductive Verdict
  | accepted
  | rejected (reason : Rejection)
  deriving DecidableEq, Repr

namespace Voucher

/-- The checks of a voucher by itself: signature, value, vendor, and that its nonce follows `prior`. -/
def checkStatic (v : Voucher S) (vendor : S.Party) (prior : UInt64) : Verdict :=
  if !v.isAuthentic then .rejected .badSignature
  else if v.atoms = 0 then .rejected .zeroAtoms
  else if v.vendor ≠ vendor then .rejected .wrongVendor
  else if v.nonce ≤ prior then .rejected (.nonceReplay prior v.nonce)
  -- nothing follows the largest nonce, and there `plus` stops
  else if v.nonce ≠ Atoms.plus prior 1 then .rejected (.nonceGap (Atoms.plus prior 1) v.nonce)
  else .accepted

/-- The collateral that a voucher is held against. -/
def collateralFor (config : CreditConfig) (chain : ChainSnapshot) : Atoms :=
  match config.collateralCheck with
  | .full => chain.effectiveCollateral
  | .riskAdjusted => chain.riskAdjustedCap config.expandRiskFactor

/-- The checks of a voucher against the standing of its client and the marks in the store. -/
def checkVolatile (config : CreditConfig) (v : Voucher S) (chain : ChainSnapshot) :
    VoucherStore.Act S Verdict :=
  if !chain.isActive then pure (.rejected .notSubscribed)
  else if collateralFor config chain < v.atoms then
    pure (.rejected (.insufficientCollateral (collateralFor config chain) v.atoms))
  else do
    if ← VoucherStore.isSpent v.id then pure (.rejected (.alreadySpent v.nonce))
    else pure .accepted

/-- All checks, the static ones first. -/
def validate (config : CreditConfig) (v : Voucher S) (vendor : S.Party) (prior : UInt64)
    (chain : ChainSnapshot) : VoucherStore.Act S Verdict :=
  match v.checkStatic vendor prior with
  | .rejected reason => pure (.rejected reason)
  | .accepted => v.checkVolatile config chain

end Voucher
end VoucherGateway
