import VoucherGateway.Atoms

/-!
# Chain snapshot — a client's standing on chain

What a vendor sees of a client on chain, and how far the client's collateral carries.
-/

namespace VoucherGateway

/-- A client's standing on chain as one vendor sees it. -/
structure ChainSnapshot where
  collateral : Atoms := 0
  pendingWithdrawal : Atoms := 0
  subscribedVendorCount : UInt64 := 0
  subscribed : Bool := false
  unsubscribeQueued : Bool := false
  deriving DecidableEq, Repr

namespace ChainSnapshot

/-- Collateral left once queued withdrawals are paid out. -/
def effectiveCollateral (c : ChainSnapshot) : Atoms := Atoms.minus c.collateral c.pendingWithdrawal

/-- Subscribed, and not about to leave. -/
def isActive (c : ChainSnapshot) : Bool := c.subscribed && !c.unsubscribeQueued

/-- The number of vendors that may draw on the collateral, with a margin for those not yet seen. -/
def exposure (c : ChainSnapshot) (riskFactor : UInt64) : UInt64 :=
  Atoms.plus c.subscribedVendorCount riskFactor

/-- One vendor's share of the collateral. -/
def riskAdjustedCap (c : ChainSnapshot) (riskFactor : UInt64) : Atoms :=
  c.effectiveCollateral / c.exposure riskFactor

theorem toNat_riskAdjustedCap (c : ChainSnapshot) (riskFactor : UInt64) :
    (c.riskAdjustedCap riskFactor).toNat =
      c.effectiveCollateral.toNat / (c.exposure riskFactor).toNat := by
  simp [riskAdjustedCap, UInt64.toNat_div]

/-- Without any exposure there is no share. -/
theorem riskAdjustedCap_of_exposure_eq_zero {c : ChainSnapshot} {riskFactor : UInt64}
    (h : c.exposure riskFactor = 0) : c.riskAdjustedCap riskFactor = 0 := by
  apply UInt64.toNat_inj.1
  rw [toNat_riskAdjustedCap, h]
  simp

end ChainSnapshot
end VoucherGateway
