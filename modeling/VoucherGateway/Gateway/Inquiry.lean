import VoucherGateway.Gateway.State

/-!
# Inquiry — reading a client's credit

Reads of the stores and the chain that change nothing but counts of reads and cached chain entries.
-/

namespace VoucherGateway

variable {S : Scheme}

/-- A client's oldest voucher that is not spent. -/
structure HeadVoucher (S : Scheme) where
  voucher : Voucher S
  /-- What the unmarked cost leaves of it. -/
  remaining : Atoms
  state : VoucherState

namespace Gateway

/-- The three figures behind a client's credit with a vendor. -/
def creditState (vendor client : S.Party) : Step S CreditState := do
  let unspent ← onVouchers (VoucherStore.unspent client vendor)
  let unmarked ← onUnmarked fun book => CostStore.read book client
  let locked ← onBalances fun book => CostStore.read book client
  pure ⟨Atoms.total (unspent.map (·.atoms)), unmarked, locked⟩

/-- A client's credit with a vendor at a reading of the chain. -/
def creditAt (vendor client : S.Party) (chain : ChainSnapshot) : Step S CreditSnapshot := do
  let state ← creditState vendor client
  let config ← Action.view (·.config.credit)
  pure ⟨state, chain.riskAdjustedCap config.expandRiskFactor, config.grace⟩

/-- A client's credit with a vendor now. -/
def creditSnapshot (vendor client : S.Party) : Op S CreditSnapshot := do
  let chain ← readChain client vendor
  perform (creditAt vendor client chain)

/-- What a new query of a client may cost. -/
def availableCredit (vendor client : S.Party) : Op S Atoms := do
  let snapshot ← creditSnapshot vendor client
  pure snapshot.available

/-- A client's oldest voucher for a vendor that is not spent. -/
def headVoucher (vendor client : S.Party) : Step S (Option (HeadVoucher S)) := do
  match ← onVouchers (VoucherStore.unspent client vendor) with
  | [] => pure none
  | v :: _ =>
    let unmarked ← onUnmarked fun book => CostStore.read book client
    pure (some ⟨v, Atoms.minus v.atoms unmarked, if unmarked = 0 then .unspent else .partiallySpent⟩)

end Gateway
end VoucherGateway
