import VoucherGateway.Chain.Snapshot
import VoucherGateway.Store.Outage
import VoucherGateway.Voucher.Basic

/-!
# Chain source — reading the chain

A source answers with the standing of a client, or not at all.  Clients that the chain does not know have
neither collateral nor subscriptions.
-/

namespace VoucherGateway

variable {S : Scheme}

/-- The chain as it can be read now. -/
structure ChainSource (S : Scheme) where
  snapshots : Table S.Party ChainSnapshot := {}
  available : Bool := true
  plan : OutagePlan := {}
  /-- Reads so far, answered or not. -/
  reads : Nat := 0

namespace ChainSource

/-- The standing of a client. -/
def standing (s : ChainSource S) (client : S.Party) : ChainSnapshot := (s.snapshots.get? client).getD {}

/-- Sets the standing of a client. -/
def setStanding (s : ChainSource S) (client : S.Party) (c : ChainSnapshot) : ChainSource S :=
  { s with snapshots := s.snapshots.put client c }

/-- Reads the standing of a client; the error says why the chain did not answer. -/
def read (client : S.Party) : Action (ChainSource S) String ChainSnapshot := fun s =>
  -- reads count before it is known whether they are answered
  let s := { s with reads := s.reads + 1 }
  if s.available then
    let failed := s.plan.failsNow
    let s := { s with plan := s.plan.step }
    if failed then (.error "injected failure", s) else (.ok (s.standing client), s)
  else (.error "chain offline", s)

end ChainSource
end VoucherGateway
