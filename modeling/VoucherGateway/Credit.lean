import VoucherGateway.Chain.Snapshot

/-!
# Credit — what a client may still spend

A client's vouchers that are not spent yet, plus an agreed grace, back two running costs: the unmarked
cost of work already charged but not yet taken off a whole voucher, and the locked cost of work still
running.  What is left is the client's credit; it is capped by the share of the collateral.
-/

namespace VoucherGateway

/-- The three figures behind a client's credit. -/
structure CreditState where
  unspent : Atoms
  unmarked : Atoms
  locked : Atoms
  deriving DecidableEq, Repr

namespace CreditState

/-- What vouchers and grace have to cover. -/
def committed (s : CreditState) : Atoms := Atoms.plus s.unmarked s.locked

/-- What vouchers and grace leave uncommitted. -/
def raw (s : CreditState) (grace : Atoms) : Atoms :=
  Atoms.minus (Atoms.plus s.unspent grace) s.committed

/-- What vouchers and grace fail to cover. -/
def overdraft (s : CreditState) (grace : Atoms) : Atoms :=
  Atoms.minus s.committed (Atoms.plus s.unspent grace)

theorem toNat_raw (s : CreditState) (grace : Atoms) :
    (s.raw grace).toNat =
      min (s.unspent.toNat + grace.toNat) 0xFFFFFFFFFFFFFFFF -
        min (s.unmarked.toNat + s.locked.toNat) 0xFFFFFFFFFFFFFFFF := by
  simp [raw, committed]

theorem toNat_overdraft (s : CreditState) (grace : Atoms) :
    (s.overdraft grace).toNat =
      min (s.unmarked.toNat + s.locked.toNat) 0xFFFFFFFFFFFFFFFF -
        min (s.unspent.toNat + grace.toNat) 0xFFFFFFFFFFFFFFFF := by
  simp [overdraft, committed]

end CreditState

/-- Credit at one reading of the chain. -/
structure CreditSnapshot where
  state : CreditState
  cap : Atoms
  grace : Atoms
  deriving DecidableEq, Repr

namespace CreditSnapshot

/-- Uncommitted credit before the cap. -/
def raw (s : CreditSnapshot) : Atoms := s.state.raw s.grace

/-- Credit that a new query may take. -/
def available (s : CreditSnapshot) : Atoms := min s.raw s.cap

/-- Commitments that nothing covers. -/
def overdraft (s : CreditSnapshot) : Atoms := s.state.overdraft s.grace

end CreditSnapshot
end VoucherGateway
