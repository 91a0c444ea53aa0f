import VoucherGateway.Gateway.State

/-!
# Spending — taking charged cost off whole vouchers

Once a client's unmarked cost covers its oldest unspent voucher, the voucher is spent: it is marked, its atoms
are taken off the unmarked cost, and it is queued for settlement.  A spend that breaks off is remembered and
finished before the client's next spend.
-/

namespace VoucherGateway

variable {S : Scheme}

namespace Gateway

/-- Remembers that the voucher being spent is marked. -/
def noteMarked (client : S.Party) : Step S Unit :=
  Action.update fun g =>
    { g with interrupted := g.interrupted.modify client fun p => { p with marked := true } }

/-- Finishes a spend whose voucher is marked; answers the unmarked cost that is left. -/
def completeSpend (client : S.Party) (p : PendingSpend S) : Step S Atoms := do
  let left ← onUnmarked fun book => CostStore.subtract book client p.voucher.atoms
  -- the atoms are taken off: nothing of the spend may be repeated from here on
  Action.update fun g => { g with interrupted := g.interrupted.erase client }
  if let some query := p.query then
    updateQuery query fun q => { q with consumed := q.consumed ++ [p.voucher.id] }
  let g ← get
  let (queued, settlement) := g.settlement.push p.voucher
  set { g with settlement := settlement }
  if queued then pure left
  else throw (.violation (.nonceSequence (S.partyText client)
    ("spent voucher " ++ p.voucher.id.text ++ " is not newer than the settlement queue")))

/-- Spends a voucher. -/
def spend (client : S.Party) (v : Voucher S) (query : Option QueryId) : Step S Atoms := do
  let p : PendingSpend S := { voucher := v, query := query }
  -- noted before the store is asked, so that the spend can be finished if the call fails
  Action.update fun g => { g with interrupted := g.interrupted.put client p }
  onVouchers (VoucherStore.markSpent v.id)
  noteMarked client
  completeSpend client p

/-- Marks a voucher spent unless it is marked already. -/
def ensureMarked (id : VoucherId S) : Step S Unit := do
  let marked ← onVouchers (VoucherStore.isSpent id)
  if marked then pure () else onVouchers (VoucherStore.markSpent id)

/-- Finishes the client's spend that broke off, if there is one; answers the unmarked cost after it. -/
def resumeSpend (client : S.Party) : Step S (Option Atoms) := do
  let g ← get
  match g.interrupted.get? client with
  | none => pure none
  | some p =>
    -- the call that broke off may have marked the voucher all the same
    if !p.marked then
      ensureMarked p.voucher.id
      noteMarked client
    let left ← completeSpend client p
    pure (some left)

/-- Spends vouchers from the front while the unmarked cost covers them. -/
def spendCovered (client : S.Party) (query : Option QueryId) : List (Voucher S) → Atoms → Step S Unit
  | [], _ => pure ()
  | v :: rest, unmarked =>
    if unmarked < v.atoms then pure ()
    else do
      let left ← spend client v query
      spendCovered client query rest left

/-- Finishes what broke off and spends every voucher that the unmarked cost covers. -/
def absorb (client : S.Party) (unmarked : Atoms) (query : Option QueryId) : Step S Unit := do
  let resumed ← resumeSpend client
  let g ← get
  let vouchers ← onVouchers (VoucherStore.unspent client g.vendor)
  spendCovered client query vouchers (resumed.getD unmarked)

end Gateway
end VoucherGateway
