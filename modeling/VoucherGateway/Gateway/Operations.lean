import VoucherGateway.Gateway.Inquiry
import VoucherGateway.Gateway.Spending

/-!
# Operations — what clients ask of a gateway

Vouchers open sessions and top them up; queries are reserved against the client's credit, settled at the
price of their usage, or aborted.  Each operation on a client enters the client's gate first, and an
accounting contradiction halts the client.  Every call to a store may fail; settling continues where an
earlier attempt broke off.  Accepting a session and settling a query end with recording it, and so with a
panic where a total of the counters runs over; all else is done by then.  What an operation does between two
waits is a step of its own.
-/

namespace VoucherGateway

variable {S : Scheme}

namespace Gateway

/-! ## Vouchers -/

/-- Turns a voucher down. -/
def reject {α : Type} (reason : Rejection) : Step S α := do
  count .sessionRejected
  throw (.rejected reason)

/-- Takes carried cost off a client's vouchers.  Only contradictions count; the rest can wait. -/
def absorbArrears (client : S.Party) (arrears : Atoms) : Step S Unit := do
  match ← Action.attempt (absorb client arrears none) with
  | .ok _ => pure ()
  | .error e => if e.isFatal then throw e else pure ()

/-- The newest nonce accepted of a client. -/
def priorNonce (client : S.Party) : Step S UInt64 := do
  let g ← get
  let latest ← onVouchers (VoucherStore.latestNonce client g.vendor)
  pure (latest.getD g.config.engine.genesisNonce)

/-- Records a voucher if it is the next after a nonce, at a reading of the chain; answers its nonce. -/
def recordVoucher (v : Voucher S) (prior : UInt64) (chain : ChainSnapshot) : Step S UInt64 := do
  let g ← get
  match ← onVouchers (v.validate g.config.credit g.vendor prior chain) with
  | .rejected reason => reject reason
  | .accepted =>
    -- read before the voucher is recorded: if the store does not answer, nothing has happened
    let arrears ← onUnmarked fun book => CostStore.read book v.client
    let added ← onVouchers (VoucherStore.insert v)
    -- a voucher with this nonce may be on record although the newest nonce read was older
    if !added then reject (.nonceReplay prior v.nonce)
    else
      if 0 < arrears then absorbArrears v.client arrears
      pure v.nonce

/-- Accepts a voucher if it is the next of its client; answers its nonce. -/
def acceptVoucher (v : Voucher S) : Op S UInt64 := do
  let prior ← perform (priorNonce v.client)
  let g ← get
  let chain ← readChain v.client g.vendor
  perform (recordVoucher v prior chain)

/-- Opens a session for a client whose voucher was accepted. -/
def openSession (client : S.Party) (nonce : UInt64) : Step S (Completion SessionId) := do
  let g ← get
  let (id, sessions) := g.sessions.openSession client g.vendor nonce g.now
  set { g with sessions := sessions }
  report .sessionAccepted id

/-- Opens a session with a voucher. -/
def acceptSession (v : Voucher S) : Op S (Completion SessionId) := do
  enter v.client
  let nonce ← guarding v.client (acceptVoucher v)
  perform (openSession v.client nonce)

/-- Adds a voucher to an open session of the same client. -/
def topUp (id : SessionId) (v : Voucher S) : Op S Unit := do
  let session ← perform (findOpenSession id)
  if v.client ≠ session.client then
    throw (.unknownSession (id.text ++ " for client " ++ S.partyText v.client))
  enter session.client
  -- whoever had the client before may have closed the session
  let _ ← perform (findOpenSession id)
  let nonce ← guarding session.client (acceptVoucher v)
  let g ← get
  perform (updateSession id fun s => { s with chainHead := nonce, lastActivity := g.now })

/-- Closes a session. -/
def closeSession (id : SessionId) : Step S Unit := do
  let g ← get
  match g.sessions.find? id with
  | none => throw (.unknownSession id.text)
  | some s =>
    if s.isOpen then
      set { g with sessions := g.sessions.close id g.now }
      count .sessionClosed

/-! ## Queries -/

/-- Locks the estimated cost of a new query, if the client's credit at a reading of the chain allows it. -/
def lockEstimate (session : SessionId) (client : S.Party) (estimated : Atoms) (chain : ChainSnapshot) :
    Step S QueryId := do
  if !chain.isActive then
    count .queryRejected
    throw (.rejected .notSubscribed)
  let g ← get
  let credit ← creditAt g.vendor client chain
  if credit.available < estimated then
    count .queryRejected
    throw (.insufficientCredit estimated credit.available)
  let g ← get
  -- the number is used up even if the lock fails
  let (id, queries) := g.queries.allocate
  set { g with queries := queries }
  let _ ← onBalances fun book => CostStore.add book client estimated
  let fresh : Query S :=
    { id := id, session := session, client := client, estimated := estimated, lockedAt := g.now }
  let q ← Action.give (fresh.moveTo .locked g.now)
  Action.update fun g => { g with queries := g.queries.insert q }
  count .queryLocked
  pure id

/-- Reserves a query of a client. -/
def reserve (session : SessionId) (client : S.Party) (estimated : Atoms) : Op S QueryId := do
  -- a voucher whose spend broke off would count as unspent
  let _ ← perform (resumeSpend client)
  let g ← get
  let chain ← readChain client g.vendor
  perform (lockEstimate session client estimated chain)

/-- Reserves a query in an open session. -/
def acceptQuery (session : SessionId) (estimated : Atoms) : Op S QueryId := do
  let s ← perform (findOpenSession session)
  enter s.client
  let _ ← perform (findOpenSession session)
  let id ← guarding s.client (reserve session s.client estimated)
  let g ← get
  perform (updateSession session fun s => { s with lastActivity := g.now })
  pure id

/-- The cost of a query: that of the usage first reported. -/
def fixCost (q : Query S) (usage : Usage) : Step S Atoms := do
  match q.actual with
  | some cost => pure cost
  | none =>
    let g ← get
    let cost := g.config.pricing.cost usage
    -- later attempts keep this cost, whatever usage they report
    updateQuery q.id fun q => { q with actual := some cost }
    pure cost

/-- Unlocks the estimate of a query, once. -/
def releaseEstimate (q : Query S) : Step S Unit := do
  if !q.released then
    let _ ← onBalances fun book => CostStore.subtract book q.client q.estimated
    updateQuery q.id fun q => { q with released := true }

/-- Adds the cost of a query to its client's unmarked cost, once; answers the unmarked cost. -/
def charge (q : Query S) (cost : Atoms) : Step S Atoms := do
  if q.charged then onUnmarked fun book => CostStore.read book q.client
  else
    let unmarked ←
      -- a query that costs nothing leaves no trace in the store
      if 0 < cost then onUnmarked fun book => CostStore.add book q.client cost
      else onUnmarked fun book => CostStore.read book q.client
    updateQuery q.id fun q => { q with charged := true }
    pure unmarked

/-- Moves a query to its settled state and writes its receipt. -/
def issueReceipt (id : QueryId) (cost : Atoms) (partlyUsed : Option (VoucherId S))
    (creditAfter : CreditState) : Step S (Receipt S) := do
  let g ← get
  let q ← findQuery id
  let settled ← Action.give (q.moveTo .settled g.now)
  let receipt : Receipt S :=
    { query := id, session := q.session, estimated := q.estimated, actual := cost
      consumed := q.consumed, partlyUsed := partlyUsed, creditAfter := creditAfter }
  updateQuery id fun _ => { settled with receipt := some receipt }
  pure receipt

/-- Settles a query that is not final. -/
def finishSettling (q : Query S) (usage : Usage) : Step S (Completion (Receipt S)) := do
  let cost ← fixCost q usage
  releaseEstimate q
  let unmarked ← charge q cost
  absorb q.client unmarked (some q.id)
  let g ← get
  -- what the client is told holds after its vouchers are spent
  let creditAfter ← creditState g.vendor q.client
  let head ← if 0 < creditAfter.unmarked then headVoucher g.vendor q.client else pure none
  let receipt ← issueReceipt q.id cost (head.map (·.voucher.id)) creditAfter
  report (.querySettled cost) receipt

/-- Settles a query; a settled one answers its receipt again. -/
def settleNow (id : QueryId) (usage : Usage) : Step S (Completion (Receipt S)) := do
  let q ← findQuery id
  match q.state, q.receipt with
  | .settled, some receipt => pure (.returned receipt)
  | .aborted, _ => throw (.queryAborted q.id.text)
  | _, _ => finishSettling q usage

/-- Settles a query for the usage reported. -/
def settleQuery (id : QueryId) (usage : Usage) : Op S (Completion (Receipt S)) := do
  let q ← perform (findQuery id)
  enter q.client
  guarding q.client (perform (settleNow id usage))

/-- Aborts a query that is not final. -/
def finishAborting (q : Query S) (forced : Bool) : Step S Unit := do
  releaseEstimate q
  let g ← get
  let current ← findQuery q.id
  let forcedly := { current with forced := forced }
  match forcedly.moveTo .aborted g.now with
  | .ok aborted => updateQuery q.id fun _ => aborted
  | .error e =>
    -- the query remembers that it was overdue even if the move is refused
    updateQuery q.id fun _ => forcedly
    throw e
  count (.queryAborted forced)

/-- Aborts a query; an aborted one stays as it is. -/
def abortNow (id : QueryId) (forced : Bool) : Step S Unit := do
  let q ← findQuery id
  match q.state with
  | .aborted => pure ()
  | .settled => throw (.querySettled q.id.text)
  | _ => finishAborting q forced

/-- Aborts a query. -/
def abort (id : QueryId) (forced : Bool) : Op S Unit := do
  let q ← perform (findQuery id)
  enter q.client
  guarding q.client (perform (abortNow id forced))

/-! ## Halts -/

/-- Lifts the halt of a client; tells whether there was one. -/
def resumeClient (client : S.Party) : Step S Bool := fun g =>
  (.ok (g.gate.resume client).1, { g with gate := (g.gate.resume client).2 })

end Gateway
end VoucherGateway
