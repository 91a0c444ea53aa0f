import VoucherGateway.Admission
import VoucherGateway.Chain.Reader
import VoucherGateway.Counters
import VoucherGateway.Gate
import VoucherGateway.Gateway.Query
import VoucherGateway.Settlement
import VoucherGateway.Store.Costs

/-!
# Gateway state — everything an operation can read or change

A gateway serves one vendor.  Its state joins the stores, the chain reader, the gate, the tables of sessions
and queries, the spends that broke off, the settlement queue and the counters.  The elementary steps of this
module each touch one part; operations are built from them.  A step is done at once, an operation may wait:
for its turn with a client, and while the chain does not answer.
-/

namespace VoucherGateway

/-- A voucher whose spending has begun. -/
structure PendingSpend (S : Scheme) where
  voucher : Voucher S
  /-- The query that uses the voucher up. -/
  query : Option QueryId
  /-- Whether the voucher is known to be marked spent. -/
  marked : Bool := false

/-- A gateway and the stores it works with. -/
structure Gateway (S : Scheme) where
  vendor : S.Party
  config : GatewayConfig := {}
  vouchers : VoucherStore S := {}
  /-- Cost charged but not yet taken off a voucher. -/
  unmarked : CostStore S := {}
  /-- Cost locked for queries that still run. -/
  balances : CostStore S := {}
  chain : ChainReader S := {}
  gate : Gate S.Party Unit := {}
  sessions : SessionTable S := {}
  queries : QueryTable S := {}
  /-- Spends that are not complete, at most one for each client. -/
  interrupted : Table S.Party (PendingSpend S) := {}
  settlement : Settlement S := {}
  metrics : Metrics := {}

variable {S : Scheme}

/-- A step of a gateway, which never waits. -/
abbrev Step (S : Scheme) (α : Type) := Action (Gateway S) Error α

/-- An operation of a gateway, which may wait on its way. -/
abbrev Op (S : Scheme) (α : Type) := Procedure (Wait S.Party) (Gateway S) Error α

namespace Gateway

/-- The time. -/
def now (g : Gateway S) : Nat := g.chain.clock

/-- Sets the time. -/
def setClock (g : Gateway S) (t : Nat) : Gateway S := { g with chain := { g.chain with clock := t } }

/-- What happens to a gateway while its only operation waits: time passes. -/
def elapse (reason : Wait S.Party) (g : Gateway S) : Gateway S := { g with chain := g.chain.elapse reason }

/-- An operation that is a single step. -/
def perform {α : Type} (step : Step S α) : Op S α := Procedure.ofAction step

/-! ## Steps on the stores -/

/-- A step on the voucher store. -/
def onVouchers {α : Type} (act : VoucherStore.Act S α) : Step S α :=
  Action.within (·.vouchers) (fun s g => { g with vouchers := s }) act

/-- A step on the store of unmarked cost. -/
def onUnmarked {α : Type} (act : CostBook → CostStore.Act S α) : Step S α :=
  Action.within (·.unmarked) (fun s g => { g with unmarked := s }) (act .unmarked)

/-- A step on the store of locked cost. -/
def onBalances {α : Type} (act : CostBook → CostStore.Act S α) : Step S α :=
  Action.within (·.balances) (fun s g => { g with balances := s }) (act .balances)

/-- Reads the standing of a client on chain as a vendor sees it. -/
def readChain (client vendor : S.Party) : Op S ChainSnapshot :=
  Procedure.mapError .chainUnavailable
    (Procedure.within (·.chain) (fun r g => { g with chain := r }) (ChainReader.read client vendor))

/-! ## Steps on the gateway's own records -/

/-- Counts an event of which no total is reported. -/
def count (e : Event) : Step S Unit := Action.update fun g => { g with metrics := g.metrics.count e }

/-- Records an event, then answers. -/
def report {α : Type} (e : Event) (answer : α) : Step S (Completion α) := do
  match ← Action.attempt
    (Action.within (·.metrics) (fun m g => { g with metrics := m }) (Metrics.record e)) with
  | .ok () => pure (.returned answer)
  -- a panic undoes nothing, and leaves the gate of the client as it is
  | .error p => pure (.panicked p)

/-- The event is counted in any case; the counters before it decide between the answer and a panic. -/
theorem run_report {α : Type} (e : Event) (answer : α) (g : Gateway S) :
    (report e answer).run g =
      (.ok (g.metrics.counters.told e answer), { g with metrics := g.metrics.count e }) := by
  unfold report Counters.told
  rw [Action.run_bind, Action.run_attempt, Action.run_within]
  dsimp only
  rw [Metrics.count, Metrics.run_record]
  cases g.metrics.counters.runsOver e <;> rfl

/-- Changes the query of a number. -/
def updateQuery (id : QueryId) (f : Query S → Query S) : Step S Unit :=
  Action.update fun g => { g with queries := g.queries.update id f }

/-- Changes the session of a number. -/
def updateSession (id : SessionId) (f : Session S → Session S) : Step S Unit :=
  Action.update fun g => { g with sessions := g.sessions.update id f }

/-- The query of a number. -/
def findQuery (id : QueryId) : Step S (Query S) := do
  let g ← get
  match g.queries.find? id with
  | some q => pure q
  | none => throw (.unknownQuery id.text)

/-- The session of a number, which must be open. -/
def findOpenSession (id : SessionId) : Step S (Session S) := do
  let g ← get
  match g.sessions.find? id with
  | none => throw (.unknownSession id.text)
  | some s => if s.isOpen then pure s else throw (.sessionClosed id.text)

/-! ## Passing the gate -/

/-- Refuses a halted client. -/
def refuseHalted (client : S.Party) : Step S Unit := do
  let g ← get
  match g.gate.haltReason? client with
  | some reason => throw (haltedError (S.partyText client) reason)
  | none => pure ()

/-- Refuses a halted client; the lock of any other is made if it is missing. -/
def passGate (client : S.Party) : Step S Unit := do
  let g ← get
  match g.gate.pass client with
  | .ok gate => set { g with gate := gate }
  | .error reason => throw (haltedError (S.partyText client) reason)

/-- Enters the gate of a client, who may be halted on arrival or by the time the lock is free. -/
def enter (client : S.Party) : Op S Unit := do
  perform (refuseHalted client)
  Procedure.wait (.turn client)
  perform (passGate client)

/-- Halts a client for a fatal error. -/
def haltFor (client : S.Party) (e : Error) (g : Gateway S) : Gateway S :=
  -- a later halt replaces the reason of an earlier one
  if e.isFatal then { g with gate := g.gate.halt client e.message } else g

/-- Runs an operation on a client; a fatal error halts the client. -/
def guarding {α : Type} (client : S.Party) (op : Op S α) : Op S α := op.onError (haltFor client)

end Gateway

/-! ## Operations that run alone -/

namespace Op

variable {α β : Type}

/-- Runs an operation on a gateway that nobody else works with. -/
def run (op : Op S α) (g : Gateway S) : Except Error α × Gateway S := Procedure.run Gateway.elapse op g

@[simp] theorem run_perform (step : Step S α) (g : Gateway S) : run (Gateway.perform step) g = step.run g := rfl

theorem run_bind (op : Op S α) (next : α → Op S β) (g : Gateway S) :
    run (op >>= next) g =
      match run op g with
      | (.ok a, g') => run (next a) g'
      | (.error e, g') => (.error e, g') := by
  refine (Procedure.run_bind Gateway.elapse op next g).trans ?_
  unfold run
  rcases Procedure.run Gateway.elapse op g with ⟨_ | _, _⟩ <;> rfl

theorem run_guarding (client : S.Party) (op : Op S α) (g : Gateway S) :
    run (Gateway.guarding client op) g =
      match run op g with
      | (.ok a, g') => (.ok a, g')
      | (.error e, g') => (.error e, Gateway.haltFor client e g') := by
  refine (Procedure.run_onError Gateway.elapse (Gateway.haltFor client) op g).trans ?_
  unfold run
  rcases Procedure.run Gateway.elapse op g with ⟨_ | _, _⟩ <;> rfl

/-- A read of the chain alone changes nothing but the reader. -/
theorem run_readChain (client vendor : S.Party) (g : Gateway S) :
    run (Gateway.readChain client vendor) g =
      let r := (ChainReader.read client vendor).run ChainReader.elapse g.chain
      (r.1.mapError .chainUnavailable, { g with chain := r.2 }) := by
  have alone : ∀ t, Procedure.run Gateway.elapse
      (Procedure.within (fun g : Gateway S => g.chain) (fun r g => { g with chain := r })
        (ChainReader.read client vendor)) t =
      (((ChainReader.read client vendor).run ChainReader.elapse t.chain).1,
        { t with chain := ((ChainReader.read client vendor).run ChainReader.elapse t.chain).2 }) :=
    Procedure.run_within (by intros; rfl) (by intros; rfl) _
  exact (Procedure.run_mapError Gateway.elapse Error.chainUnavailable _ g).trans (by rw [alone])

theorem run_refuseHalted (client : S.Party) (g : Gateway S) :
    (Gateway.refuseHalted client).run g =
      match g.gate.haltReason? client with
      | some reason => (.error (haltedError (S.partyText client) reason), g)
      | none => (.ok (), g) := by
  unfold Gateway.refuseHalted
  rw [Action.run_bind]
  change Action.run (match g.gate.haltReason? client with | some _ => _ | none => _) g = _
  cases g.gate.haltReason? client <;> rfl

/-- Whoever is alone has the turn at once. -/
theorem run_enter (client : S.Party) (g : Gateway S) :
    run (Gateway.enter client) g = (Gateway.passGate client).run g := by
  unfold Gateway.enter
  rw [run_bind, run_perform, run_refuseHalted]
  cases h : g.gate.haltReason? client with
  | none => rfl
  | some reason =>
    have refused : g.gate.pass client = .error reason := by simp [Gate.pass, h]
    unfold Gateway.passGate
    rw [Action.run_bind]
    change _ = Action.run (match g.gate.pass client with | .ok _ => _ | .error _ => _) g
    rw [refused]
    rfl

end Op
end VoucherGateway
