import Mathlib.Logic.Relation
import VoucherGateway.Gateway.Reaper
import VoucherGateway.Proofs.Ending

/-!
# Ledger — the lasting part of a gateway, and what is written into it

Outages, cached chain entries, locks and clocks come and go.  What lasts is the *ledger*: vouchers and spent
marks, the two running costs, queries and sessions, broken-off spends, the settlement queue, halts and
counters.  Whatever an operation does to the ledger is a sequence of *entries*.  Each entry says what it
writes (`Ledger.post`) and when it may be written (`Ledger.Allows`); a *trail* is a sequence of them.
-/

namespace VoucherGateway

variable {S : Scheme}

/-- The vouchers handed over for settlement, settled ones first. -/
def ClientSettlement.handed (c : ClientSettlement S) : List (Voucher S) := c.settled.map (·.1) ++ c.unsettled

/-- Whether the estimate of a query is locked. -/
def Query.holds (q : Query S) : Bool := decide (q.state = .locked) && !q.released

/-- The lasting part of a gateway. -/
structure Ledger (S : Scheme) where
  vendor : S.Party
  config : GatewayConfig
  chains : Table (S.Party × S.Party) (VoucherChain S)
  misreported : Option UInt64
  unmarked : Table S.Party Atoms
  locked : Table S.Party Atoms
  halted : Table S.Party String
  sessions : SessionTable S
  queries : QueryTable S
  interrupted : Table S.Party (PendingSpend S)
  settlement : Settlement S
  counters : Counters

/-- The lasting part. -/
def Gateway.ledger (g : Gateway S) : Ledger S where
  vendor := g.vendor
  config := g.config
  chains := g.vouchers.chains
  misreported := g.vouchers.misreported
  unmarked := g.unmarked.costs
  locked := g.balances.costs
  halted := g.gate.halted
  sessions := g.sessions
  queries := g.queries
  interrupted := g.interrupted
  settlement := g.settlement
  counters := g.metrics.counters

/-- Counting leaves the rest of the ledger alone. -/
theorem Gateway.ledger_count (g : Gateway S) (e : Event) :
    Gateway.ledger { g with metrics := g.metrics.count e } =
      { g.ledger with counters := g.ledger.counters.count e } := by
  simp only [ledger, Metrics.counters_count]

namespace Ledger

/-- The vouchers of a client for the vendor of the ledger. -/
def chain (L : Ledger S) (client : S.Party) : VoucherChain S := (L.chains.get? (client, L.vendor)).getD {}

/-- The unmarked cost of a client. -/
def unmarkedOf (L : Ledger S) (client : S.Party) : Atoms := (L.unmarked.get? client).getD 0

/-- The locked cost of a client. -/
def lockedOf (L : Ledger S) (client : S.Party) : Atoms := (L.locked.get? client).getD 0

/-- The spend of a client that is not complete. -/
def pending (L : Ledger S) (client : S.Party) : Option (PendingSpend S) := L.interrupted.get? client

/-- The vouchers of a client handed over for settlement. -/
def handed (L : Ledger S) (client : S.Party) : List (Voucher S) := (L.settlement.of client).handed

/-- The voucher of a client that is marked spent but whose atoms are not taken off yet. -/
def unreduced (L : Ledger S) (client : S.Party) : Option (Voucher S) :=
  ((L.pending client).filter (·.marked)).map (·.voucher)

/-- The nonce before the first voucher of any client. -/
def genesis (L : Ledger S) : UInt64 := L.config.engine.genesisNonce

/-- The figures behind a client's credit. -/
def credit (L : Ledger S) (client : S.Party) : CreditState :=
  ⟨Atoms.total ((L.chain client).unspent.map (·.atoms)), L.unmarkedOf client, L.lockedOf client⟩

end Ledger

/-! ## Entries -/

/-- What is written into a ledger. -/
inductive Entry (S : Scheme)
  /-- A query number is used up. -/
  | numbered
  /-- A voucher is accepted. -/
  | recorded (v : Voucher S)
  /-- The spend of a voucher begins. -/
  | begun (client : S.Party) (v : Voucher S) (query : Option QueryId)
  /-- The voucher of a spend is marked. -/
  | marked (client : S.Party) (p : PendingSpend S)
  /-- The atoms of a marked voucher are taken off and the voucher is handed over. -/
  | completed (client : S.Party) (p : PendingSpend S)
  /-- The estimate of a new query is locked. -/
  | reserved (q : Query S)
  /-- The cost of a query is fixed. -/
  | priced (q : Query S) (cost : Atoms)
  /-- The estimate of a query is unlocked. -/
  | released (q : Query S)
  /-- The cost of a query is added to the unmarked cost. -/
  | charged (q : Query S) (cost : Atoms)
  /-- A query is settled. -/
  | settled (q : Query S) (receipt : Receipt S) (time : Nat)
  /-- A query is aborted. -/
  | aborted (q : Query S) (forced : Bool) (time : Nat)
  /-- Queries and sessions that ended long ago are forgotten. -/
  | purged (asOf retention : Nat)
  /-- A session is opened. -/
  | opened (client : S.Party) (nonce : UInt64) (time : Nat)
  /-- A session is used. -/
  | renewed (id : SessionId) (head : Option UInt64) (time : Nat)
  /-- A session is closed. -/
  | closed (id : SessionId) (time : Nat)
  /-- A request is turned down. -/
  | refused (e : Event)
  /-- A client is halted. -/
  | halted (client : S.Party) (reason : String)
  /-- A halt is lifted. -/
  | resumed (client : S.Party)
  /-- The batch of a client begins, is completed or fails. -/
  | batched (client : S.Party) (c : ClientSettlement S)

namespace Entry

/-- What an entry makes of a query on record. -/
def onRow : Entry S → Query S → Query S
  | .completed _ p, x =>
    -- the query may be off the record by now
    if p.query = some x.id then { x with consumed := x.consumed ++ [p.voucher.id] } else x
  | .priced q cost, x => if x.id = q.id then { x with actual := some cost } else x
  | .released q, x => if x.id = q.id then { x with released := true } else x
  | .charged q _, x => if x.id = q.id then { x with charged := true } else x
  | .settled q receipt time, x =>
    if x.id = q.id then { q with state := .settled, finishedAt := some time, receipt := some receipt } else x
  | .aborted q forced time, x =>
    if x.id = q.id then { q with forced := forced, state := .aborted, finishedAt := some time } else x
  | _, x => x

/-- Whether an entry leaves a query on record. -/
def keeps : Entry S → Query S → Bool
  | .purged asOf retention, x => !x.isStale asOf retention
  | _, _ => true

/-- The queries that an entry puts on record. -/
def fresh : Entry S → List (Query S)
  | .reserved q => [q]
  | _ => []

end Entry

namespace Ledger

/-- The ledger after an entry. -/
def post (L : Ledger S) : Entry S → Ledger S
  | .numbered => { L with queries := L.queries.allocate.2 }
  | .recorded v =>
    let c := (L.chains.get? (v.client, v.vendor)).getD {}
    { L with chains := L.chains.put (v.client, v.vendor) { c with vouchers := c.vouchers ++ [v] } }
  | .begun client v query =>
    { L with interrupted := L.interrupted.put client { voucher := v, query := query } }
  | .marked client p =>
    let c := (L.chains.get? (p.voucher.client, p.voucher.vendor)).getD {}
    { L with
      chains := L.chains.put (p.voucher.client, p.voucher.vendor)
        { c with spent := c.spent ++ [p.voucher.nonce] }
      interrupted := L.interrupted.modify client fun p => { p with marked := true } }
  | .completed client p =>
    { L with
      unmarked := L.unmarked.put client (L.unmarkedOf client - p.voucher.atoms)
      interrupted := L.interrupted.erase client
      queries :=
        match p.query with
        | some id => L.queries.update id fun x => { x with consumed := x.consumed ++ [p.voucher.id] }
        | none => L.queries
      settlement := (L.settlement.push p.voucher).2 }
  | .reserved q =>
    { L with
      locked := L.locked.put q.client (L.lockedOf q.client + q.estimated)
      queries := L.queries.allocate.2.insert q
      counters := L.counters.count .queryLocked }
  | .priced q cost => { L with queries := L.queries.update q.id fun x => { x with actual := some cost } }
  | .released q =>
    { L with
      locked := L.locked.put q.client (L.lockedOf q.client - q.estimated)
      queries := L.queries.update q.id fun x => { x with released := true } }
  | .charged q cost =>
    { L with
      unmarked := if 0 < cost then L.unmarked.put q.client (L.unmarkedOf q.client + cost) else L.unmarked
      queries := L.queries.update q.id fun x => { x with charged := true } }
  | .settled q receipt time =>
    { L with
      queries := L.queries.update q.id fun _ =>
        { q with state := .settled, finishedAt := some time, receipt := some receipt }
      counters := L.counters.count (.querySettled receipt.actual) }
  | .aborted q forced time =>
    { L with
      queries := L.queries.update q.id fun _ =>
        { q with forced := forced, state := .aborted, finishedAt := some time }
      counters := L.counters.count (.queryAborted forced) }
  | .purged asOf retention =>
    { L with queries := L.queries.purge asOf retention, sessions := L.sessions.purge asOf retention }
  | .opened client nonce time =>
    { L with
      sessions := (L.sessions.openSession client L.vendor nonce time).2
      counters := L.counters.count .sessionAccepted }
  | .renewed id head time =>
    { L with
      sessions := L.sessions.update id fun s =>
        { s with chainHead := head.getD s.chainHead, lastActivity := time } }
  | .closed id time =>
    { L with sessions := L.sessions.close id time, counters := L.counters.count .sessionClosed }
  | .refused e => { L with counters := L.counters.count e }
  | .halted client reason => { L with halted := L.halted.put client reason }
  | .resumed client => { L with halted := L.halted.erase client }
  | .batched client c => { L with settlement := L.settlement.put client c }

/-- Whether a query number may stand for a query of a client whose vouchers are being spent. -/
def Serves (L : Ledger S) (client : S.Party) (id : QueryId) : Prop :=
  id.number < L.queries.next ∧ ∀ q ∈ L.queries.rows, q.id = id → q.client = client ∧ q.state ≠ .settled

/-- When an entry may be written. -/
def Allows (L : Ledger S) : Entry S → Prop
  | .recorded v =>
    v.vendor = L.vendor ∧ v.nonce.toNat = L.genesis.toNat + 1 + (L.chain v.client).vouchers.length
  | .begun client v query =>
    L.pending client = none ∧ L.handed client ++ [v] <+: (L.chain client).vouchers ∧
      v.atoms ≤ L.unmarkedOf client ∧ ∀ id, query = some id → L.Serves client id
  | .marked client p => L.pending client = some p ∧ p.marked = false
  | .completed client p => L.pending client = some p ∧ p.marked = true
  | .reserved q =>
    q.id.number = L.queries.next ∧ q.state = .locked ∧ q.actual = none ∧ q.released = false ∧
      q.charged = false ∧ q.consumed = [] ∧ q.receipt = none ∧ q.finishedAt = none ∧
      q.estimated ≤ (L.credit q.client).raw L.config.credit.grace
  | .priced q _ => q ∈ L.queries.rows ∧ q.state = .locked ∧ q.actual = none
  | .released q => q ∈ L.queries.rows ∧ q.state = .locked ∧ q.released = false
  | .charged q cost =>
    q ∈ L.queries.rows ∧ q.state = .locked ∧ q.released = true ∧ q.charged = false ∧
      q.actual = some cost ∧ (L.unmarkedOf q.client).toNat + cost.toNat ≤ Atoms.top.toNat
  | .settled q receipt _ =>
    q ∈ L.queries.rows ∧ q.state = .locked ∧ q.released = true ∧ q.charged = true ∧
      L.pending q.client = none ∧ q.actual = some receipt.actual ∧ receipt.consumed = q.consumed
  | .aborted q _ _ => q ∈ L.queries.rows ∧ q.state = .locked ∧ q.released = true
  | .batched client c => c.handed = L.handed client
  | _ => True

/-- One ledger after another by an entry of a kind. -/
def Posting (allowed : Entry S → Prop) (L M : Ledger S) : Prop :=
  ∃ e, allowed e ∧ L.Allows e ∧ M = L.post e

/-- One ledger after another by entries of a kind. -/
abbrev Trail (allowed : Entry S → Prop) : Ledger S → Ledger S → Prop :=
  Relation.ReflTransGen (Posting allowed)

theorem vendor_post (L : Ledger S) (e : Entry S) : (L.post e).vendor = L.vendor := by
  cases e <;> rfl

theorem config_post (L : Ledger S) (e : Entry S) : (L.post e).config = L.config := by
  cases e <;> rfl

theorem misreported_post (L : Ledger S) (e : Entry S) : (L.post e).misreported = L.misreported := by
  cases e <;> rfl

namespace Trail

variable {allowed allowed' : Entry S → Prop} {L M : Ledger S}

theorem post {e : Entry S} (he : allowed e) (ha : L.Allows e) : Trail allowed L (L.post e) :=
  .single ⟨e, he, ha, rfl⟩

theorem widen (h : Trail allowed L M) (himp : ∀ e, allowed e → allowed' e) : Trail allowed' L M := by
  induction h with
  | refl => exact .refl
  | tail _ hstep ih =>
    rcases hstep with ⟨e, he, ha, hM⟩
    exact ih.tail ⟨e, himp e he, ha, hM⟩

theorem config (h : Trail allowed L M) : M.config = L.config := by
  induction h with
  | refl => rfl
  | tail _ hstep ih =>
    rcases hstep with ⟨e, -, -, rfl⟩
    exact (config_post _ e).trans ih

theorem vendor (h : Trail allowed L M) : M.vendor = L.vendor := by
  induction h with
  | refl => rfl
  | tail _ hstep ih =>
    rcases hstep with ⟨e, -, -, rfl⟩
    exact (vendor_post _ e).trans ih

end Trail

/-! ## What an entry does to the queries on record -/

theorem rows_post (L : Ledger S) (e : Entry S) :
    (L.post e).queries.rows =
      (L.queries.rows.filter fun x => e.keeps x).map (fun x => e.onRow x) ++ e.fresh := by
  have all : ∀ rows : List (Query S), rows.filter (fun _ => true) = rows := fun _ =>
    List.filter_eq_self.2 fun _ _ => rfl
  cases e with
  | completed client p =>
    cases hq : p.query with
    | none => simp [post, Entry.onRow, Entry.keeps, Entry.fresh, hq, all]
    | some id => simp [post, Entry.onRow, Entry.keeps, Entry.fresh, hq, all, QueryTable.update, eq_comm]
  | _ =>
    simp [post, Entry.onRow, Entry.keeps, Entry.fresh, all, QueryTable.update, QueryTable.insert,
      QueryTable.allocate, QueryTable.purge]

theorem next_post (L : Ledger S) (e : Entry S) : L.queries.next ≤ (L.post e).queries.next := by
  cases e with
  | completed client p => cases hq : p.query <;> simp [post, hq, QueryTable.update]
  | _ => simp [post, QueryTable.update, QueryTable.insert, QueryTable.allocate, QueryTable.purge]

end Ledger
end VoucherGateway
