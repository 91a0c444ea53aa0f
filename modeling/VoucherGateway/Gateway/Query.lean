import VoucherGateway.Credit
import VoucherGateway.Error
import VoucherGateway.Gateway.Session

/-!
# Query — work that a client pays for

A query locks its estimated cost, is settled at its actual cost or aborted, and stays on record for a while.
Settling may break off after any of its steps; the flags of a query say which steps are behind it.
-/

namespace VoucherGateway

variable {S : Scheme}

/-- The number of a query. -/
structure QueryId where
  number : Nat
  deriving DecidableEq, Repr

/-- The text of a query number. -/
def QueryId.text (id : QueryId) : String := "q-" ++ toString id.number

/-- What a client is told about a settled query. -/
structure Receipt (S : Scheme) where
  query : QueryId
  session : SessionId
  estimated : Atoms
  actual : Atoms
  /-- The vouchers that the query used up. -/
  consumed : List (VoucherId S)
  /-- The voucher that is used in part. -/
  partlyUsed : Option (VoucherId S)
  creditAfter : CreditState

/-- Work that a client pays for. -/
structure Query (S : Scheme) where
  id : QueryId
  session : SessionId
  client : S.Party
  estimated : Atoms
  /-- The cost of the usage first reported. -/
  actual : Option Atoms := none
  state : QueryState := .pending
  lockedAt : Nat
  finishedAt : Option Nat := none
  /-- Whether the query was aborted for being overdue. -/
  forced : Bool := false
  /-- Whether the estimate is unlocked again. -/
  released : Bool := false
  /-- Whether the actual cost is added to the client's unmarked cost. -/
  charged : Bool := false
  /-- The vouchers used up so far. -/
  consumed : List (VoucherId S) := []
  receipt : Option (Receipt S) := none

namespace Query

/-- The query in another state; a final state is stamped with the time. -/
def moveTo (q : Query S) (target : QueryState) (now : Nat) : Except Error (Query S) :=
  if q.state.canMoveTo target then
    .ok { q with state := target, finishedAt := if target.isFinal then some now else q.finishedAt }
  else .error (.violation (.queryTransition q.id.text q.state target))

/-- Whether the query has been locked for a time. -/
def isOverdue (q : Query S) (now deadline : Nat) : Bool :=
  decide (q.state = .locked) && decide (deadline ≤ now - q.lockedAt)

/-- Whether the query has been finished for a time. -/
def isStale (q : Query S) (now retention : Nat) : Bool :=
  q.finishedAt.any fun t => decide (retention ≤ now - t)

end Query

/-- The queries on record, in the order of their numbers. -/
structure QueryTable (S : Scheme) where
  /-- The number of the next query. -/
  next : Nat := 1
  rows : List (Query S) := []

namespace QueryTable

/-- The query of a number. -/
def find? (t : QueryTable S) (id : QueryId) : Option (Query S) := t.rows.find? (·.id = id)

/-- Changes the query of a number. -/
def update (t : QueryTable S) (id : QueryId) (f : Query S → Query S) : QueryTable S :=
  { t with rows := t.rows.map fun q => if q.id = id then f q else q }

/-- A number for a new query. -/
def allocate (t : QueryTable S) : QueryId × QueryTable S := (⟨t.next⟩, { t with next := t.next + 1 })

/-- Records a query. -/
def insert (t : QueryTable S) (q : Query S) : QueryTable S := { t with rows := t.rows ++ [q] }

/-- The locked queries of a client. -/
def lockedOf (t : QueryTable S) (client : S.Party) : List (Query S) :=
  t.rows.filter fun q => decide (q.state = .locked) && decide (q.client = client)

/-- Whether a session has a locked query. -/
def hasLockedIn (t : QueryTable S) (session : SessionId) : Bool :=
  t.rows.any fun q => decide (q.session = session) && decide (q.state = .locked)

/-- The queries that have been locked for a time. -/
def overdue (t : QueryTable S) (now deadline : Nat) : List QueryId :=
  (t.rows.filter (·.isOverdue now deadline)).map (·.id)

/-- Drops the queries that have been finished for a time. -/
def purge (t : QueryTable S) (now retention : Nat) : QueryTable S :=
  { t with rows := t.rows.filter fun q => !q.isStale now retention }

end QueryTable
end VoucherGateway
