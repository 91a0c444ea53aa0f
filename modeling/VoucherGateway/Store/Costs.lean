import VoucherGateway.Store.Outage
import VoucherGateway.Voucher.Basic

/-!
# Cost store — one running cost for each client

Two stores have this shape.  The *unmarked* store holds cost charged but not yet taken off a whole voucher,
the *balance* store holds cost locked for queries that still run.  Both count exactly: an addition that
would overflow and a subtraction that would go negative are violations and change nothing.
-/

namespace VoucherGateway

variable {S : Scheme}

/-- The kinds of calls to a cost store. -/
inductive CostCall
  | read
  | add
  | subtract
  | reset
  deriving DecidableEq, Repr

/-- How a cost store speaks of itself. -/
structure CostBook where
  name : String
  callText : CostCall → String
  cost : RunningCost
  negative : String → Atoms → Atoms → Violation

/-- The store of unmarked cost. -/
def CostBook.unmarked : CostBook where
  name := "unmarked cost store"
  callText
    | .read => "get"
    | .add => "add"
    | .subtract => "reduce"
    | .reset => "reset"
  cost := .unmarked
  negative := .negativeUnmarked

/-- The store of locked cost. -/
def CostBook.balances : CostBook where
  name := "balance store"
  callText
    | .read => "locked"
    | .add => "lock"
    | .subtract => "release"
    | .reset => "reset"
  cost := .locked
  negative := .negativeLocked

/-- A running cost for each client. -/
structure CostStore (S : Scheme) where
  costs : Table S.Party Atoms := {}
  outage : Outage CostCall := {}

namespace CostStore

/-- A step on a cost store. -/
abbrev Act (S : Scheme) (α : Type) := Action (CostStore S) Error α

/-- The cost of a client. -/
def cost (s : CostStore S) (client : S.Party) : Atoms := (s.costs.get? client).getD 0

/-- Replaces the cost of a client. -/
def setCost (s : CostStore S) (client : S.Party) (atoms : Atoms) : CostStore S :=
  { s with costs := s.costs.put client atoms }

/-- Fails if the store does not answer a call of a kind. -/
def check (book : CostBook) (kind : CostCall) : Act S Unit :=
  Action.within (·.outage) (fun o s => { s with outage := o })
    (Outage.check book.name book.callText kind)

/-- The cost of a client. -/
def read (book : CostBook) (client : S.Party) : Act S Atoms := do
  check book .read
  Action.view (·.cost client)

/-- Adds to the cost of a client; answers the sum. -/
def add (book : CostBook) (client : S.Party) (atoms : Atoms) : Act S Atoms := do
  check book .add
  let s ← get
  match Atoms.add? (s.cost client) atoms with
  | some sum =>
    set (s.setCost client sum)
    pure sum
  | none => throw (.violation (.overflow book.cost (S.partyText client) (s.cost client) atoms))

/-- Takes from the cost of a client; answers the rest. -/
def subtract (book : CostBook) (client : S.Party) (atoms : Atoms) : Act S Atoms := do
  check book .subtract
  let s ← get
  match Atoms.sub? (s.cost client) atoms with
  | some rest =>
    set (s.setCost client rest)
    pure rest
  | none => throw (.violation (book.negative (S.partyText client) (s.cost client) atoms))

/-- Forgets the cost of a client. -/
def reset (book : CostBook) (client : S.Party) : Act S Unit := do
  check book .reset
  Action.update fun s => { s with costs := s.costs.erase client }

theorem cost_setCost (s : CostStore S) (client client' : S.Party) (atoms : Atoms) :
    (s.setCost client atoms).cost client' = if client' = client then atoms else s.cost client' := by
  unfold cost setCost
  rw [Table.get?_put]
  split <;> rfl

end CostStore
end VoucherGateway
