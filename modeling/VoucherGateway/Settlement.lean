import VoucherGateway.Table
import VoucherGateway.Voucher.Basic

/-!
# Settlement — handing spent vouchers on

Spent vouchers wait, in the order of their nonces, to be settled downstream.  A batch takes everything that
waits; until it is completed or fails, no other batch of the client begins.  A completed batch moves exactly
the vouchers it took to the settled ones, under its reference, whatever was queued meanwhile.
-/

namespace VoucherGateway

variable {S : Scheme}

/-- The spent vouchers of one client. -/
structure ClientSettlement (S : Scheme) where
  unsettled : List (Voucher S) := []
  /-- Settled vouchers and the references of their batches. -/
  settled : List (Voucher S × String) := []
  /-- The newest nonce of the batch under way. -/
  inFlight : Option UInt64 := none

/-- A batch as it is handed out. -/
structure SettlementBatch (S : Scheme) where
  vouchers : List (Voucher S)
  upTo : UInt64
  total : Atoms

namespace ClientSettlement

/-- The newest nonce queued or settled. -/
def newest? (c : ClientSettlement S) : Option UInt64 :=
  match c.unsettled.getLast? with
  | some v => some v.nonce
  | none => c.settled.getLast?.map (·.1.nonce)

/-- Queues a voucher; `false` if it is not newer than everything queued before. -/
def push (c : ClientSettlement S) (v : Voucher S) : Bool × ClientSettlement S :=
  if c.newest?.any (v.nonce ≤ ·) then (false, c)
  else (true, { c with unsettled := c.unsettled ++ [v] })

/-- Begins a batch of everything that waits. -/
def begin? (c : ClientSettlement S) : Option (SettlementBatch S × ClientSettlement S) :=
  match c.inFlight, c.unsettled.getLast? with
  | none, some newest =>
    some (⟨c.unsettled, newest.nonce, Atoms.total (c.unsettled.map (·.atoms))⟩,
      { c with inFlight := some newest.nonce })
  | _, _ => none

/-- Completes the batch under way; answers how many vouchers it settled. -/
def complete? (c : ClientSettlement S) (reference : String) : Option (Nat × ClientSettlement S) :=
  c.inFlight.map fun upTo =>
    -- vouchers queued since the batch began are newer than all of it, and stay
    let done := c.unsettled.takeWhile (·.nonce ≤ upTo)
    (done.length,
      { unsettled := c.unsettled.dropWhile (·.nonce ≤ upTo)
        settled := c.settled ++ done.map (·, reference)
        inFlight := none })

/-- Gives the batch under way up; tells whether there was one. -/
def fail (c : ClientSettlement S) : Bool × ClientSettlement S :=
  (c.inFlight.isSome, { c with inFlight := none })

end ClientSettlement

/-- The spent vouchers of all clients. -/
structure Settlement (S : Scheme) where
  clients : Table S.Party (ClientSettlement S) := {}

namespace Settlement

/-- The spent vouchers of a client. -/
def of (q : Settlement S) (client : S.Party) : ClientSettlement S := (q.clients.get? client).getD {}

/-- Replaces the spent vouchers of a client. -/
def put (q : Settlement S) (client : S.Party) (c : ClientSettlement S) : Settlement S :=
  ⟨q.clients.put client c⟩

/-- Queues a voucher of its client. -/
def push (q : Settlement S) (v : Voucher S) : Bool × Settlement S :=
  (((q.of v.client).push v).1, q.put v.client ((q.of v.client).push v).2)

/-- Begins a batch of a client. -/
def begin (q : Settlement S) (client : S.Party) : Option (SettlementBatch S) × Settlement S :=
  match (q.of client).begin? with
  | some (batch, c) => (some batch, q.put client c)
  | none => (none, q)

/-- Completes the batch of a client. -/
def complete (q : Settlement S) (client : S.Party) (reference : String) : Option Nat × Settlement S :=
  match (q.of client).complete? reference with
  | some (count, c) => (some count, q.put client c)
  | none => (none, q)

/-- Gives the batch of a client up. -/
def fail (q : Settlement S) (client : S.Party) : Bool × Settlement S :=
  (((q.of client).fail).1, q.put client (q.of client).fail.2)

theorem of_put (q : Settlement S) (client client' : S.Party) (c : ClientSettlement S) :
    (q.put client c).of client' = if client' = client then c else q.of client' := by
  unfold of put
  rw [Table.get?_put]
  split <;> rfl

end Settlement
end VoucherGateway
