import VoucherGateway.Voucher.Basic

/-!
# Session — a client's leave to submit queries

A session is opened by an accepted voucher and kept alive by vouchers and queries.  Closed sessions stay on
record for a while.  Times are milliseconds.
-/

namespace VoucherGateway

variable {S : Scheme}

/-- The number of a session. -/
structure SessionId where
  number : Nat
  deriving DecidableEq, Repr

/-- The text of a session number. -/
def SessionId.text (id : SessionId) : String := "s-" ++ toString id.number

/-- A client's leave to submit queries. -/
structure Session (S : Scheme) where
  id : SessionId
  client : S.Party
  vendor : S.Party
  /-- The newest nonce accepted through the session. -/
  chainHead : UInt64
  openedAt : Nat
  /-- When a voucher or a query was last accepted. -/
  lastActivity : Nat
  closedAt : Option Nat := none

namespace Session

/-- Whether the session takes queries. -/
def isOpen (s : Session S) : Bool := s.closedAt.isNone

/-- Whether the session is open and has been quiet for a time. -/
def isIdle (s : Session S) (now timeout : Nat) : Bool := s.isOpen && decide (timeout ≤ now - s.lastActivity)

/-- Whether the session has been closed for a time. -/
def isStale (s : Session S) (now retention : Nat) : Bool :=
  s.closedAt.any fun t => decide (retention ≤ now - t)

end Session

/-- The sessions on record, in the order of their numbers. -/
structure SessionTable (S : Scheme) where
  /-- The number of the next session. -/
  next : Nat := 1
  rows : List (Session S) := []

namespace SessionTable

/-- The session of a number. -/
def find? (t : SessionTable S) (id : SessionId) : Option (Session S) := t.rows.find? (·.id = id)

/-- Changes the session of a number. -/
def update (t : SessionTable S) (id : SessionId) (f : Session S → Session S) : SessionTable S :=
  { t with rows := t.rows.map fun s => if s.id = id then f s else s }

/-- Opens a session. -/
def openSession (t : SessionTable S) (client vendor : S.Party) (chainHead : UInt64) (now : Nat) :
    SessionId × SessionTable S :=
  let s : Session S :=
    { id := ⟨t.next⟩, client := client, vendor := vendor, chainHead := chainHead
      openedAt := now, lastActivity := now }
  (s.id, { next := t.next + 1, rows := t.rows ++ [s] })

/-- Closes a session. -/
def close (t : SessionTable S) (id : SessionId) (now : Nat) : SessionTable S :=
  t.update id fun s => { s with closedAt := some now }

/-- The sessions that are open and have been quiet for a time. -/
def idle (t : SessionTable S) (now timeout : Nat) : List SessionId :=
  (t.rows.filter (·.isIdle now timeout)).map (·.id)

/-- Drops the sessions that have been closed for a time. -/
def purge (t : SessionTable S) (now retention : Nat) : SessionTable S :=
  { t with rows := t.rows.filter fun s => !s.isStale now retention }

/-- The number of open sessions. -/
def openCount (t : SessionTable S) : Nat := t.rows.countP (·.isOpen)

end SessionTable
end VoucherGateway
