import VoucherGateway.Error
import VoucherGateway.Table

/-!
# Gate — one operation at a time for each client

Operations on a client enter through the client's lock and leave it when they are done.  Whoever finds the
lock taken waits in line and is served in order of arrival.  A halted client admits nobody: arrivals are
refused at once, and those in line are refused when their turn comes.  Locks are made on demand, and `prune`
drops the ones that nobody holds or waits for.
-/

namespace VoucherGateway

/-- The lock of a client. -/
structure Lock (ε : Type) where
  holder : Option ε := none
  /-- Those in line, first come first. -/
  queue : List ε := []
  deriving DecidableEq, Repr

/-- The gate of clients `κ` for entrants `ε`. -/
structure Gate (κ ε : Type) where
  /-- Halted clients and the reasons. -/
  halted : Table κ String := {}
  /-- The locks in use. -/
  locks : Table κ (Lock ε) := {}

/-- How an arrival fares. -/
inductive Arrival
  | held
  | waiting
  | refused (reason : String)
  deriving DecidableEq, Repr

/-- The error for a client that is halted for a reason. -/
def haltedError (client reason : String) : Error := .clientHalted (client ++ ": " ++ reason)

namespace Lock

variable {ε : Type}

/-- Nobody holds the lock or waits for it. -/
def isIdle (l : Lock ε) : Bool := l.holder.isNone && l.queue.isEmpty

/-- The lock after the holder has left: the first in line holds it next.  Behind a halt everybody in line
is refused in turn; they are listed. -/
def handOver (halted : Bool) : List ε → Lock ε × List ε
  | [] => ({}, [])
  | next :: rest =>
    -- nobody comes to hold the lock of a halted client
    if halted then ((handOver halted rest).1, next :: (handOver halted rest).2)
    else ({ holder := some next, queue := rest }, [])

end Lock

namespace Gate

variable {κ ε : Type} [DecidableEq κ] [DecidableEq ε]

/-- Why a client is halted, if it is. -/
def haltReason? (g : Gate κ ε) (client : κ) : Option String := g.halted.get? client

/-- Whether a client is halted. -/
def isHalted (g : Gate κ ε) (client : κ) : Bool := (g.haltReason? client).isSome

/-- Halts a client. -/
def halt (g : Gate κ ε) (client : κ) (reason : String) : Gate κ ε :=
  { g with halted := g.halted.put client reason }

/-- Lifts a halt; tells whether there was one. -/
def resume (g : Gate κ ε) (client : κ) : Bool × Gate κ ε :=
  (g.isHalted client, { g with halted := g.halted.erase client })

/-- The lock of a client. -/
def lock (g : Gate κ ε) (client : κ) : Lock ε := (g.locks.get? client).getD {}

/-- Replaces the lock of a client. -/
def setLock (g : Gate κ ε) (client : κ) (l : Lock ε) : Gate κ ε := { g with locks := g.locks.put client l }

/-- An entrant arrives at a client. -/
def enter (g : Gate κ ε) (who : ε) (client : κ) : Arrival × Gate κ ε :=
  match g.haltReason? client with
  | some reason => (.refused reason, g)
  | none =>
    let l := g.lock client
    match l.holder with
    | none => (.held, g.setLock client { l with holder := some who })
    | some _ => (.waiting, g.setLock client { l with queue := l.queue ++ [who] })

/-- The client that an entrant holds. -/
def heldBy? (g : Gate κ ε) (who : ε) : Option κ :=
  (g.locks.rows.find? fun r => r.2.holder = some who).map (·.1)

/-- The client that an entrant waits for. -/
def awaitedBy? (g : Gate κ ε) (who : ε) : Option κ :=
  (g.locks.rows.find? fun r => r.2.queue.contains who).map (·.1)

/-- A holder leaves: the client it held, and who was refused in turn. -/
def release (g : Gate κ ε) (who : ε) : Option (κ × List ε) × Gate κ ε :=
  match g.heldBy? who with
  | none => (none, g)
  | some client =>
    let next := Lock.handOver (g.isHalted client) (g.lock client).queue
    (some (client, next.2), g.setLock client next.1)

/-- Somebody in line gives up; tells whether they were in line. -/
def cancel (g : Gate κ ε) (who : ε) : Bool × Gate κ ε :=
  match g.awaitedBy? who with
  | none => (false, g)
  | some client =>
    let l := g.lock client
    (true, g.setLock client { l with queue := l.queue.filter (· ≠ who) })

/-- Drops the idle locks; answers how many. -/
def prune (g : Gate κ ε) : Nat × Gate κ ε :=
  let kept := g.locks.keep fun _ l => !l.isIdle
  (g.locks.size - kept.size, { g with locks := kept })

/-- Everybody who holds a client. -/
def holders (g : Gate κ ε) : List ε := g.locks.rows.filterMap (·.2.holder)

/-- Everybody in line. -/
def waiters (g : Gate κ ε) : List ε := g.locks.rows.flatMap (·.2.queue)

/-- Enters and leaves when nobody else is about; the error is the reason of a halt. -/
def pass (g : Gate κ ε) (client : κ) : Except String (Gate κ ε) :=
  match g.haltReason? client with
  | some reason => .error reason
  -- the lock is made for the passage and stays until it is dropped
  | none => .ok (g.setLock client (g.lock client))

end Gate
end VoucherGateway
