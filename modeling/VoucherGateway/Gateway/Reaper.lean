import VoucherGateway.Gateway.Operations

/-!
# Reaper — ending what has lasted too long

A pass as of a given time aborts overdue queries, closes idle sessions and forgets what has been finished for
long enough.  Halted clients are left as they are.  An aborted query is stamped with the gateway's own time,
a closed session with the time of the pass.  A pass waits for its turn with each client it works on.
-/

namespace VoucherGateway

variable {S : Scheme}

/-- What a pass did. -/
structure ReapReport where
  forceAborted : Nat
  sessionsClosed : Nat
  queriesPurged : Nat
  sessionsPurged : Nat
  deriving DecidableEq, Repr

namespace Gateway

/-- Does something for each item in turn; counts the times it succeeds. -/
def countSuccesses {ι : Type} (act : ι → Op S Bool) : List ι → Op S Nat
  | [] => pure 0
  | i :: rest => do
    let done ← act i
    let others ← countSuccesses act rest
    pure (if done then others + 1 else others)

/-- Aborts an overdue query, if its client's gate and the store let it. -/
def forceAbort (id : QueryId) : Op S Bool := do
  let outcome ← (abort id true).attempt
  pure outcome.isOk

/-- Closes a session as of a time if it is idle then and has no locked query. -/
def closeIdle (asOf : Nat) (id : SessionId) : Op S Bool := do
  let g ← get
  match g.sessions.find? id with
  | none => pure false
  | some s =>
    match ← (enter s.client).attempt with
    | .error _ => pure false
    | .ok () =>
      let g ← get
      let idle := (g.sessions.find? id).any (·.isIdle asOf g.config.engine.sessionIdleTimeout)
      if idle && !g.queries.hasLockedIn id then
        set { g with sessions := g.sessions.close id asOf, metrics := g.metrics.count .sessionClosed }
        pure true
      else pure false

/-- Forgets the queries finished and the sessions closed long before a time; counts both. -/
def purge (asOf : Nat) : Step S (Nat × Nat) := do
  let g ← get
  let retention := g.config.engine.queryRetention
  let queries := g.queries.purge asOf retention
  let sessions := g.sessions.purge asOf retention
  set { g with queries := queries, sessions := sessions }
  pure (g.queries.rows.length - queries.rows.length, g.sessions.rows.length - sessions.rows.length)

/-- One pass as of a time. -/
def reap (asOf : Nat) : Op S ReapReport := do
  let g ← get
  let aborted ← countSuccesses forceAbort (g.queries.overdue asOf g.config.engine.queryDeadline)
  -- aborted queries no longer keep their sessions open
  let g ← get
  let closed ← countSuccesses (closeIdle asOf)
    (g.sessions.idle asOf g.config.engine.sessionIdleTimeout)
  let purged ← perform (purge asOf)
  -- locks made on the way are dropped, and the counters are written whatever was done
  modify fun g => { g with gate := g.gate.prune.2, metrics := g.metrics.flush }
  pure ⟨aborted, closed, purged.1, purged.2⟩

end Gateway
end VoucherGateway
