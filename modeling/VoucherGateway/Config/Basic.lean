import VoucherGateway.Error
import VoucherGateway.Price

/-!
# Config — the settings of a gateway

One record per concern, with the values that hold when nothing is said, and the check that settings make
sense together.
-/

namespace VoucherGateway

/-- Which collateral a new voucher is held against. -/
inductive CollateralCheck
  | full
  | riskAdjusted
  deriving DecidableEq, Repr

/-- What happens once every voucher of a client is used up. -/
inductive ExhaustionPolicy
  | reject
  | grace
  deriving DecidableEq, Repr

/-- Settings of the credit computation. -/
structure CreditConfig where
  /-- Vendors added to those the chain reports. -/
  expandRiskFactor : UInt64 := 5
  collateralCheck : CollateralCheck := .full
  exhaustionPolicy : ExhaustionPolicy := .reject
  /-- Atoms granted beyond the vouchers, under the policy `grace`. -/
  graceAtoms : Atoms := 0
  deriving DecidableEq, Repr

/-- Settings of cached chain reads. -/
structure OracleConfig where
  /-- Age in milliseconds from which an entry is stale. -/
  ttlMs : UInt64 := 5000
  /-- Reads after a first one that failed. -/
  retryAttempts : UInt32 := 2
  /-- Milliseconds before the first retry; the pause grows by as much each time. -/
  retryBackoffMs : UInt64 := 100
  /-- Entries kept. -/
  cacheCapacity : UInt64 := 10000
  deriving DecidableEq, Repr

/-- Settings of the life cycle of sessions and queries, in seconds. -/
structure EngineConfig where
  /-- The nonce before a client's first voucher. -/
  genesisNonce : UInt64 := 0
  queryDeadlineSecs : UInt64 := 300
  sessionIdleTimeoutSecs : UInt64 := 900
  queryRetentionSecs : UInt64 := 3600
  reapIntervalSecs : UInt64 := 5
  deriving DecidableEq, Repr

/-- Settings of the counters. -/
structure MetricsConfig where
  /-- File that keeps the counters. -/
  persistPath : Option String := none
  deriving DecidableEq, Repr

/-- All settings. -/
structure GatewayConfig where
  logLevel : String := "info"
  credit : CreditConfig := {}
  oracle : OracleConfig := {}
  pricing : PriceSchedule := {}
  engine : EngineConfig := {}
  metrics : MetricsConfig := {}
  deriving DecidableEq, Repr

/-- Credit beyond the vouchers. -/
def CreditConfig.grace (c : CreditConfig) : Atoms :=
  match c.exhaustionPolicy with
  | .reject => 0
  | .grace => c.graceAtoms

namespace EngineConfig

/-- Milliseconds that a query may stay locked. -/
def queryDeadline (c : EngineConfig) : Nat := c.queryDeadlineSecs.toNat * 1000

/-- Milliseconds without activity after which a session is idle. -/
def sessionIdleTimeout (c : EngineConfig) : Nat := c.sessionIdleTimeoutSecs.toNat * 1000

/-- Milliseconds that finished queries and closed sessions are kept. -/
def queryRetention (c : EngineConfig) : Nat := c.queryRetentionSecs.toNat * 1000

/-- Milliseconds between two reaper passes. -/
def reapInterval (c : EngineConfig) : Nat := c.reapIntervalSecs.toNat * 1000

end EngineConfig

/-- Refuses settings that contradict each other or leave the gateway unusable; the first fault counts. -/
def GatewayConfig.validate (c : GatewayConfig) : Except Error Unit :=
  if c.engine.queryDeadlineSecs = 0 then
    .error (.configuration "engine.query_deadline_secs must be greater than 0")
  else if c.engine.reapIntervalSecs = 0 then
    .error (.configuration "engine.reap_interval_secs must be greater than 0")
  else if c.oracle.cacheCapacity = 0 then
    .error (.configuration "oracle.cache_capacity must be greater than 0")
  else if c.credit.exhaustionPolicy = .reject ∧ 0 < c.credit.graceAtoms then
    .error (.configuration
      "credit.grace_atoms is only meaningful with exhaustion_policy = \"grace\"")
  else .ok ()

end VoucherGateway
