import VoucherGateway.Action
import VoucherGateway.Config.Basic
import VoucherGateway.Text.Hex
import VoucherGateway.Toml.Document

/-!
# Config file — settings as a file

A settings file has one table per concern and may leave out whatever keeps its default; entries that no
setting goes by are passed over.  A file that cannot be read as settings is refused as a whole, and so are
settings that contradict each other.
-/

namespace VoucherGateway

open Toml (Document Scalar Value)

/-! ## Names of choices -/

namespace CollateralCheck

/-- The name in a file. -/
def text : CollateralCheck → String
  | .full => "full"
  | .riskAdjusted => "risk-adjusted"

/-- The choice of this name. -/
def ofText? (s : String) : Option CollateralCheck := [full, riskAdjusted].find? (·.text = s)

theorem ofText?_text (c : CollateralCheck) : ofText? c.text = some c := by cases c <;> decide

end CollateralCheck

namespace ExhaustionPolicy

/-- The name in a file. -/
def text : ExhaustionPolicy → String
  | .reject => "reject"
  | .grace => "grace"

/-- The choice of this name. -/
def ofText? (s : String) : Option ExhaustionPolicy := [reject, grace].find? (·.text = s)

theorem ofText?_text (p : ExhaustionPolicy) : ofText? p.text = some p := by cases p <;> decide

end ExhaustionPolicy

namespace Rounding

/-- The name in a file. -/
def text : Rounding → String
  | .up => "up"
  | .down => "down"

/-- The choice of this name. -/
def ofText? (s : String) : Option Rounding := [up, down].find? (·.text = s)

theorem ofText?_text (r : Rounding) : ofText? r.text = some r := by cases r <;> decide

end Rounding

/-! ## Reading -/

/-- A setting: the default where the file says nothing. -/
def setting {α : Type} (read : Value → Option α) (default : α) : Option Value → Option α
  | none => some default
  | some v => read v

namespace CreditConfig

/-- Reads the settings of the credit computation. -/
def ofValue? (v : Value) : Option CreditConfig := do
  let get ← v.fields? ["expand_risk_factor", "collateral_check", "exhaustion_policy", "grace_atoms"]
  let default : CreditConfig := {}
  return {
    expandRiskFactor := ← setting Value.word? default.expandRiskFactor (get "expand_risk_factor")
    collateralCheck := ←
      setting (·.choice?.bind CollateralCheck.ofText?) default.collateralCheck (get "collateral_check")
    exhaustionPolicy := ←
      setting (·.choice?.bind ExhaustionPolicy.ofText?) default.exhaustionPolicy (get "exhaustion_policy")
    graceAtoms := ← setting Value.word? default.graceAtoms (get "grace_atoms") }

end CreditConfig

namespace OracleConfig

/-- Reads the settings of cached chain reads. -/
def ofValue? (v : Value) : Option OracleConfig := do
  let get ← v.fields? ["ttl_ms", "retry_attempts", "retry_backoff_ms", "cache_capacity"]
  let default : OracleConfig := {}
  return {
    ttlMs := ← setting Value.word? default.ttlMs (get "ttl_ms")
    retryAttempts := ← setting Value.halfWord? default.retryAttempts (get "retry_attempts")
    retryBackoffMs := ← setting Value.word? default.retryBackoffMs (get "retry_backoff_ms")
    cacheCapacity := ← setting Value.word? default.cacheCapacity (get "cache_capacity") }

end OracleConfig

namespace PriceSchedule

/-- Reads the prices. -/
def ofValue? (v : Value) : Option PriceSchedule := do
  let get ← v.fields? ["hour_price", "gigabyte_price", "rounding"]
  let default : PriceSchedule := {}
  return {
    hourPrice := ← setting Value.word? default.hourPrice (get "hour_price")
    gigabytePrice := ← setting Value.word? default.gigabytePrice (get "gigabyte_price")
    rounding := ← setting (·.choice?.bind Rounding.ofText?) default.rounding (get "rounding") }

end PriceSchedule

namespace EngineConfig

/-- Reads the settings of the life cycle. -/
def ofValue? (v : Value) : Option EngineConfig := do
  let get ← v.fields? ["genesis_nonce", "query_deadline_secs", "session_idle_timeout_secs",
    "query_retention_secs", "reap_interval_secs"]
  let default : EngineConfig := {}
  return {
    genesisNonce := ← setting Value.word? default.genesisNonce (get "genesis_nonce")
    queryDeadlineSecs := ← setting Value.word? default.queryDeadlineSecs (get "query_deadline_secs")
    sessionIdleTimeoutSecs := ←
      setting Value.word? default.sessionIdleTimeoutSecs (get "session_idle_timeout_secs")
    queryRetentionSecs := ← setting Value.word? default.queryRetentionSecs (get "query_retention_secs")
    reapIntervalSecs := ← setting Value.word? default.reapIntervalSecs (get "reap_interval_secs") }

end EngineConfig

namespace MetricsConfig

/-- Reads the settings of the counters. -/
def ofValue? (v : Value) : Option MetricsConfig := do
  let get ← v.fields? ["persist_path"]
  return { persistPath := ← setting (·.text?.map some) none (get "persist_path") }

end MetricsConfig

namespace GatewayConfig

/-- Reads all settings. -/
def ofValue? (v : Value) : Option GatewayConfig := do
  let get ← v.fields? ["log_level", "credit", "oracle", "pricing", "engine", "metrics"]
  let default : GatewayConfig := {}
  return {
    logLevel := ← setting Value.text? default.logLevel (get "log_level")
    credit := ← setting CreditConfig.ofValue? default.credit (get "credit")
    oracle := ← setting OracleConfig.ofValue? default.oracle (get "oracle")
    pricing := ← setting PriceSchedule.ofValue? default.pricing (get "pricing")
    engine := ← setting EngineConfig.ofValue? default.engine (get "engine")
    metrics := ← setting MetricsConfig.ofValue? default.metrics (get "metrics") }

/-- What is said of a file that holds no settings, and of settings that no file can hold. -/
def formatError : Error := .configuration "toml"

/-- Reads settings from the text of a file, and checks them. -/
def ofText (text : String) : Except Error GatewayConfig :=
  match (Toml.parse text).bind ofValue? with
  | none => .error formatError
  | some config => config.validate.map fun _ => config

/-- Reads settings from a file; there may be none. -/
def load : Option Bytes → Except Error GatewayConfig
  | none => .error (.file "No such file or directory (os error 2)")
  | some bytes =>
    match String.fromUTF8? (ByteArray.mk bytes.toArray) with
    | none => .error (.file "stream did not contain valid UTF-8")
    | some text => ofText text

end GatewayConfig

/-! ## Writing -/

/-- The entries of the credit computation. -/
def CreditConfig.entries (c : CreditConfig) : List (String × Scalar) :=
  [("expand_risk_factor", .integer c.expandRiskFactor.toNat), ("collateral_check", .text c.collateralCheck.text),
    ("exhaustion_policy", .text c.exhaustionPolicy.text), ("grace_atoms", .integer c.graceAtoms.toNat)]

/-- The entries of cached chain reads. -/
def OracleConfig.entries (c : OracleConfig) : List (String × Scalar) :=
  [("ttl_ms", .integer c.ttlMs.toNat), ("retry_attempts", .integer c.retryAttempts.toNat),
    ("retry_backoff_ms", .integer c.retryBackoffMs.toNat), ("cache_capacity", .integer c.cacheCapacity.toNat)]

/-- The entries of the prices. -/
def PriceSchedule.entries (c : PriceSchedule) : List (String × Scalar) :=
  [("hour_price", .integer c.hourPrice.toNat), ("gigabyte_price", .integer c.gigabytePrice.toNat),
    ("rounding", .text c.rounding.text)]

/-- The entries of the life cycle. -/
def EngineConfig.entries (c : EngineConfig) : List (String × Scalar) :=
  [("genesis_nonce", .integer c.genesisNonce.toNat), ("query_deadline_secs", .integer c.queryDeadlineSecs.toNat),
    ("session_idle_timeout_secs", .integer c.sessionIdleTimeoutSecs.toNat),
    ("query_retention_secs", .integer c.queryRetentionSecs.toNat),
    ("reap_interval_secs", .integer c.reapIntervalSecs.toNat)]

/-- The entries of the counters: none if they are kept nowhere. -/
def MetricsConfig.entries (c : MetricsConfig) : List (String × Scalar) :=
  c.persistPath.toList.map fun path => ("persist_path", .text path)

namespace GatewayConfig

/-- The file that holds these settings. -/
def document (c : GatewayConfig) : Document where
  top := [("log_level", .text c.logLevel)]
  tables := [("credit", c.credit.entries), ("oracle", c.oracle.entries), ("pricing", c.pricing.entries),
    ("engine", c.engine.entries), ("metrics", c.metrics.entries)]

/-- The text of the file that holds these settings, if one can. -/
def render (c : GatewayConfig) : Except Error String :=
  if c.document.isWritable then .ok c.document.write else .error formatError

/-- Saves settings in a file.  What the file was before stays if they cannot be written. -/
def save (c : GatewayConfig) : Action (Option Bytes) Error Unit := do
  let text ← Action.give c.render
  set (some (Hex.textBytes text.toList))

end GatewayConfig
end VoucherGateway
