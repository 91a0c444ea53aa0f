import VoucherGateway.Config.File
import VoucherGateway.Proofs.Settings.Documents

/-!
# Round trip — settings that are saved and loaded

A file holds settings whose numbers fit in 64 bits with a sign, and has an entry for every one of them.

Main statement: `load_save`.
-/

namespace VoucherGateway

open Toml (Document Scalar Value)

/-! ## Entries -/

/-- The table of these entries. -/
def entryTable (entries : List (String × Scalar)) : Value := .table (entries.map fun e => (e.1, .scalar e.2))

namespace GatewayConfig

/-- The numbers of these settings. -/
def integers (c : GatewayConfig) : List Nat :=
  [c.credit.expandRiskFactor.toNat, c.credit.graceAtoms.toNat, c.oracle.ttlMs.toNat, c.oracle.retryAttempts.toNat,
    c.oracle.retryBackoffMs.toNat, c.oracle.cacheCapacity.toNat, c.pricing.hourPrice.toNat,
    c.pricing.gigabytePrice.toNat, c.engine.genesisNonce.toNat, c.engine.queryDeadlineSecs.toNat,
    c.engine.sessionIdleTimeoutSecs.toNat, c.engine.queryRetentionSecs.toNat, c.engine.reapIntervalSecs.toNat]

/-- The largest number that a file can hold. -/
def largestNumber : Nat := 0x7FFFFFFFFFFFFFFF

section Writing

variable {c : GatewayConfig} {n : Nat}

theorem isSignedWord_iff : Toml.isSignedWord n = true ↔ n ≤ largestNumber := by
  simp only [Toml.isSignedWord, largestNumber, Bool.and_eq_true, decide_eq_true_eq]
  omega

/-- A file holds the settings if it can hold every number. -/
theorem isWritable_iff : c.document.isWritable = true ↔ ∀ n ∈ c.integers, n ≤ largestNumber := by
  have hsmall : c.oracle.retryAttempts.toNat ≤ largestNumber := by
    have hlt := c.oracle.retryAttempts.toNat_lt
    unfold largestNumber
    omega
  simp [Document.isWritable, Scalar.isWritable, isSignedWord_iff, hsmall, integers, document, CreditConfig.entries,
    OracleConfig.entries, PriceSchedule.entries, EngineConfig.entries, MetricsConfig.entries, and_assoc]

theorem sound_of_names {entries : List (String × Scalar)} (names : List String)
    (hnames : entries.map Prod.fst = names) (hgood : (∀ name ∈ names, Toml.isBareName name = true) ∧ names.Nodup)
    (hscalars : ∀ e ∈ entries, e.2.Sound) : Toml.SoundEntries entries where
  bare := hnames ▸ hgood.1
  scalars := hscalars
  keys := hnames ▸ hgood.2

/-- If the numbers fit, the file reads back. -/
theorem sound_document (h : ∀ n ∈ c.integers, n ≤ largestNumber) : c.document.Sound := by
  have hfits : ∀ n : Nat, n ∈ c.integers → (Scalar.integer n).Sound := fun n hn => isSignedWord_iff.2 (h n hn)
  -- the names are the same in every file, so that it can be decided once what they need
  have hcredit : Toml.SoundEntries c.credit.entries := by
    refine sound_of_names ["expand_risk_factor", "collateral_check", "exhaustion_policy", "grace_atoms"] rfl
      (by decide) ?_
    simp only [CreditConfig.entries, List.forall_mem_cons]
    exact ⟨hfits _ (by simp [integers]), trivial, trivial, hfits _ (by simp [integers]), nofun⟩
  have horacle : Toml.SoundEntries c.oracle.entries := by
    refine sound_of_names ["ttl_ms", "retry_attempts", "retry_backoff_ms", "cache_capacity"] rfl (by decide) ?_
    simp only [OracleConfig.entries, List.forall_mem_cons]
    exact ⟨hfits _ (by simp [integers]), hfits _ (by simp [integers]), hfits _ (by simp [integers]),
      hfits _ (by simp [integers]), nofun⟩
  have hpricing : Toml.SoundEntries c.pricing.entries := by
    refine sound_of_names ["hour_price", "gigabyte_price", "rounding"] rfl (by decide) ?_
    simp only [PriceSchedule.entries, List.forall_mem_cons]
    exact ⟨hfits _ (by simp [integers]), hfits _ (by simp [integers]), trivial, nofun⟩
  have hengine : Toml.SoundEntries c.engine.entries := by
    refine sound_of_names ["genesis_nonce", "query_deadline_secs", "session_idle_timeout_secs",
      "query_retention_secs", "reap_interval_secs"] rfl (by decide) ?_
    simp only [EngineConfig.entries, List.forall_mem_cons]
    exact ⟨hfits _ (by simp [integers]), hfits _ (by simp [integers]), hfits _ (by simp [integers]),
      hfits _ (by simp [integers]), hfits _ (by simp [integers]), nofun⟩
  have hmetrics : Toml.SoundEntries c.metrics.entries := by
    unfold MetricsConfig.entries
    cases c.metrics.persistPath with
    | none => exact sound_of_names [] rfl (by decide) nofun
    | some path =>
      refine sound_of_names ["persist_path"] rfl (by decide) fun e he => ?_
      rw [List.mem_singleton.1 he]
      trivial
  exact {
    top := by
      refine sound_of_names ["log_level"] rfl (by decide) fun e he => ?_
      rw [List.mem_singleton.1 he]
      trivial
    headings := (by decide : ∀ name ∈ ["credit", "oracle", "pricing", "engine", "metrics"],
      Toml.isBareName name = true)
    entries := by
      simp only [document, List.forall_mem_cons]
      exact ⟨hcredit, horacle, hpricing, hengine, hmetrics, nofun⟩
    names := (by decide : ["log_level", "credit", "oracle", "pricing", "engine", "metrics"].Nodup) }

end Writing

/-! ## Reading -/

section Reading

theorem word?_toNat (n : UInt64) : Value.word? (.scalar (.integer n.toNat)) = some n := by
  have hle : n.toNat ≤ 0xFFFFFFFFFFFFFFFF := by
    have hlt := n.toNat_lt
    omega
  simp [Value.word?, Value.upTo?, hle]

theorem halfWord?_toNat (n : UInt32) : Value.halfWord? (.scalar (.integer n.toNat)) = some n := by
  have hle : n.toNat ≤ 0xFFFFFFFF := by
    have hlt := n.toNat_lt
    omega
  simp [Value.halfWord?, Value.upTo?, hle]

theorem choice?_text (s : String) : Value.choice? (.scalar (.text s)) = some s := rfl

theorem lookup_cons_of_ne {key other : String} (h : key ≠ other) (v : Value) (es : List (String × Value)) :
    ((other, v) :: es).lookup key = es.lookup key := by
  rw [List.lookup_cons, beq_false_of_ne h]

theorem ofValue?_credit (c : CreditConfig) : CreditConfig.ofValue? (entryTable c.entries) = some c := by
  simp only [CreditConfig.ofValue?, CreditConfig.entries, entryTable, List.map_cons, List.map_nil, Value.fields?,
    List.lookup_cons_self, lookup_cons_of_ne, ne_eq, String.reduceEq, not_false_eq_true, setting, word?_toNat,
    choice?_text, CollateralCheck.ofText?_text, ExhaustionPolicy.ofText?_text, Option.bind_eq_bind,
    Option.bind_some, Option.pure_def]

theorem ofValue?_oracle (c : OracleConfig) : OracleConfig.ofValue? (entryTable c.entries) = some c := by
  simp only [OracleConfig.ofValue?, OracleConfig.entries, entryTable, List.map_cons, List.map_nil, Value.fields?,
    List.lookup_cons_self, lookup_cons_of_ne, ne_eq, String.reduceEq, not_false_eq_true, setting, word?_toNat,
    halfWord?_toNat, Option.bind_eq_bind, Option.bind_some, Option.pure_def]

theorem ofValue?_pricing (c : PriceSchedule) : PriceSchedule.ofValue? (entryTable c.entries) = some c := by
  simp only [PriceSchedule.ofValue?, PriceSchedule.entries, entryTable, List.map_cons, List.map_nil, Value.fields?,
    List.lookup_cons_self, lookup_cons_of_ne, ne_eq, String.reduceEq, not_false_eq_true, setting, word?_toNat,
    choice?_text, Rounding.ofText?_text, Option.bind_eq_bind, Option.bind_some, Option.pure_def]

theorem ofValue?_engine (c : EngineConfig) : EngineConfig.ofValue? (entryTable c.entries) = some c := by
  simp only [EngineConfig.ofValue?, EngineConfig.entries, entryTable, List.map_cons, List.map_nil, Value.fields?,
    List.lookup_cons_self, lookup_cons_of_ne, ne_eq, String.reduceEq, not_false_eq_true, setting, word?_toNat,
    Option.bind_eq_bind, Option.bind_some, Option.pure_def]

theorem ofValue?_metrics (c : MetricsConfig) : MetricsConfig.ofValue? (entryTable c.entries) = some c := by
  obtain ⟨path⟩ := c
  cases path with
  | none => rfl
  | some path => rfl

/-- No setting is lost in the file. -/
theorem ofValue?_document (c : GatewayConfig) : GatewayConfig.ofValue? c.document.value = some c := by
  have hvalue : c.document.value = .table [("log_level", .scalar (.text c.logLevel)),
      ("credit", entryTable c.credit.entries), ("oracle", entryTable c.oracle.entries),
      ("pricing", entryTable c.pricing.entries), ("engine", entryTable c.engine.entries),
      ("metrics", entryTable c.metrics.entries)] := rfl
  rw [hvalue]
  simp only [GatewayConfig.ofValue?, Value.fields?, List.lookup_cons_self, lookup_cons_of_ne, ne_eq, String.reduceEq,
    not_false_eq_true, setting, Value.text?, ofValue?_credit, ofValue?_oracle, ofValue?_pricing, ofValue?_engine,
    ofValue?_metrics, Option.bind_eq_bind, Option.bind_some, Option.pure_def]

/-- The bytes of a text are the text. -/
theorem fromUTF8?_textBytes (text : String) :
    String.fromUTF8? (ByteArray.mk (Hex.textBytes text.toList).toArray) = some text := by
  have hbytes : ByteArray.mk (Hex.textBytes text.toList).toArray = text.toByteArray := by
    rw [← String.utf8Encode_toList]
    exact ByteArray.ext List.data_toByteArray.symm
  rw [hbytes, String.fromUTF8?, dif_pos text.isValidUTF8]
  rfl

/-- What is written of settings is read as these settings, which are then checked. -/
theorem ofText_write {c : GatewayConfig} (h : ∀ n ∈ c.integers, n ≤ largestNumber) :
    ofText c.document.write = c.validate.map fun _ => c := by
  rw [ofText, Toml.parse_write (sound_document h), Option.bind_some, ofValue?_document]

end Reading

/-- The file changes only if the settings could be written. -/
theorem run_save (c : GatewayConfig) (file : Option Bytes) :
    c.save.run file = match c.render with
      | .ok text => (.ok (), some (Hex.textBytes text.toList))
      | .error e => (.error e, file) := by
  unfold save
  -- the text must not be computed: only whether there is one matters
  cases c.render <;> rfl

/-- Settings whose numbers fit in 64 bits with a sign are saved; what is loaded then are the same settings if they
are in order, and otherwise they are refused for what is wrong with them.  Where a number does not fit, saving fails
and the file stays what it was. -/
theorem load_save (c : GatewayConfig) (file : Option Bytes) :
    ((∀ n ∈ c.integers, n ≤ largestNumber) → ∃ bytes, c.save.run file = (.ok (), some bytes) ∧
      (c.validate = .ok () → load (some bytes) = .ok c) ∧
      ∀ e, c.validate = .error e → load (some bytes) = .error e) ∧
    ((∃ n ∈ c.integers, largestNumber < n) → c.save.run file = (.error formatError, file)) := by
  constructor
  · intro hfits
    have hrender : c.render = .ok c.document.write := if_pos (isWritable_iff.2 hfits)
    have hload : load (some (Hex.textBytes c.document.write.toList)) = c.validate.map fun _ => c := by
      rw [load, fromUTF8?_textBytes]
      exact ofText_write hfits
    refine ⟨Hex.textBytes c.document.write.toList, ?_, fun hvalid => ?_, fun e hinvalid => ?_⟩
    · rw [run_save, hrender]
    · rw [hload, hvalid]
      rfl
    · rw [hload, hinvalid]
      rfl
  · rintro ⟨n, hn, hlarge⟩
    have hrender : c.render = .error formatError :=
      if_neg fun hwritable => absurd (isWritable_iff.1 hwritable n hn) (Nat.not_le.2 hlarge)
    rw [run_save, hrender]

/-- Texts with quotes, backslashes and line ends come back; a number beyond the largest leaves no file. -/
theorem load_save_sample :
    let c : GatewayConfig := { logLevel := "say \"debug\"\n", metrics := { persistPath := some "C:\\counters" } }
    let huge : GatewayConfig := { credit := { expandRiskFactor := 0x8000000000000000 } }
    (∃ bytes, c.save.run none = (.ok (), some bytes) ∧ load (some bytes) = .ok c) ∧
      huge.save.run none = (.error formatError, none) := by
  intro c huge
  obtain ⟨bytes, hsave, hload, -⟩ := (load_save c none).1 (by decide)
  exact ⟨⟨bytes, hsave, hload rfl⟩, (load_save huge none).2 ⟨0x8000000000000000, by decide, by decide⟩⟩

end GatewayConfig
end VoucherGateway
