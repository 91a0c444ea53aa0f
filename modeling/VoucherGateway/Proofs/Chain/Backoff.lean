import Mathlib.Algebra.BigOperators.Ring.Finset
import VoucherGateway.Proofs.Chain.Freshness

/-!
# Backoff — how often a read asks, and how long it takes

A read that finds nothing fresh asks the source until it answers, and gives up when no attempt is left.  The pauses
between the attempts are one, two, three, … times the first, none longer than the longest pause.

Main statement: `backoff_exact`.
-/

namespace VoucherGateway

variable {S : Scheme}

/-- Whether an incident makes the cache forget a client. -/
def Incident.forgets (client : S.Party) : Incident S → Bool
  | .disturbed (.invalidated c) => client = c
  | _ => false

/-- Whether time passes in an incident. -/
def Incident.isPause : Incident S → Bool
  | .passed _ => true
  | _ => false

/-- The entries of clients whom a history does not make the cache forget. -/
def remembered (history : List (Incident S)) (es : List (CacheEntry S)) : List (CacheEntry S) :=
  es.filter fun e => !history.any (Incident.forgets e.client)

/-- How often a read that has this history asks again. -/
def retriesIn (history : List (Incident S)) : Nat := history.countP Incident.isPause

theorem retriesIn_append (history history' : List (Incident S)) :
    retriesIn (history ++ history') = retriesIn history + retriesIn history' := List.countP_append

theorem answers_append (history history' : List (Incident S)) :
    answers (history ++ history') = answers history ++ answers history' := List.filterMap_append

/-- An entry that is kept is found. -/
theorem ChainCache.lookup?_keep (c : ChainCache S) (e : CacheEntry S) (hcapacity : 0 < c.capacity) :
    (c.keep e).lookup? e.client e.vendor = some e := by
  obtain ⟨n, hn⟩ := Nat.exists_eq_add_of_le' hcapacity
  have hfor : isFor e.client e.vendor e = true := by simp [isFor]
  simp [lookup?, keep, hn, hfor]

namespace ChainReader

/-! ## Attempt after attempt -/

/-- A reader when its source has failed `n` times and is asked again. -/
def atAttempt (r : ChainReader S) (client : S.Party) (during : Nat → List (Disturbance S)) (backoff : Nat) :
    Nat → ChainReader S
  | 0 => r
  | n + 1 =>
    amid during (.pause (pauseLength (backoff * (n + 1)))) ((r.atAttempt client during backoff n).ask client)

/-- The source does not answer after `n` failures. -/
def FailsAt (r : ChainReader S) (client : S.Party) (during : Nat → List (Disturbance S)) (backoff n : Nat) : Prop :=
  ∃ detail, (r.atAttempt client during backoff n).answer client = .error detail

section Attempts

variable {r r' : ChainReader S} {client vendor : S.Party} {during : Nat → List (Disturbance S)} {backoff : Nat}

theorem clock_interlude (during : Nat → List (Disturbance S)) (millis : Nat) (r r' : ChainReader S) :
    ((interlude during millis r).foldl suffer r').clock = r'.clock + millis := by
  unfold interlude
  generalize during r.source.reads = xs
  induction xs generalizing r' with
  | nil => rfl
  | cons x xs ih =>
    refine (ih (r'.disturb x)).trans ?_
    cases x <;> rfl

theorem reads_ask (r : ChainReader S) (client : S.Party) : (r.ask client).source.reads = r.source.reads + 1 :=
  reads_foldl [r.inquiry client client] r

/-- The time that has passed is that of the pauses. -/
theorem clock_atAttempt (r : ChainReader S) (client : S.Party) (during : Nat → List (Disturbance S))
    (backoff n : Nat) :
    (r.atAttempt client during backoff n).clock =
      r.clock + ∑ i ∈ Finset.range n, pauseLength (backoff * (i + 1)) := by
  induction n with
  | zero => rfl
  | succ n ih =>
    rw [Finset.sum_range_succ, ← Nat.add_assoc, ← ih]
    exact clock_interlude during _ _ _

theorem reads_atAttempt (r : ChainReader S) (client : S.Party) (during : Nat → List (Disturbance S))
    (backoff n : Nat) : (r.atAttempt client during backoff n).source.reads = r.source.reads + n := by
  induction n with
  | zero => rfl
  | succ n ih =>
    refine (reads_foldl _ _).trans ?_
    rw [answers_interlude, reads_ask, ih]
    rfl

/-- What the source answers does not depend on the cache. -/
theorem Synced.atAttempt (h : r.Synced r') (n : Nat) :
    (r.atAttempt client during backoff n).Synced (r'.atAttempt client during backoff n) := by
  induction n with
  | zero => exact h
  | succ n ih =>
    have hask := ih.suffer (.asked client client 0 (.error ""))
    have hpause := hask.foldl (interlude during (pauseLength (backoff * (n + 1)))
      ((r.atAttempt client during backoff n).ask client))
    -- what happens in a pause depends on the source only
    have hreads : ((r'.atAttempt client during backoff n).ask client).source.reads =
        ((r.atAttempt client during backoff n).ask client).source.reads :=
      congrArg ChainSource.reads hask.source
    simp only [ChainReader.atAttempt, amid, interlude, hreads]
    exact hpause

theorem Synced.answer (h : r.Synced r') (client : S.Party) : r'.answer client = r.answer client := by
  unfold ChainReader.answer
  rw [h.source]

theorem Synced.failsAt (h : r.Synced r') {n : Nat} :
    r'.FailsAt client during backoff n ↔ r.FailsAt client during backoff n := by
  unfold FailsAt
  rw [(h.atAttempt n).answer]

/-- Reading the source ends with the first attempt that succeeds, or with the last. -/
theorem run_fetch_atAttempt (r : ChainReader S) (client : S.Party) (during : Nat → List (Disturbance S))
    (backoff failures : Nat) {n left : Nat} (hle : n ≤ left)
    (failed : ∀ i < n, r.FailsAt client during backoff (failures + i))
    (final : ¬ r.FailsAt client during backoff (failures + n) ∨ n = left) :
    (fetch backoff client failures left).run (amid during) (r.atAttempt client during backoff failures) =
      ((r.atAttempt client during backoff (failures + n)).answer client,
        (r.atAttempt client during backoff (failures + n)).ask client) := by
  -- by the failures that are still to come: each takes one attempt off those that are left
  induction n generalizing failures left with
  | zero =>
    cases left with
    | zero => rfl
    | succ left =>
      have hsucceeds : ¬ r.FailsAt client during backoff failures := final.resolve_right nofun
      unfold fetch
      rw [Procedure.run_bind, Procedure.run_attempt, run_readSource]
      cases hanswer : (r.atAttempt client during backoff failures).answer client with
      | ok c => rfl
      | error detail => exact absurd ⟨detail, hanswer⟩ hsucceeds
  | succ n ih =>
    obtain ⟨left, rfl⟩ := Nat.exists_eq_add_of_le' hle
    have hshift : ∀ i, failures + 1 + i = failures + (i + 1) := fun i => by omega
    obtain ⟨detail, hfirst⟩ := failed 0 n.succ_pos
    have hrest := ih (failures + 1) (Nat.le_add_right n left)
      (fun i hi => by rw [hshift]; exact failed (i + 1) (by omega))
      (by rw [hshift]; exact final.imp_right fun h => by omega)
    rw [hshift] at hrest
    rw [← hrest, show left + (n + 1) = n + left + 1 by omega, fetch, Procedure.run_bind, Procedure.run_attempt,
      run_readSource]
    rw [Nat.add_zero] at hfirst
    rw [hfirst]
    rfl

theorem run_fetch_of_failures (r : ChainReader S) (client : S.Party) (during : Nat → List (Disturbance S))
    (backoff : Nat) {n left : Nat} (hle : n ≤ left) (failed : ∀ i < n, r.FailsAt client during backoff i)
    (final : ¬ r.FailsAt client during backoff n ∨ n = left) :
    (fetch backoff client 0 left).run (amid during) r =
      ((r.atAttempt client during backoff n).answer client,
        (r.atAttempt client during backoff n).ask client) := by
  have h := run_fetch_atAttempt r client during backoff 0 hle (by simpa only [Nat.zero_add] using failed)
    (by simpa only [Nat.zero_add] using final)
  rw [Nat.zero_add] at h
  exact h

end Attempts

/-! ## The cache after the attempts -/

section Cache

variable {r : ChainReader S} {cache : ChainCache S} {client vendor : S.Party}
  {during : Nat → List (Disturbance S)}

theorem cache_suffer (hcache : r.cache = some cache) (i : Incident S) :
    (r.suffer i).cache = some { cache with entries := remembered [i] cache.entries } := by
  cases i with
  | disturbed x =>
    cases x <;>
      simp [suffer, disturb, invalidate, hcache, ChainCache.invalidate, remembered, Incident.forgets]
  | _ => simp [suffer, elapse, ask, hcache, remembered, Incident.forgets]

/-- A history takes entries from the cache, and nothing else happens to it. -/
theorem cache_foldl (history : List (Incident S)) (hcache : r.cache = some cache) :
    (history.foldl suffer r).cache = some { cache with entries := remembered history cache.entries } := by
  induction history generalizing r cache with
  | nil => simpa [remembered] using hcache
  | cons i rest ih =>
    refine (ih (cache_suffer hcache i)).trans ?_
    simp [remembered, List.filter_filter, Bool.and_comm]

/-- The cache when the attempts of a read that misses have come to their end. -/
def missed (r : ChainReader S) (cache : ChainCache S) (client vendor : S.Party)
    (during : Nat → List (Disturbance S)) : ChainCache S :=
  { cache with
    entries := remembered (r.inquiries client vendor during) (cache.others client vendor)
    misses := cache.misses + 1 }

/-- The entry of another pair is what it was, unless its client is forgotten in a pause. -/
theorem lookup?_missed (cache : ChainCache S) {c v : S.Party} (hother : c = client → v ≠ vendor)
    (hkept : ∀ i ∈ r.inquiries client vendor during, i.forgets c = false) :
    (r.missed cache client vendor during).lookup? c v = cache.lookup? c v := by
  simp only [ChainCache.lookup?, missed, remembered, ChainCache.others, List.filter_filter, List.find?_filter]
  refine congrArg (List.find? · cache.entries) (funext fun e => ?_)
  cases hfor : ChainCache.isFor c v e with
  | false => simp
  | true =>
    obtain ⟨rfl, rfl⟩ : e.client = c ∧ e.vendor = v := by simpa [ChainCache.isFor] using hfor
    have hpair : ChainCache.isFor client vendor e = false := by
      simpa [ChainCache.isFor] using hother
    simpa [hpair] using hkept

/-- After an answer the cache has an entry of it, before those that are left of other pairs. -/
theorem cache_of_answer (hcache : r.cache = some cache)
    (stale : ∀ e, cache.lookup? client vendor = some e → cache.ttl ≤ r.clock - e.fetchedAt) {c : ChainSnapshot}
    (hc : (r.reading client vendor during).1 = .ok c) :
    (r.reading client vendor during).2.cache = some ((r.missed cache client vendor during).keep
      ⟨client, vendor, c, (r.reading client vendor during).2.clock⟩) := by
  obtain ⟨-, hreading⟩ := reading_of_stale during hcache stale
  have hreached := cache_foldl (r.inquiries client vendor during) (r := r.missing cache client vendor) rfl
  rw [hreading, clock_conclude, hc]
  simp only [conclude, hreached]
  rfl

/-- A failure is counted, and takes no entry of another pair. -/
theorem cache_of_failure (hcache : r.cache = some cache)
    (stale : ∀ e, cache.lookup? client vendor = some e → cache.ttl ≤ r.clock - e.fetchedAt) {detail : String}
    (hdetail : (r.reading client vendor during).1 = .error detail) :
    (r.reading client vendor during).2.cache =
      some { r.missed cache client vendor during with failures := cache.failures + 1 } := by
  obtain ⟨-, hreading⟩ := reading_of_stale during hcache stale
  have hreached := cache_foldl (r.inquiries client vendor during) (r := r.missing cache client vendor) rfl
  rw [hreading, hdetail]
  simp only [conclude, hreached]
  rfl

end Cache

/-! ## A read that misses -/

/-- Pauses that stay below the longest add up to a multiple of the first. -/
theorem sum_pauses {backoff n : Nat} (h : backoff * n ≤ longestPause) :
    ∑ i ∈ Finset.range n, pauseLength (backoff * (i + 1)) = backoff * ∑ i ∈ Finset.range n, (i + 1) := by
  rw [Finset.mul_sum]
  refine Finset.sum_congr rfl fun i hi => pauseLength_of_le (le_trans ?_ h)
  exact Nat.mul_le_mul_left _ (Finset.mem_range.mp hi)

/-- What a read that misses comes to if it ends after `n` failures. -/
structure EndsAfter (r : ChainReader S) (cache : ChainCache S) (client vendor : S.Party)
    (during : Nat → List (Disturbance S)) (n : Nat) : Prop where
  outcome : (r.reading client vendor during).1 = (r.atAttempt client during cache.backoff n).answer client
  reads : (r.reading client vendor during).2.source.reads = r.source.reads + (n + 1)
  clock : (r.reading client vendor during).2.clock =
    r.clock + ∑ i ∈ Finset.range n, pauseLength (cache.backoff * (i + 1))
  clock_of_short : cache.backoff * n ≤ longestPause → (r.reading client vendor during).2.clock =
    r.clock + cache.backoff * ∑ i ∈ Finset.range n, (i + 1)
  /-- An answer is cached with its time, before all entries that are left of other pairs. -/
  answered : ∀ c, (r.reading client vendor during).1 = .ok c → ∃ cache',
    (r.reading client vendor during).2.cache = some cache' ∧
    cache' = (r.missed cache client vendor during).keep
      ⟨client, vendor, c, (r.reading client vendor during).2.clock⟩ ∧
    cache'.lookup? client vendor = some ⟨client, vendor, c, (r.reading client vendor during).2.clock⟩
  /-- A failure is counted, and the entry of another pair is what it was, unless its client is forgotten in a
  pause. -/
  failed : ∀ detail, (r.reading client vendor during).1 = .error detail → ∃ cache',
    (r.reading client vendor during).2.cache = some cache' ∧
    cache' = { r.missed cache client vendor during with failures := cache.failures + 1 } ∧
    ∀ c v, (c = client → v ≠ vendor) → (∀ i ∈ r.inquiries client vendor during, i.forgets c = false) →
      cache'.lookup? c v = cache.lookup? c v

section Missing

variable {r : ChainReader S} {cache : ChainCache S} {client vendor : S.Party}
  {during : Nat → List (Disturbance S)}

theorem endsAfter_of_stale (hcache : r.cache = some cache) (hcapacity : 0 < cache.capacity)
    (stale : ∀ e, cache.lookup? client vendor = some e → cache.ttl ≤ r.clock - e.fetchedAt) {n : Nat}
    (hle : n ≤ cache.retries) (failed : ∀ i < n, r.FailsAt client during cache.backoff i)
    (final : ¬ r.FailsAt client during cache.backoff n ∨ n = cache.retries) :
    EndsAfter r cache client vendor during n := by
  -- that the miss is counted and a stale entry dropped makes no difference to the attempts
  have hsynced : (r.missing cache client vendor).Synced r := ⟨rfl, rfl⟩
  have hsame : (r.atAttempt client during cache.backoff n).Synced
      ((r.missing cache client vendor).atAttempt client during cache.backoff n) := hsynced.symm.atAttempt n
  have hfetch := run_fetch_of_failures (r.missing cache client vendor) client during cache.backoff hle
    (fun i hi => hsynced.failsAt.mp (failed i hi)) (final.imp_left (hsynced.failsAt.not.mp ·))
  have hends : (r.reading client vendor during).1 = (r.atAttempt client during cache.backoff n).answer client ∧
      ((r.atAttempt client during cache.backoff n).ask client).Synced (r.reading client vendor during).2 := by
    rw [reading_eq_of_stale during hcache stale, hfetch]
    refine ⟨hsame.answer client, (hsame.suffer (.asked client vendor 0 (.error ""))).trans ?_⟩
    exact ⟨clock_conclude _ _ _ _, source_conclude _ _ _ _⟩
  obtain ⟨houtcome, hafter⟩ := hends
  have hclock := hafter.clock.trans (clock_atAttempt r client during cache.backoff n)
  exact {
    outcome := houtcome
    reads := by
      rw [hafter.source, reads_ask, reads_atAttempt]
      rfl
    clock := hclock
    clock_of_short := fun hshort => by rw [hclock, sum_pauses hshort]
    answered := fun c hc =>
      ⟨_, cache_of_answer hcache stale hc, rfl, ChainCache.lookup?_keep _ _ hcapacity⟩
    failed := fun _ hdetail => ⟨_, cache_of_failure hcache stale hdetail, rfl, fun _ _ hother hkept =>
      lookup?_missed cache hother hkept⟩ }

/-- Some attempt is the first that succeeds, or none is and the last one fails. -/
theorem exists_final (r : ChainReader S) (client : S.Party) (during : Nat → List (Disturbance S))
    (backoff retries : Nat) :
    ∃ n ≤ retries, (∀ i < n, r.FailsAt client during backoff i) ∧
      (¬ r.FailsAt client during backoff n ∨ n = retries) := by
  induction retries with
  | zero => exact ⟨0, le_rfl, nofun, .inr rfl⟩
  | succ retries ih =>
    obtain ⟨n, hle, hfailed, hfinal⟩ := ih
    by_cases hn : r.FailsAt client during backoff n
    · obtain rfl := hfinal.resolve_left (not_not_intro hn)
      refine ⟨n + 1, le_rfl, fun i hi => ?_, .inr rfl⟩
      rcases Nat.lt_succ_iff_lt_or_eq.mp hi with hlt | rfl
      · exact hfailed i hlt
      · exact hn
    · exact ⟨n, Nat.le_succ_of_le hle, hfailed, .inl hn⟩

end Missing

/-! ## One read after the other -/

/-- How often a reader has been used for a read. -/
def readsIn : List (Use S) → Nat
  | [] => 0
  | .read _ _ _ :: earlier => readsIn earlier + 1
  | _ :: earlier => readsIn earlier

/-- How often reads have asked again. -/
def retried (start : ChainReader S) : List (Use S) → Nat
  | [] => 0
  | .read client vendor during :: earlier =>
    retried start earlier + retriesIn ((start.live earlier).2.inquiries client vendor during)
  | _ :: earlier => retried start earlier

/-- What the counts of a reader come to after a number of reads and retries. -/
structure Tallied (before reads retries : Nat) (r : ChainReader S) (cache : ChainCache S) : Prop where
  cached : r.cache = some cache
  reads : cache.hits + cache.misses = reads
  failures : cache.failures ≤ cache.misses
  /-- The source counts the misses and the retries, after what it has counted before. -/
  asked : r.source.reads = before + cache.misses + retries

section Tallies

variable {r : ChainReader S} {cache : ChainCache S} {client vendor : S.Party}
  {during : Nat → List (Disturbance S)} {before reads retries : Nat}

/-- Every attempt but the last is followed by a pause. -/
theorem length_answers_attempts (during : Nat → List (Disturbance S)) (backoff : Nat) (client vendor : S.Party)
    (failures left : Nat) (r : ChainReader S) :
    (answers (attempts during backoff client vendor failures left r)).length =
      retriesIn (attempts during backoff client vendor failures left r) + 1 := by
  induction left generalizing failures r with
  | zero => rfl
  | succ left ih =>
    unfold attempts
    cases r.answer client with
    | ok _ => rfl
    | error _ =>
      have hanswer : ∀ millis,
          (answers (r.inquiry client vendor :: interlude during millis (r.ask client))).length = 1 :=
        fun millis => congrArg (·.length + 1) (answers_interlude millis _)
      have hpause : ∀ millis,
          retriesIn (r.inquiry client vendor :: interlude during millis (r.ask client)) = 1 := by
        intro millis
        simp [retriesIn, interlude, inquiry, List.countP_map, Function.comp_def, Incident.isPause]
      dsimp only
      rw [answers_append, List.length_append, hanswer, ih, retriesIn_append, hpause, Nat.add_assoc]

theorem Tallied.suffer (h : Tallied before reads retries r cache) {i : Incident S} (hanswer : i.answer? = none) :
    ∃ cache', Tallied before reads retries (r.suffer i) cache' := by
  refine ⟨_, cache_suffer h.cached i, h.reads, h.failures, ?_⟩
  refine (reads_foldl [i] r).trans ?_
  simp [answers, hanswer, h.asked]

/-- A read is a hit or a miss, a miss may fail, and a miss asks the source once and again for each retry. -/
theorem Tallied.reading (h : Tallied before reads retries r cache) (client vendor : S.Party)
    (during : Nat → List (Disturbance S)) :
    ∃ cache', Tallied before (reads + 1) (retries + retriesIn (r.inquiries client vendor during))
      (r.reading client vendor during).2 cache' := by
  obtain ⟨hcache, hreads, hfailures, hasked⟩ := h
  rcases fresh_or_stale r cache client vendor with ⟨e, he, hfresh⟩ | hstale
  · obtain ⟨hnone, hreading⟩ := reading_of_fresh during hcache he hfresh
    rw [hnone, hreading]
    refine ⟨_, rfl, ?_, hfailures, hasked⟩
    dsimp only
    omega
  · have hsource : (r.reading client vendor during).2.source.reads =
        r.source.reads + (retriesIn (r.inquiries client vendor during) + 1) := by
      obtain ⟨-, hreading⟩ := reading_of_stale during hcache hstale
      rw [hreading, source_conclude, reads_foldl, inquiries_of_stale during hcache hstale,
        length_answers_attempts]
      rfl
    cases hout : (r.reading client vendor during).1 with
    | ok c =>
      refine ⟨_, cache_of_answer hcache hstale hout, ?_, ?_, ?_⟩ <;>
        dsimp only [ChainCache.keep, missed] <;> omega
    | error detail =>
      refine ⟨_, cache_of_failure hcache hstale hout, ?_, ?_, ?_⟩ <;> dsimp only [missed] <;> omega

theorem tallied_live (config : OracleConfig) (source : ChainSource S) (clock : Nat) (uses : List (Use S)) :
    ∃ cache, Tallied source.reads (readsIn uses) (retried (opened config source clock) uses)
      ((opened config source clock).live uses).2 cache := by
  induction uses with
  | nil => exact ⟨_, rfl, rfl, Nat.le_refl _, rfl⟩
  | cons u earlier ih =>
    obtain ⟨cache, ih⟩ := ih
    cases u with
    | disturb x => exact ih.suffer (i := .disturbed x) rfl
    | sleep millis => exact ih.suffer (i := .passed (pauseLength millis)) rfl
    | read client vendor during => exact ih.reading client vendor during

end Tallies

/-- Whatever happened to a reader with a cache: hits and misses together are its reads, no more reads fail than miss,
and the source is asked once for each miss and for each retry.  A read that finds nothing fresh asks the source until
it answers, or as often as it may, and pauses one, two, three, … times the first pause, though never longer than the
longest; an answer is cached with its time, and a failure is counted and takes no entry of another pair. -/
theorem backoff_exact (config : OracleConfig) (source : ChainSource S) (clock : Nat) (uses : List (Use S)) :
    let start := opened config source clock
    let r := (start.live uses).2
    ∃ cache, Tallied source.reads (readsIn uses) (retried start uses) r cache ∧
      cache.retries = config.retryAttempts.toNat ∧ cache.backoff = config.retryBackoffMs.toNat ∧
      ∀ (client vendor : S.Party) (during : Nat → List (Disturbance S)),
        (∀ e, cache.lookup? client vendor = some e → cache.ttl ≤ r.clock - e.fetchedAt) →
        (∃ n ≤ cache.retries, (∀ i < n, r.FailsAt client during cache.backoff i) ∧
          (¬ r.FailsAt client during cache.backoff n ∨ n = cache.retries)) ∧
        ∀ n ≤ cache.retries, (∀ i < n, r.FailsAt client during cache.backoff i) →
          (¬ r.FailsAt client during cache.backoff n ∨ n = cache.retries) →
          EndsAfter r cache client vendor during n := by
  intro start r
  obtain ⟨cache, htallied⟩ := tallied_live config source clock uses
  have hsettings : r.settings = some (config.ttlMs.toNat, config.retryAttempts.toNat, config.retryBackoffMs.toNat,
      max 1 config.cacheCapacity.toNat) := settings_live uses
  rw [settings, htallied.cached, Option.map_some, Option.some_inj, Prod.mk.injEq, Prod.mk.injEq, Prod.mk.injEq]
    at hsettings
  obtain ⟨-, hretries, hbackoff, hcapacity⟩ := hsettings
  have hroom : 0 < cache.capacity := by
    rw [hcapacity]
    exact Nat.lt_of_lt_of_le Nat.one_pos (Nat.le_max_left 1 _)
  refine ⟨cache, htallied, hretries, hbackoff, fun client vendor during hstale => ?_⟩
  exact ⟨exists_final r client during cache.backoff cache.retries, fun n hle hfailed hfinal =>
    endsAfter_of_stale htallied.cached hroom hstale hle hfailed hfinal⟩

/-- A pause of a millisecond more than thirty years takes thirty years. -/
theorem thirty_years_at_most :
    let source : ChainSource Scheme.plain := { plan := .next 1 }
    let r := opened { ttlMs := 1000, retryAttempts := 1, retryBackoffMs := 946080000001 } source 0
    (r.FailsAt 1 (fun _ => []) 946080000001 0 ∧ ¬ r.FailsAt 1 (fun _ => []) 946080000001 1) ∧
      (r.reading 1 9 fun _ => []).1 = .ok {} ∧ (r.reading 1 9 fun _ => []).2.source.reads = 2 ∧
      (r.reading 1 9 fun _ => []).2.clock = 946080000000 ∧
      (r.reading 1 9 fun _ => []).2.clock ≠ r.clock + 946080000001 * (1 : Nat) := by
  intro source r
  have hfails : r.answer 1 = .error "injected failure" := rfl
  have hsucceeds : (r.atAttempt 1 (fun _ => []) 946080000001 1).answer 1 = .ok {} := by rfl
  refine ⟨⟨⟨_, hfails⟩, ?_⟩, by rfl, by rfl, by decide +kernel, by decide +kernel⟩
  rintro ⟨detail, h⟩
  cases hsucceeds.symm.trans h

end ChainReader
end VoucherGateway
