import VoucherGateway.Chain.Source
import VoucherGateway.Config.Basic
import VoucherGateway.Procedure
import VoucherGateway.Wait

/-!
# Chain reader — the chain behind a cache

A reader may keep what it read for a while.  An entry serves as long as it is younger than its time to live;
a stale one is dropped and fetched anew.  A fetch that fails is tried again after a pause that grows with
every attempt.  Once all attempts have failed the read fails: stale entries are never served.  The cache forgets the entry that was used longest ago.
-/

namespace VoucherGateway

variable {S : Scheme}

/-- A standing as it was read. -/
structure CacheEntry (S : Scheme) where
  client : S.Party
  vendor : S.Party
  snapshot : ChainSnapshot
  fetchedAt : Nat

/-- Standings read before, and how to read new ones. -/
structure ChainCache (S : Scheme) where
  /-- Milliseconds that an entry serves. -/
  ttl : Nat
  /-- Attempts after a first one that failed. -/
  retries : Nat
  /-- Milliseconds before the first retry. -/
  backoff : Nat
  /-- Entries kept. -/
  capacity : Nat
  /-- The entries, the one used last in front. -/
  entries : List (CacheEntry S) := []
  hits : Nat := 0
  misses : Nat := 0
  failures : Nat := 0

namespace ChainCache

/-- An empty cache.  Its capacity is at least one. -/
def ofConfig (c : OracleConfig) : ChainCache S where
  ttl := c.ttlMs.toNat
  retries := c.retryAttempts.toNat
  backoff := c.retryBackoffMs.toNat
  capacity := max 1 c.cacheCapacity.toNat

/-- Whether an entry is for a client and a vendor. -/
def isFor (client vendor : S.Party) (e : CacheEntry S) : Bool := e.client = client && e.vendor = vendor

/-- The entry for a client and a vendor. -/
def lookup? (c : ChainCache S) (client vendor : S.Party) : Option (CacheEntry S) :=
  c.entries.find? (isFor client vendor)

/-- The entries of all other pairs, in their order. -/
def others (c : ChainCache S) (client vendor : S.Party) : List (CacheEntry S) :=
  c.entries.filter fun e => !isFor client vendor e

/-- Forgets every entry of a client. -/
def invalidate (c : ChainCache S) (client : S.Party) : ChainCache S :=
  { c with entries := c.entries.filter fun e => e.client ≠ client }

/-- Looks an entry up: a fresh one moves to the front, a stale one is dropped. -/
def fresh (c : ChainCache S) (client vendor : S.Party) (now : Nat) :
    Option ChainSnapshot × ChainCache S :=
  match c.lookup? client vendor with
  | none => (none, c)
  | some e =>
    if now - e.fetchedAt < c.ttl then
      (some e.snapshot, { c with entries := e :: c.others client vendor })
    else (none, { c with entries := c.others client vendor })

/-- Keeps an entry, in front; the last one goes if there is no room. -/
def keep (c : ChainCache S) (e : CacheEntry S) : ChainCache S :=
  { c with entries := (e :: c.others e.client e.vendor).take c.capacity }

end ChainCache

/-- The chain, a clock in milliseconds, and a cache if reads go through one. -/
structure ChainReader (S : Scheme) where
  clock : Nat := 0
  source : ChainSource S := {}
  cache : Option (ChainCache S) := none

namespace ChainReader

/-- A read of the chain; the error says why it did not answer. -/
abbrev Read (S : Scheme) (α : Type) := Procedure (Wait S.Party) (ChainReader S) String α

/-- What happens to a reader while a read waits: time passes. -/
def elapse : Wait S.Party → ChainReader S → ChainReader S
  | .pause millis, r => { r with clock := r.clock + millis }
  | .turn _, r => r

/-- Lets time pass. -/
def sleep (r : ChainReader S) (millis : Nat) : ChainReader S := r.elapse (.pause (pauseLength millis))

/-- One read of the source. -/
def readSource (client : S.Party) : Read S ChainSnapshot :=
  Procedure.ofAction
    (Action.within (·.source) (fun s r => { r with source := s }) (ChainSource.read client))

/-- Changes the cache, if there is one. -/
def updateCache (f : ChainCache S → ChainCache S) : Read S Unit :=
  modify fun r => { r with cache := r.cache.map f }

/-- Reads the source until it answers, `left` more times after a failure.  Pauses are of any length here: a
back-off that, times the number of failures, comes to 2^64 seconds or more is outside the model, since the
product is no duration any more. -/
def fetch (backoff : Nat) (client : S.Party) : (failures left : Nat) → Read S ChainSnapshot
  | _, 0 => readSource client
  | failures, left + 1 => do
    match ← Procedure.attempt (readSource client) with
    | .ok snapshot => pure snapshot
    | .error _ =>
      -- the pauses are one, two, three, … times the first
      Procedure.wait (.pause (pauseLength (backoff * (failures + 1))))
      fetch backoff client (failures + 1) left

/-- Reads through a cache. -/
def readCached (cache : ChainCache S) (client vendor : S.Party) : Read S ChainSnapshot := do
  let r ← get
  match cache.fresh client vendor r.clock with
  | (some snapshot, cache) =>
    set { r with cache := some { cache with hits := cache.hits + 1 } }
    pure snapshot
  | (none, cache) =>
    set { r with cache := some { cache with misses := cache.misses + 1 } }
    match ← Procedure.attempt (fetch cache.backoff client 0 cache.retries) with
    | .ok snapshot =>
      let r ← get
      -- the age of an entry counts from the attempt that answered
      updateCache fun c => c.keep ⟨client, vendor, snapshot, r.clock⟩
      pure snapshot
    | .error detail =>
      updateCache fun c => { c with failures := c.failures + 1 }
      throw detail

/-- Reads the standing of a client as a vendor sees it. -/
def read (client vendor : S.Party) : Read S ChainSnapshot := do
  let r ← get
  match r.cache with
  | none => readSource client
  | some cache => readCached cache client vendor

/-- Forgets what the cache holds of a client. -/
def invalidate (r : ChainReader S) (client : S.Party) : ChainReader S :=
  { r with cache := r.cache.map (·.invalidate client) }

end ChainReader
end VoucherGateway
