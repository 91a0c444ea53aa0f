import VoucherGateway.Chain.Reader

/-!
# Histories — what happens to a reader of the chain

A reader is used for one read after the other.  Between the reads, and in the pauses of a read, time passes, the
chain changes or stops answering, and clients are forgotten.  Each of these is an *incident*, and so is each time
that the source is asked.  The history of a reader lists its incidents, the oldest first.

Main statement: a read that misses does nothing but the incidents of its attempts, and ends as the last of them
(`run_fetch`, `reading_of_stale`).
-/

namespace VoucherGateway

variable {S : Scheme}

/-- What others do to a reader. -/
inductive Disturbance (S : Scheme)
  /-- The standing of a client changes. -/
  | standing (client : S.Party) (c : ChainSnapshot)
  /-- The chain goes off or comes back. -/
  | available (value : Bool)
  /-- Some of the coming reads of the source will fail. -/
  | outages (plan : OutagePlan)
  /-- What is cached of a client is forgotten. -/
  | invalidated (client : S.Party)

/-- What happens to a reader. -/
inductive Incident (S : Scheme)
  | disturbed (x : Disturbance S)
  | passed (millis : Nat)
  /-- The source is asked for a client and a vendor. -/
  | asked (client vendor : S.Party) (time : Nat) (answer : Except String ChainSnapshot)

/-- What a reader is used for. -/
inductive Use (S : Scheme)
  | disturb (x : Disturbance S)
  | sleep (millis : Nat)
  /-- A read.  `during n` happens in the pause after the `n`-th time that the source is asked. -/
  | read (client vendor : S.Party) (during : Nat → List (Disturbance S))

/-- What the source answered, if it was asked. -/
def Incident.answer? : Incident S → Option (Except String ChainSnapshot)
  | .asked _ _ _ answer => some answer
  | _ => none

/-- The answers of the source in a history. -/
def answers (history : List (Incident S)) : List (Except String ChainSnapshot) :=
  history.filterMap Incident.answer?

namespace ChainReader

/-- A reader after a disturbance. -/
def disturb (r : ChainReader S) : Disturbance S → ChainReader S
  | .standing client c => { r with source := r.source.setStanding client c }
  | .available value => { r with source := { r.source with available := value } }
  | .outages plan => { r with source := { r.source with plan := plan } }
  | .invalidated client => r.invalidate client

/-- A reader after its source was asked for a client. -/
def ask (r : ChainReader S) (client : S.Party) : ChainReader S :=
  { r with source := ((ChainSource.read client).run r.source).2 }

/-- What the source of a reader answers now. -/
def answer (r : ChainReader S) (client : S.Party) : Except String ChainSnapshot :=
  ((ChainSource.read client).run r.source).1

/-- A reader after an incident. -/
def suffer (r : ChainReader S) : Incident S → ChainReader S
  | .disturbed x => r.disturb x
  | .passed millis => r.elapse (.pause millis)
  | .asked client _ _ _ => r.ask client

/-- What happens in a pause. -/
def interlude (during : Nat → List (Disturbance S)) (millis : Nat) (r : ChainReader S) : List (Incident S) :=
  -- it does not matter when in the pause it happens: nobody looks before the end
  (during r.source.reads).map .disturbed ++ [.passed millis]

/-- What happens while a read waits. -/
def amid (during : Nat → List (Disturbance S)) : Wait S.Party → ChainReader S → ChainReader S
  | .pause millis, r => (interlude during millis r).foldl suffer r
  | .turn _, r => r

/-- A read while others are about: its outcome, and the reader after it. -/
def reading (r : ChainReader S) (client vendor : S.Party) (during : Nat → List (Disturbance S)) :
    Except String ChainSnapshot × ChainReader S :=
  (read client vendor).run (amid during) r

/-! ## Attempts -/

/-- The source is asked now. -/
def inquiry (r : ChainReader S) (client vendor : S.Party) : Incident S :=
  .asked client vendor r.clock (r.answer client)

/-- What happens while the source is asked until it answers, `left` more times after a failure. -/
def attempts (during : Nat → List (Disturbance S)) (backoff : Nat) (client vendor : S.Party) :
    (failures left : Nat) → ChainReader S → List (Incident S)
  | _, 0, r => [r.inquiry client vendor]
  | failures, left + 1, r =>
    match r.answer client with
    | .ok _ => [r.inquiry client vendor]
    | .error _ =>
      let pause := interlude during (pauseLength (backoff * (failures + 1))) (r.ask client)
      (r.inquiry client vendor :: pause) ++
        attempts during backoff client vendor (failures + 1) left (pause.foldl suffer (r.ask client))

/-- What happens during a read. -/
def inquiries (r : ChainReader S) (client vendor : S.Party) (during : Nat → List (Disturbance S)) :
    List (Incident S) :=
  match r.cache with
  | none => [r.inquiry client vendor]
  | some cache =>
    match cache.fresh client vendor r.clock with
    | (some _, _) => []
    | (none, cache) =>
      attempts during cache.backoff client vendor 0 cache.retries
        { r with cache := some { cache with misses := cache.misses + 1 } }

/-! ## Whole histories -/

/-- What happens when a reader is used. -/
def incidents (r : ChainReader S) : Use S → List (Incident S)
  | .disturb x => [.disturbed x]
  | .sleep millis => [.passed (pauseLength millis)]
  | .read client vendor during => r.inquiries client vendor during

/-- A reader after it was used. -/
def use (r : ChainReader S) : Use S → ChainReader S
  | .disturb x => r.disturb x
  | .sleep millis => r.sleep millis
  | .read client vendor during => (r.reading client vendor during).2

/-- The history of a reader, and the reader at the end of it.  Its uses are listed newest first. -/
def live (start : ChainReader S) : List (Use S) → List (Incident S) × ChainReader S
  | [] => ([], start)
  | u :: earlier => ((live start earlier).1 ++ (live start earlier).2.incidents u, (live start earlier).2.use u)

/-- A reader whose cache is still empty. -/
def opened (config : OracleConfig) (source : ChainSource S) (clock : Nat) : ChainReader S :=
  { clock := clock, source := source, cache := some (.ofConfig config) }

/-! ## What a read that misses does -/

section Attempts

variable {during : Nat → List (Disturbance S)} {backoff : Nat} {client vendor : S.Party}

theorem run_readSource (meanwhile : Wait S.Party → ChainReader S → ChainReader S) (r : ChainReader S) :
    (readSource client).run meanwhile r = (r.answer client, r.ask client) := rfl

/-- How attempts end: as the last of them, after the ones before it have failed.  A failure is final only when
no attempt is left. -/
structure EndsWith (history : List (Incident S)) (client vendor : S.Party) (left : Nat)
    (outcome : Except String ChainSnapshot) (r : ChainReader S) : Prop where
  last : ∃ earlier, history = earlier ++ [.asked client vendor r.clock outcome]
  failed : ∃ details : List String, answers history = details.map .error ++ [outcome] ∧ details.length ≤ left ∧
    ∀ detail, outcome = .error detail → details.length = left

theorem EndsWith.mem {history : List (Incident S)} {left : Nat} {outcome : Except String ChainSnapshot}
    {r : ChainReader S} (h : EndsWith history client vendor left outcome r) :
    .asked client vendor r.clock outcome ∈ history := by
  obtain ⟨earlier, rfl⟩ := h.last
  exact List.mem_append_right _ (List.mem_singleton_self _)

theorem endsWith_inquiry (r : ChainReader S) {left : Nat}
    (h : ∀ detail, r.answer client = .error detail → left = 0) :
    EndsWith [r.inquiry client vendor] client vendor left (r.answer client) (r.ask client) where
  last := ⟨[], rfl⟩
  failed := ⟨[], rfl, Nat.zero_le _, fun detail hd => (h detail hd).symm⟩

theorem answers_interlude (millis : Nat) (r : ChainReader S) : answers (interlude during millis r) = [] := by
  simp [answers, interlude, List.filterMap_map, Incident.answer?, Function.comp_def]

theorem EndsWith.after_failure {history : List (Incident S)} {left : Nat}
    {outcome : Except String ChainSnapshot} {r r' : ChainReader S} {detail : String} {millis : Nat}
    (h : EndsWith history client vendor left outcome r') (failed : r.answer client = .error detail) :
    EndsWith ((r.inquiry client vendor :: interlude during millis (r.ask client)) ++ history) client vendor
      (left + 1) outcome r' where
  last := by
    obtain ⟨earlier, rfl⟩ := h.last
    exact ⟨_, (List.append_assoc ..).symm⟩
  failed := by
    obtain ⟨details, hanswers, hle, hfinal⟩ := h.failed
    refine ⟨detail :: details, ?_, Nat.succ_le_succ hle, fun d hd => congrArg _ (hfinal d hd)⟩
    have hfirst : answers [r.inquiry client vendor] = [.error detail] := by
      simp [answers, inquiry, Incident.answer?, failed]
    calc
      answers ((r.inquiry client vendor :: interlude during millis (r.ask client)) ++ history)
          = answers [r.inquiry client vendor] ++
              (answers (interlude during millis (r.ask client)) ++ answers history) := by
        simp only [answers, List.filterMap_append, List.filterMap_cons, List.filterMap_nil]
        cases Incident.answer? (r.inquiry client vendor) <;> simp
      _ = .error detail :: (details.map .error ++ [outcome]) := by
        rw [hfirst, answers_interlude, hanswers]
        rfl

/-- Reading the source until it answers does what the attempts say, and ends as the last of them. -/
theorem run_fetch (during : Nat → List (Disturbance S)) (backoff : Nat) (client vendor : S.Party)
    (failures left : Nat) (r : ChainReader S) :
    let history := attempts during backoff client vendor failures left r
    let done := (fetch backoff client failures left).run (amid during) r
    done.2 = history.foldl suffer r ∧ EndsWith history client vendor left done.1 done.2 := by
  induction left generalizing failures r with
  | zero => exact ⟨rfl, endsWith_inquiry r fun _ _ => rfl⟩
  | succ left ih =>
    unfold attempts fetch
    rw [Procedure.run_bind, Procedure.run_attempt, run_readSource]
    cases hanswer : r.answer client with
    | ok snapshot =>
      have hends : EndsWith [r.inquiry client vendor] client vendor (left + 1) (r.answer client) (r.ask client) :=
        endsWith_inquiry r fun detail hd => by rw [hanswer] at hd; cases hd
      rw [hanswer] at hends
      exact ⟨rfl, hends⟩
    | error detail =>
      obtain ⟨hstate, hends⟩ := ih (failures + 1)
        (amid during (.pause (pauseLength (backoff * (failures + 1)))) (r.ask client))
      dsimp only
      rw [Procedure.run_bind, Procedure.run_wait]
      refine ⟨?_, hends.after_failure hanswer⟩
      rw [List.foldl_append]
      exact hstate

/-! ## What a read does -/

/-- What a read that missed does to the cache at its end. -/
def conclude (r : ChainReader S) (client vendor : S.Party) : Except String ChainSnapshot → ChainReader S
  | .ok c => { r with cache := r.cache.map fun cache => cache.keep ⟨client, vendor, c, r.clock⟩ }
  | .error _ => { r with cache := r.cache.map fun cache => { cache with failures := cache.failures + 1 } }

/-- A reader whose cache has nothing fresh for a client and a vendor. -/
def missing (r : ChainReader S) (cache : ChainCache S) (client vendor : S.Party) : ChainReader S :=
  { r with cache := some { cache with entries := cache.others client vendor, misses := cache.misses + 1 } }

variable {r : ChainReader S} {cache : ChainCache S}

/-- A fresh entry is handed out, and the source is not asked. -/
theorem reading_of_fresh (during : Nat → List (Disturbance S)) (hcache : r.cache = some cache) {e : CacheEntry S}
    (he : cache.lookup? client vendor = some e) (fresh : r.clock - e.fetchedAt < cache.ttl) :
    r.inquiries client vendor during = [] ∧
      r.reading client vendor during =
        (.ok e.snapshot,
          { r with
            cache := some
              { cache with entries := e :: cache.others client vendor, hits := cache.hits + 1 } }) := by
  have hfresh : cache.fresh client vendor r.clock =
      (some e.snapshot, { cache with entries := e :: cache.others client vendor }) := by
    simp [ChainCache.fresh, he, fresh]
  constructor
  · simp only [inquiries, hcache, hfresh]
  · simp only [reading, read, readCached, Procedure.run_get_bind, hcache, hfresh]
    rfl

/-- Without a fresh entry nothing is found, and none of the pair is left. -/
theorem fresh_of_stale {now : Nat}
    (stale : ∀ e, cache.lookup? client vendor = some e → cache.ttl ≤ now - e.fetchedAt) :
    cache.fresh client vendor now = (none, { cache with entries := cache.others client vendor }) := by
  unfold ChainCache.fresh
  cases he : cache.lookup? client vendor with
  | none =>
    have hall : cache.others client vendor = cache.entries := by
      simpa [ChainCache.others, ChainCache.lookup?, List.filter_eq_self] using he
    simp only [hall]
  | some e => simp only [Nat.not_lt.mpr (stale e he), if_false]

theorem inquiries_of_stale (during : Nat → List (Disturbance S)) (hcache : r.cache = some cache)
    (stale : ∀ e, cache.lookup? client vendor = some e → cache.ttl ≤ r.clock - e.fetchedAt) :
    r.inquiries client vendor during =
      attempts during cache.backoff client vendor 0 cache.retries (r.missing cache client vendor) := by
  simp only [inquiries, hcache, fresh_of_stale stale]
  rfl

/-- Without a fresh entry the read asks the source until it answers, and the cache learns how that ended. -/
theorem reading_eq_of_stale (during : Nat → List (Disturbance S)) (hcache : r.cache = some cache)
    (stale : ∀ e, cache.lookup? client vendor = some e → cache.ttl ≤ r.clock - e.fetchedAt) :
    r.reading client vendor during =
      let done := (fetch cache.backoff client 0 cache.retries).run (amid during) (r.missing cache client vendor)
      (done.1, done.2.conclude client vendor done.1) := by
  simp only [reading, read, readCached, Procedure.run_get_bind, hcache, fresh_of_stale stale,
    Procedure.run_set_bind]
  rw [Procedure.run_bind, Procedure.run_attempt]
  dsimp only [missing]
  rcases Procedure.run (amid during) (fetch cache.backoff client 0 cache.retries) _ with ⟨e | c, r'⟩ <;> rfl

/-- Without a fresh entry the read is its attempts, and the cache learns how they ended. -/
theorem reading_of_stale (during : Nat → List (Disturbance S)) (hcache : r.cache = some cache)
    (stale : ∀ e, cache.lookup? client vendor = some e → cache.ttl ≤ r.clock - e.fetchedAt) :
    let history := r.inquiries client vendor during
    let reached := history.foldl suffer (r.missing cache client vendor)
    EndsWith history client vendor cache.retries (r.reading client vendor during).1 reached ∧
      (r.reading client vendor during).2 =
        reached.conclude client vendor (r.reading client vendor during).1 := by
  obtain ⟨hstate, hends⟩ :=
    run_fetch during cache.backoff client vendor 0 cache.retries (r.missing cache client vendor)
  rw [inquiries_of_stale during hcache stale, reading_eq_of_stale during hcache stale]
  dsimp only
  rw [← hstate]
  exact ⟨hends, rfl⟩

end Attempts

/-! ## Histories that are true -/

/-- What the source is said to answer is what it answers now. -/
def Bears (r : ChainReader S) : Incident S → Prop
  | .asked client _ time answer => r.clock = time ∧ r.answer client = answer
  | _ => True

/-- Each answer in a history is that of the source at its time, after all that happened before. -/
def Told (r : ChainReader S) : List (Incident S) → Prop
  | [] => True
  | i :: rest => r.Bears i ∧ (r.suffer i).Told rest

/-- Two readers with the same time and the same source. -/
structure Synced (r r' : ChainReader S) : Prop where
  clock : r'.clock = r.clock
  source : r'.source = r.source

section Told

variable {r r' r'' : ChainReader S} {history history' : List (Incident S)}

theorem Synced.symm (h : r.Synced r') : r'.Synced r := ⟨h.clock.symm, h.source.symm⟩

theorem Synced.trans (h : r.Synced r') (h' : r'.Synced r'') : r.Synced r'' :=
  ⟨h'.clock.trans h.clock, h'.source.trans h.source⟩

theorem Synced.suffer (h : r.Synced r') (i : Incident S) : (r.suffer i).Synced (r'.suffer i) := by
  obtain ⟨hclock, hsource⟩ := h
  cases i with
  | disturbed x => cases x <;> exact ⟨hclock, by simp [ChainReader.suffer, disturb, invalidate, hsource]⟩
  | passed millis => exact ⟨congrArg (· + millis) hclock, hsource⟩
  | asked client vendor time answer => exact ⟨hclock, by simp [ChainReader.suffer, ask, hsource]⟩

theorem Synced.foldl (h : r.Synced r') (history : List (Incident S)) :
    (history.foldl ChainReader.suffer r).Synced (history.foldl ChainReader.suffer r') := by
  induction history generalizing r r' with
  | nil => exact h
  | cons i rest ih => exact ih (h.suffer i)

theorem Synced.told (h : r.Synced r') (ht : r.Told history) : r'.Told history := by
  induction history generalizing r r' with
  | nil => trivial
  | cons i rest ih =>
    refine ⟨?_, ih (h.suffer i) ht.2⟩
    cases i with
    | asked client vendor time answer =>
      have hsame : r'.answer client = r.answer client := by simp [ChainReader.answer, h.source]
      exact ⟨h.clock.trans ht.1.1, hsame.trans ht.1.2⟩
    | _ => trivial

theorem told_append :
    r.Told (history ++ history') ↔ r.Told history ∧ (history.foldl suffer r).Told history' := by
  induction history generalizing r with
  | nil => simp [Told]
  | cons i rest ih => simp [Told, ih, and_assoc]

theorem told_inquiry (r : ChainReader S) (client vendor : S.Party) : r.Told [r.inquiry client vendor] :=
  ⟨⟨rfl, rfl⟩, trivial⟩

theorem told_interlude (during : Nat → List (Disturbance S)) (millis : Nat) (r r' : ChainReader S) :
    r'.Told (interlude during millis r) := by
  unfold interlude
  generalize during r.source.reads = xs
  induction xs generalizing r' with
  | nil => exact ⟨trivial, trivial⟩
  | cons x xs ih => exact ⟨trivial, ih _⟩

theorem told_attempts (during : Nat → List (Disturbance S)) (backoff : Nat) (client vendor : S.Party)
    (failures left : Nat) (r : ChainReader S) :
    r.Told (attempts during backoff client vendor failures left r) := by
  induction left generalizing failures r with
  | zero => exact told_inquiry r client vendor
  | succ left ih =>
    unfold attempts
    cases r.answer client with
    | ok _ => exact told_inquiry r client vendor
    | error _ =>
      refine told_append.mpr ⟨⟨⟨rfl, rfl⟩, told_interlude during _ _ _⟩, ?_⟩
      exact ih _ _

end Told

end ChainReader
end VoucherGateway
