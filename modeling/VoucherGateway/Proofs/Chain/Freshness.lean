import VoucherGateway.Proofs.Chain.History

/-!
# Freshness — what a cached reader hands out is not stale

Every entry of a cache goes back to an answer of the source in the history of the reader, since which its client
was not forgotten.  No incident breaks this, and neither does what a read does to the cache itself.

Main statement: `never_stale`.
-/

namespace VoucherGateway
namespace ChainReader

variable {S : Scheme}

/-! ## Entries that a history accounts for -/

/-- The source answered this at a time, and the client was not forgotten since. -/
def Recalls (history : List (Incident S)) (client vendor : S.Party) (time : Nat) (c : ChainSnapshot) : Prop :=
  ∃ earlier later, history = earlier ++ .asked client vendor time (.ok c) :: later ∧
    .disturbed (.invalidated client) ∉ later

/-- The entries of the cache, if there is one. -/
def entries (r : ChainReader S) : List (CacheEntry S) := (r.cache.map (·.entries)).getD []

/-- What the cache is set to. -/
def settings (r : ChainReader S) : Option (Nat × Nat × Nat × Nat) :=
  r.cache.map fun c => (c.ttl, c.retries, c.backoff, c.capacity)

/-- Every entry is recalled by the history, and none is from the future. -/
def Backed (history : List (Incident S)) (r : ChainReader S) : Prop :=
  ∀ e ∈ r.entries, Recalls history e.client e.vendor e.fetchedAt e.snapshot ∧ e.fetchedAt ≤ r.clock

section Incidents

variable {history more : List (Incident S)} {client vendor : S.Party} {time : Nat} {c : ChainSnapshot}
  {r r' : ChainReader S}

theorem Recalls.append (h : Recalls history client vendor time c)
    (hmore : .disturbed (.invalidated client) ∉ more) : Recalls (history ++ more) client vendor time c := by
  obtain ⟨earlier, later, rfl, hlater⟩ := h
  refine ⟨earlier, later ++ more, by simp, ?_⟩
  simp only [List.mem_append, not_or]
  exact ⟨hlater, hmore⟩

/-- Entries may go. -/
theorem Backed.subset (h : Backed history r) (hsub : r'.entries ⊆ r.entries)
    (hclock : r'.clock = r.clock) : Backed history r' :=
  fun e he => hclock ▸ h e (hsub he)

@[simp] theorem entries_invalidate (r : ChainReader S) (client : S.Party) :
    (r.invalidate client).entries = r.entries.filter fun e => e.client ≠ client := by
  unfold entries invalidate ChainCache.invalidate
  cases r.cache <;> rfl

theorem entries_suffer (r : ChainReader S) (i : Incident S) : (r.suffer i).entries ⊆ r.entries := by
  cases i with
  | disturbed x =>
    cases x with
    | invalidated client =>
      simp only [suffer, disturb, entries_invalidate]
      exact List.filter_sublist.subset
    | _ => exact List.Subset.refl _
  | _ => exact List.Subset.refl _

theorem settings_suffer (r : ChainReader S) (i : Incident S) : (r.suffer i).settings = r.settings := by
  cases i with
  | disturbed x =>
    cases x with
    | invalidated client =>
      unfold suffer disturb settings invalidate
      cases r.cache <;> rfl
    | _ => rfl
  | _ => rfl

theorem clock_suffer (r : ChainReader S) (i : Incident S) : r.clock ≤ (r.suffer i).clock := by
  cases i with
  | disturbed x => cases x <;> exact Nat.le_refl _
  | passed millis => exact Nat.le_add_right _ _
  | asked _ _ _ _ => exact Nat.le_refl _

/-- An entry that outlasts an incident is not of a client who was forgotten in it. -/
theorem not_forgotten {i : Incident S} {e : CacheEntry S} (he : e ∈ (r.suffer i).entries) :
    .disturbed (.invalidated e.client) ≠ i := by
  rintro rfl
  simp [suffer, disturb] at he

/-- No incident breaks what backs the entries. -/
theorem Backed.suffer (h : Backed history r) (i : Incident S) : Backed (history ++ [i]) (r.suffer i) := by
  intro e he
  obtain ⟨hrecalls, hclock⟩ := h e (entries_suffer r i he)
  refine ⟨hrecalls.append ?_, Nat.le_trans hclock (clock_suffer r i)⟩
  rw [List.mem_singleton]
  exact not_forgotten he

theorem entries_foldl (is : List (Incident S)) (r : ChainReader S) :
    (is.foldl ChainReader.suffer r).entries ⊆ r.entries := by
  induction is generalizing r with
  | nil => exact List.Subset.refl _
  | cons i is ih => exact List.Subset.trans (ih _) (entries_suffer r i)

theorem settings_foldl (is : List (Incident S)) (r : ChainReader S) :
    (is.foldl ChainReader.suffer r).settings = r.settings := by
  induction is generalizing r with
  | nil => rfl
  | cons i is ih => exact (ih _).trans (settings_suffer r i)

theorem Backed.foldl (h : Backed history r) (is : List (Incident S)) :
    Backed (history ++ is) (is.foldl ChainReader.suffer r) := by
  induction is generalizing history r with
  | nil => simpa using h
  | cons i is ih => simpa using ih (h.suffer i)

/-- The source is asked as often as the history says. -/
theorem reads_foldl (is : List (Incident S)) (r : ChainReader S) :
    (is.foldl ChainReader.suffer r).source.reads = r.source.reads + (answers is).length := by
  induction is generalizing r with
  | nil => rfl
  | cons i is ih =>
    rw [List.foldl_cons, ih]
    cases i with
    | disturbed x => cases x <;> rfl
    | passed millis => rfl
    | asked client vendor time answer =>
      have hask : (r.ask client).source.reads = r.source.reads + 1 := by
        unfold ask ChainSource.read Action.run
        dsimp only
        split
        · split <;> rfl
        · rfl
      simp only [ChainReader.suffer, hask, answers, List.filterMap_cons, Incident.answer?, List.length_cons]
      omega

end Incidents

/-! ## Reads -/

section Reads

variable {history : List (Incident S)} {client vendor : S.Party} {during : Nat → List (Disturbance S)}
  {r : ChainReader S} {cache : ChainCache S}

theorem entries_eq (hcache : r.cache = some cache) : r.entries = cache.entries := by
  simp [entries, hcache]

theorem entries_missing (cache : ChainCache S) :
    (r.missing cache client vendor).entries = cache.others client vendor := rfl

/-- A read leaves an entry of its own, if it got an answer, and none that was not there. -/
theorem entries_conclude (r : ChainReader S) (client vendor : S.Party) (outcome : Except String ChainSnapshot) :
    ∀ e ∈ (r.conclude client vendor outcome).entries,
      e ∈ r.entries ∨ ∃ c, outcome = .ok c ∧ e = ⟨client, vendor, c, r.clock⟩ := by
  intro e he
  cases hcache : r.cache with
  | none => cases outcome <;> simp [entries, conclude, hcache] at he
  | some cache =>
    rw [entries_eq hcache]
    cases outcome with
    | error detail =>
      simp only [entries, conclude, hcache, Option.map_some, Option.getD_some] at he
      exact .inl he
    | ok c =>
      simp only [entries, conclude, hcache, Option.map_some, Option.getD_some, ChainCache.keep] at he
      rcases List.mem_cons.mp (List.mem_of_mem_take he) with rfl | he
      · exact .inr ⟨c, rfl, rfl⟩
      · exact .inl ((List.mem_filter.mp he).1)

theorem settings_conclude (r : ChainReader S) (client vendor : S.Party) (outcome : Except String ChainSnapshot) :
    (r.conclude client vendor outcome).settings = r.settings := by
  cases outcome <;> unfold conclude settings <;> cases r.cache <;> rfl

theorem clock_conclude (r : ChainReader S) (client vendor : S.Party) (outcome : Except String ChainSnapshot) :
    (r.conclude client vendor outcome).clock = r.clock := by
  cases outcome <;> rfl

theorem source_conclude (r : ChainReader S) (client vendor : S.Party) (outcome : Except String ChainSnapshot) :
    (r.conclude client vendor outcome).source = r.source := by
  cases outcome <;> rfl

/-- The entry that is looked up is one of the pair. -/
theorem mem_of_lookup? {e : CacheEntry S} (he : cache.lookup? client vendor = some e) :
    e ∈ cache.entries ∧ e.client = client ∧ e.vendor = vendor := by
  refine ⟨List.mem_of_find?_eq_some he, ?_⟩
  simpa [ChainCache.isFor] using List.find?_some he

/-- Either there is a fresh entry or every attempt counts. -/
theorem fresh_or_stale (r : ChainReader S) (cache : ChainCache S) (client vendor : S.Party) :
    (∃ e, cache.lookup? client vendor = some e ∧ r.clock - e.fetchedAt < cache.ttl) ∨
      ∀ e, cache.lookup? client vendor = some e → cache.ttl ≤ r.clock - e.fetchedAt := by
  by_cases h : ∃ e, cache.lookup? client vendor = some e ∧ r.clock - e.fetchedAt < cache.ttl
  · exact .inl h
  · refine .inr fun e he => Nat.not_lt.mp fun hlt => h ⟨e, he, hlt⟩

/-- Reads keep the settings of the cache. -/
theorem settings_reading (hcache : r.cache = some cache) :
    (r.reading client vendor during).2.settings = r.settings := by
  rcases fresh_or_stale r cache client vendor with ⟨e, he, hfresh⟩ | hstale
  · rw [(reading_of_fresh during hcache he hfresh).2]
    simp [settings, hcache]
  · rw [(reading_of_stale during hcache hstale).2, settings_conclude, settings_foldl]
    simp [settings, missing, hcache]

/-- A read breaks nothing of what backs the entries. -/
theorem Backed.reading (h : Backed history r) (hcache : r.cache = some cache) :
    Backed (history ++ r.inquiries client vendor during) (r.reading client vendor during).2 := by
  have hentries := entries_eq hcache
  rcases fresh_or_stale r cache client vendor with ⟨e, he, hfresh⟩ | hstale
  · obtain ⟨hnone, hreading⟩ := reading_of_fresh during hcache he hfresh
    rw [hnone, hreading, List.append_nil]
    -- the entry has only moved to the front
    have hmoved : e :: cache.others client vendor ⊆ r.entries := by
      rw [hentries]
      exact List.cons_subset.mpr ⟨(mem_of_lookup? he).1, List.filter_sublist.subset⟩
    exact h.subset hmoved rfl
  · obtain ⟨hends, hreading⟩ := reading_of_stale during hcache hstale
    have hmissing : Backed history (r.missing cache client vendor) := by
      refine h.subset ?_ rfl
      rw [hentries]
      exact List.filter_sublist.subset
    have hreached := hmissing.foldl (r.inquiries client vendor during)
    rw [hreading]
    intro e he
    rw [clock_conclude]
    rcases entries_conclude _ _ _ _ e he with he | ⟨c, hc, rfl⟩
    · exact hreached e he
    · -- the new entry is what the last attempt brought
      obtain ⟨earlier, hlast⟩ := hends.last
      rw [hc] at hlast
      have hrecalls : Recalls (history ++ r.inquiries client vendor during) _ _ _ c :=
        ⟨history ++ earlier, [], by rw [List.append_assoc, ← hlast], List.not_mem_nil⟩
      exact ⟨hrecalls, Nat.le_refl _⟩

end Reads

/-! ## Whole histories -/

section Live

variable {config : OracleConfig} {source : ChainSource S} {clock : Nat}

theorem settings_live (uses : List (Use S)) :
    ((opened config source clock).live uses).2.settings = (opened config source clock).settings := by
  induction uses with
  | nil => rfl
  | cons u earlier ih =>
    refine Eq.trans ?_ ih
    cases u with
    | disturb x => exact settings_suffer _ (.disturbed x)
    | sleep millis => exact settings_suffer _ (.passed (pauseLength millis))
    | read client vendor during =>
      have hsome : ((opened config source clock).live earlier).2.cache.isSome := by
        have h := congrArg Option.isSome ih
        simpa [settings, opened] using h
      obtain ⟨cache, hcache⟩ := Option.isSome_iff_exists.mp hsome
      exact settings_reading hcache

/-- The cache of a reader that has one is set as it was in the beginning. -/
theorem cache_live (config : OracleConfig) (source : ChainSource S) (clock : Nat) (uses : List (Use S)) :
    ∃ cache, ((opened config source clock).live uses).2.cache = some cache ∧ cache.ttl = config.ttlMs.toNat ∧
      cache.retries = config.retryAttempts.toNat := by
  obtain ⟨cache, hcache, h⟩ := Option.map_eq_some_iff.mp
    ((settings_live uses).trans rfl : ((opened config source clock).live uses).2.settings = some _)
  simp only [Prod.mk.injEq] at h
  exact ⟨cache, hcache, h.1, h.2.1⟩

theorem backed_live (uses : List (Use S)) :
    Backed ((opened config source clock).live uses).1 ((opened config source clock).live uses).2 := by
  induction uses with
  | nil => exact fun e he => by cases he
  | cons u earlier ih =>
    cases u with
    | disturb x => exact ih.suffer (.disturbed x)
    | sleep millis => exact ih.suffer (.passed (pauseLength millis))
    | read client vendor during =>
      obtain ⟨cache, hcache, -⟩ := cache_live config source clock earlier
      exact ih.reading hcache

/-- A read is told by its inquiries, and leaves the source and the clock as they say. -/
theorem told_reading {r : ChainReader S} {cache : ChainCache S} (hcache : r.cache = some cache)
    (client vendor : S.Party) (during : Nat → List (Disturbance S)) :
    r.Told (r.inquiries client vendor during) ∧
      ((r.inquiries client vendor during).foldl suffer r).Synced (r.reading client vendor during).2 := by
  rcases fresh_or_stale r cache client vendor with ⟨e, he, hfresh⟩ | hstale
  · obtain ⟨hnone, hreading⟩ := reading_of_fresh during hcache he hfresh
    rw [hnone, hreading]
    exact ⟨trivial, rfl, rfl⟩
  · obtain ⟨-, hreading⟩ := reading_of_stale during hcache hstale
    have hmissing : (r.missing cache client vendor).Synced r := ⟨rfl, rfl⟩
    refine ⟨hmissing.told ?_, (hmissing.symm.foldl _).trans ?_⟩
    · rw [inquiries_of_stale during hcache hstale]
      exact told_attempts during _ _ _ _ _ _
    · rw [hreading]
      exact ⟨clock_conclude _ _ _ _, source_conclude _ _ _ _⟩

/-- So does every use. -/
theorem told_use {r : ChainReader S} {cache : ChainCache S} (hcache : r.cache = some cache) (u : Use S) :
    r.Told (r.incidents u) ∧ ((r.incidents u).foldl suffer r).Synced (r.use u) := by
  cases u with
  | disturb x => exact ⟨⟨trivial, trivial⟩, rfl, rfl⟩
  | sleep millis => exact ⟨⟨trivial, trivial⟩, rfl, rfl⟩
  | read client vendor during => exact told_reading hcache client vendor during

/-- The history of a reader is true of the reader at its beginning. -/
theorem told_live (uses : List (Use S)) :
    let lived := (opened config source clock).live uses
    (opened config source clock).Told lived.1 ∧
      (lived.1.foldl suffer (opened config source clock)).Synced lived.2 := by
  induction uses with
  | nil => exact ⟨trivial, rfl, rfl⟩
  | cons u earlier ih =>
    obtain ⟨htold, hsynced⟩ := ih
    obtain ⟨cache, hcache, -⟩ := cache_live config source clock earlier
    obtain ⟨hnext, hafter⟩ := told_use hcache u
    refine ⟨told_append.mpr ⟨htold, hsynced.symm.told hnext⟩, ?_⟩
    simp only [live, List.foldl_append]
    exact (hsynced.foldl _).trans hafter

end Live

/-- What a read for a client and a vendor keeps to, after a history and with settings for the cache. -/
structure FailsClosed (config : OracleConfig) (history : List (Incident S)) (r : ChainReader S)
    (client vendor : S.Party) (during : Nat → List (Disturbance S)) : Prop where
  /-- What is handed out was the source's answer just now, or less than the time to live ago and the client was
  not forgotten since. -/
  fresh : ∀ c, (r.reading client vendor during).1 = .ok c →
    .asked client vendor (r.reading client vendor during).2.clock (.ok c) ∈ r.inquiries client vendor during ∨
      ∃ time, Recalls history client vendor time c ∧ time ≤ (r.reading client vendor during).2.clock ∧
        (r.reading client vendor during).2.clock - time < config.ttlMs.toNat
  /-- If there is no such answer, the source is asked. -/
  asks : (∀ time c, Recalls history client vendor time c → config.ttlMs.toNat ≤ r.clock - time) →
    answers (r.inquiries client vendor during) ≠ []
  /-- Once the source answers, so does the read. -/
  answered : ∀ c, .ok c ∈ answers (r.inquiries client vendor during) →
    (r.reading client vendor during).1 = .ok c
  /-- If every attempt fails, there were as many as are allowed; the read fails as the last one did, and the
  cache has no entry of the pair. -/
  closed : answers (r.inquiries client vendor during) ≠ [] →
    (∀ c, .ok c ∉ answers (r.inquiries client vendor during)) →
    (answers (r.inquiries client vendor during)).length = config.retryAttempts.toNat + 1 ∧
      (answers (r.inquiries client vendor during)).getLast? = some (r.reading client vendor during).1 ∧
      (∃ detail, (r.reading client vendor during).1 = .error detail) ∧
      ∀ e ∈ (r.reading client vendor during).2.entries, e.client = client → e.vendor ≠ vendor
  /-- The source counts the times that it is asked. -/
  counted : (r.reading client vendor during).2.source.reads =
    r.source.reads + (answers (r.inquiries client vendor during)).length
  /-- Nothing is cached for no time. -/
  uncached : config.ttlMs = 0 → r.source.reads < (r.reading client vendor during).2.source.reads

section Promises

variable {config : OracleConfig} {history : List (Incident S)} {client vendor : S.Party}
  {during : Nat → List (Disturbance S)} {r : ChainReader S} {cache : ChainCache S}

/-- A read that finds a fresh entry. -/
theorem failsClosed_of_fresh (h : Backed history r) (hcache : r.cache = some cache)
    (httl : cache.ttl = config.ttlMs.toNat) {e : CacheEntry S} (he : cache.lookup? client vendor = some e)
    (hfresh : r.clock - e.fetchedAt < cache.ttl) : FailsClosed config history r client vendor during := by
  obtain ⟨hmem, rfl, rfl⟩ := mem_of_lookup? he
  obtain ⟨hnone, hreading⟩ := reading_of_fresh during hcache he hfresh
  have hanswers : answers (r.inquiries e.client e.vendor during) = [] := by rw [hnone]; rfl
  obtain ⟨hrecalls, hpast⟩ := h e (entries_eq hcache ▸ hmem)
  rw [httl] at hfresh
  exact {
    fresh := fun c hc => by
      rw [hreading] at hc ⊢
      obtain rfl := Except.ok.inj hc
      exact .inr ⟨_, hrecalls, hpast, hfresh⟩
    asks := fun hold => absurd hfresh (Nat.not_lt.mpr (hold _ _ hrecalls))
    answered := fun c hc => by rw [hanswers] at hc; cases hc
    closed := fun hasked => absurd hanswers hasked
    counted := by rw [hanswers, hreading]; rfl
    uncached := fun hzero => by
      rw [hzero] at hfresh
      cases hfresh }

/-- A read that finds none. -/
theorem failsClosed_of_stale (hcache : r.cache = some cache)
    (hretries : cache.retries = config.retryAttempts.toNat)
    (hstale : ∀ e, cache.lookup? client vendor = some e → cache.ttl ≤ r.clock - e.fetchedAt) :
    FailsClosed config history r client vendor during := by
  obtain ⟨hends, hreading⟩ := reading_of_stale during hcache hstale
  obtain ⟨details, hanswers, -, hfinal⟩ := hends.failed
  have hasked : answers (r.inquiries client vendor during) ≠ [] := by simp [hanswers]
  have hcounted : (r.reading client vendor during).2.source.reads =
      r.source.reads + (answers (r.inquiries client vendor during)).length := by
    rw [hreading, source_conclude, reads_foldl]
    rfl
  exact {
    fresh := fun c hc => by
      rw [hreading, clock_conclude, ← hc]
      exact .inl hends.mem
    asks := fun _ => hasked
    answered := fun c hc => by
      rw [hanswers] at hc
      simpa [eq_comm] using hc
    closed := fun _ hfailed => by
      cases hout : (r.reading client vendor during).1 with
      | ok c => exact absurd (by simp [hanswers, hout]) (hfailed c)
      | error detail =>
        refine ⟨?_, ?_, ⟨detail, rfl⟩, ?_⟩
        · rw [hanswers, List.length_append, List.length_map, hfinal detail hout, hretries]
          rfl
        · rw [hanswers, hout, List.getLast?_append]
          rfl
        · intro e he hclient hvendor
          rw [hreading, hout] at he
          rcases entries_conclude _ _ _ _ e he with he | ⟨c, hc, -⟩
          · have hother := entries_foldl _ _ he
            rw [entries_missing] at hother
            simpa [ChainCache.others, ChainCache.isFor, hclient, hvendor] using (List.mem_filter.mp hother).2
          · cases hc
    counted := hcounted
    uncached := fun _ => by
      rw [hcounted]
      exact Nat.lt_add_of_pos_right (List.length_pos_iff.mpr hasked) }

/-- Whatever happened to a reader with a cache, and whatever happens in the pauses of a read: its history is true,
no read hands out what is stale or was forgotten, and a read whose attempts all fail fails as the last of them and
leaves no entry. -/
theorem never_stale (config : OracleConfig) (source : ChainSource S) (clock : Nat) (uses : List (Use S))
    (client vendor : S.Party) (during : Nat → List (Disturbance S)) :
    let start := opened config source clock
    let lived := start.live uses
    start.Told (lived.1 ++ lived.2.inquiries client vendor during) ∧
      FailsClosed config lived.1 lived.2 client vendor during := by
  intro start lived
  refine ⟨(told_live (.read client vendor during :: uses)).1, ?_⟩
  obtain ⟨cache, hcache, httl, hretries⟩ := cache_live config source clock uses
  rcases fresh_or_stale lived.2 cache client vendor with ⟨e, he, hfresh⟩ | hstale
  · exact failsClosed_of_fresh (backed_live uses) hcache httl he hfresh
  · exact failsClosed_of_stale hcache hretries hstale

end Promises

end ChainReader
end VoucherGateway
