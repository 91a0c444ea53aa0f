import Mathlib.Data.Finset.Card
import VoucherGateway.Proofs.Chain.Backoff

/-!
# Recency — what a cache keeps

The entries of a cache stand in the order of their last answered reads: whatever stands in front of an entry has been
read since (`Retained.ordered`).  So an entry falls out at the back only after as many other pairs have been read as
there is room for, and until then it is found as long as it is fresh and its client is not forgotten.

Main statement: `retains_recent`.
-/

namespace VoucherGateway

variable {S : Scheme}

/-- The client and the vendor of an entry. -/
def CacheEntry.pair (e : CacheEntry S) : S.Party × S.Party := (e.client, e.vendor)

/-! ## Entries in their order -/

section Entries

variable {rivals : S.Party × S.Party → Finset (S.Party × S.Party)} {es : List (CacheEntry S)}

/-- Whatever stands in front of an entry is among the rivals of its pair. -/
def Ordered (rivals : S.Party × S.Party → Finset (S.Party × S.Party)) (es : List (CacheEntry S)) : Prop :=
  es.Pairwise fun front e => front.pair ∈ rivals e.pair

/-- If no pair is a rival of its own, none has two entries. -/
theorem Ordered.nodup (h : Ordered rivals es) (hself : ∀ p, p ∉ rivals p) : (es.map CacheEntry.pair).Nodup := by
  refine List.pairwise_map.2 (h.imp fun {front e} hrival hsame => ?_)
  rw [hsame] at hrival
  exact hself _ hrival

/-- An entry with fewer rivals than there is room for stays when the rest is cut off. -/
theorem Ordered.mem_take {e : CacheEntry S} {n : Nat} (h : Ordered rivals es) (hself : ∀ p, p ∉ rivals p)
    (he : e ∈ es) (hroom : (rivals e.pair).card < n) : e ∈ es.take n := by
  obtain ⟨front, back, rfl⟩ := List.append_of_mem he
  -- those in front are rivals, and all of them different
  have hnodup : (front.map CacheEntry.pair).Nodup := by
    have hall := h.nodup hself
    rw [List.map_append] at hall
    exact hall.of_append_left
  have hrivals : (front.map CacheEntry.pair).toFinset ⊆ rivals e.pair := by
    intro p hp
    obtain ⟨x, hx, rfl⟩ := List.mem_map.1 (List.mem_toFinset.1 hp)
    exact (List.pairwise_append.1 h).2.2 x hx e List.mem_cons_self
  have hlength : front.length < n := by
    calc
      front.length = (front.map CacheEntry.pair).toFinset.card := by
        rw [List.toFinset_card_of_nodup hnodup, List.length_map]
      _ ≤ (rivals e.pair).card := Finset.card_le_card hrivals
      _ < n := hroom
  rw [List.take_append, List.mem_append]
  obtain ⟨k, hk⟩ := Nat.exists_eq_add_of_lt hlength
  have hleft : n - front.length = k + 1 := by omega
  exact .inr (by rw [hleft, List.take_succ_cons]; exact List.mem_cons_self)

theorem isFor_iff {client vendor : S.Party} {e : CacheEntry S} :
    ChainCache.isFor client vendor e = true ↔ e.pair = (client, vendor) := by
  simp [ChainCache.isFor, CacheEntry.pair]

end Entries

namespace ChainReader

/-! ## Rivals -/

/-- The other pairs that were read since a pair was last read and answered.  Uses are listed newest first. -/
def rivals (start : ChainReader S) : List (Use S) → S.Party × S.Party → Finset (S.Party × S.Party)
  | [], _ => ∅
  | .read client vendor during :: earlier, p =>
    if p = (client, vendor) then
      match ((start.live earlier).2.reading client vendor during).1 with
      | .ok _ => ∅
      -- a read that fails keeps nothing, and so the others count on
      | .error _ => rivals start earlier p
    else insert (client, vendor) (rivals start earlier p)
  | _ :: earlier, p => rivals start earlier p

section Rivals

variable {start : ChainReader S} {earlier : List (Use S)} {client vendor : S.Party}
  {during : Nat → List (Disturbance S)}

theorem not_mem_rivals (start : ChainReader S) (uses : List (Use S)) (p : S.Party × S.Party) :
    p ∉ rivals start uses p := by
  induction uses with
  | nil => simp [rivals]
  | cons u earlier ih =>
    cases u with
    | disturb x => exact ih
    | sleep millis => exact ih
    | read client vendor during =>
      unfold rivals
      split
      · split
        · simp
        · exact ih
      · next hother => simp [hother, ih]

theorem rivals_read_of_ne {p : S.Party × S.Party} (h : p ≠ (client, vendor)) :
    rivals start (.read client vendor during :: earlier) p =
      insert (client, vendor) (rivals start earlier p) := by
  simp only [rivals, if_neg h]

theorem rivals_read_of_error {detail : String}
    (h : ((start.live earlier).2.reading client vendor during).1 = .error detail) :
    rivals start (.read client vendor during :: earlier) (client, vendor) =
      rivals start earlier (client, vendor) := by
  simp only [rivals, if_true, h]

theorem subset_rivals_read {p : S.Party × S.Party} (h : p ≠ (client, vendor)) :
    rivals start earlier p ⊆ rivals start (.read client vendor during :: earlier) p := by
  rw [rivals_read_of_ne h]
  exact Finset.subset_insert _ _

/-- Entries of other pairs keep their order when a pair is read. -/
theorem ordered_behind {es : List (CacheEntry S)} (h : Ordered (rivals start earlier) es)
    (hothers : ∀ e ∈ es, e.pair ≠ (client, vendor)) :
    Ordered (rivals start (.read client vendor during :: earlier)) es :=
  List.Pairwise.imp_of_mem (fun _ he hrival => subset_rivals_read (hothers _ he) hrival) h

/-- The entry of the pair that is read may go in front of them. -/
theorem ordered_front {es : List (CacheEntry S)} {e : CacheEntry S} (h : Ordered (rivals start earlier) es)
    (hothers : ∀ e ∈ es, e.pair ≠ (client, vendor)) (he : e.pair = (client, vendor)) :
    Ordered (rivals start (.read client vendor during :: earlier)) (e :: es) := by
  refine List.pairwise_cons.2 ⟨fun x hx => ?_, ordered_behind h hothers⟩
  rw [rivals_read_of_ne (hothers x hx), he]
  exact Finset.mem_insert_self _ _

end Rivals

/-! ## What a history says of a pair -/

section Histories

variable {history more : List (Incident S)} {client vendor : S.Party} {time : Nat} {c : ChainSnapshot}
  {during : Nat → List (Disturbance S)}

/-- Without a new answer it is the old one that is recalled. -/
theorem Recalls.of_append (h : Recalls (history ++ more) client vendor time c)
    (hnew : .asked client vendor time (.ok c) ∉ more) :
    Recalls history client vendor time c ∧ .disturbed (.invalidated client) ∉ more := by
  obtain ⟨earlier, later, hsplit, hlater⟩ := h
  rcases List.append_eq_append_iff.1 hsplit with ⟨middle, -, hmore⟩ | ⟨middle, hhistory, hrest⟩
  · exact absurd (by rw [hmore]; simp) hnew
  · cases middle with
    | nil => exact absurd (by rw [← List.nil_append more, ← hrest]; exact List.mem_cons_self) hnew
    | cons i middle =>
      obtain ⟨rfl, rfl⟩ := List.cons_eq_cons.1 hrest
      have hneither : .disturbed (.invalidated client) ∉ middle ∧ .disturbed (.invalidated client) ∉ more :=
        not_or.1 fun h => hlater (List.mem_append.2 h)
      exact ⟨⟨earlier, middle, hhistory, hneither.1⟩, hneither.2⟩

theorem not_asked_interlude {millis : Nat} {r : ChainReader S} {answer : Except String ChainSnapshot} :
    .asked client vendor time answer ∉ interlude during millis r := by
  simp [interlude]

/-- A read asks for its own pair only. -/
theorem pair_of_mem_attempts {backoff failures left : Nat} {r : ChainReader S} {client' vendor' : S.Party}
    {answer : Except String ChainSnapshot}
    (h : .asked client' vendor' time answer ∈ attempts during backoff client vendor failures left r) :
    client' = client ∧ vendor' = vendor := by
  have hlast : ∀ r : ChainReader S, .asked client' vendor' time answer ∈ [r.inquiry client vendor] →
      client' = client ∧ vendor' = vendor := fun r hr => by
    cases List.mem_singleton.1 hr
    exact ⟨rfl, rfl⟩
  induction left generalizing failures r with
  | zero => exact hlast r h
  | succ left ih =>
    unfold attempts at h
    cases hanswer : r.answer client with
    | ok _ => rw [hanswer] at h; exact hlast r h
    | error _ =>
      rw [hanswer] at h
      rcases List.mem_append.1 h with h | h
      · rcases List.mem_cons.1 h with h | h
        · exact hlast r (List.mem_singleton.2 h)
        · exact absurd h not_asked_interlude
      · exact ih h

theorem pair_of_mem_inquiries {r : ChainReader S} {cache : ChainCache S} {client' vendor' : S.Party}
    {answer : Except String ChainSnapshot} (hcache : r.cache = some cache)
    (h : .asked client' vendor' time answer ∈ r.inquiries client vendor during) :
    (client', vendor') = (client, vendor) := by
  rcases fresh_or_stale r cache client vendor with ⟨e, he, hfresh⟩ | hstale
  · rw [(reading_of_fresh during hcache he hfresh).1] at h
    cases h
  · rw [inquiries_of_stale during hcache hstale] at h
    obtain ⟨rfl, rfl⟩ := pair_of_mem_attempts h
    rfl

theorem clock_foldl (is : List (Incident S)) (r : ChainReader S) : r.clock ≤ (is.foldl suffer r).clock := by
  induction is generalizing r with
  | nil => exact Nat.le_refl _
  | cons i is ih => exact Nat.le_trans (clock_suffer r i) (ih _)

/-- What is asked in a true history is asked before its end. -/
theorem Told.time_le {r : ChainReader S} {answer : Except String ChainSnapshot} (h : r.Told history)
    (hasked : .asked client vendor time answer ∈ history) : time ≤ (history.foldl suffer r).clock := by
  induction history generalizing r with
  | nil => cases hasked
  | cons i rest ih =>
    rcases List.mem_cons.1 hasked with rfl | hasked
    · have htime : r.clock = time := h.1.1
      rw [← htime]
      exact clock_foldl _ r
    · exact ih h.2 hasked

theorem mem_remembered {is : List (Incident S)} {es : List (CacheEntry S)} {e : CacheEntry S} :
    e ∈ remembered is es ↔ e ∈ es ∧ .disturbed (.invalidated e.client) ∉ is := by
  have hforgets : ∀ i : Incident S, i.forgets e.client = true ↔ i = .disturbed (.invalidated e.client) := by
    intro i
    unfold Incident.forgets
    split
    · next c => simp [eq_comm]
    · next hother =>
      simp only [Bool.false_eq_true, false_iff]
      exact fun hi => hother _ hi
  simp only [remembered, List.mem_filter, Bool.not_eq_true', List.any_eq_false, hforgets]
  exact and_congr_right fun _ => ⟨fun h hmem => h _ hmem rfl, fun h i hi heq => h (heq ▸ hi)⟩

end Histories

/-! ## What a cache keeps -/

/-- What holds of a cache after a reader was used. -/
structure Retained (start : ChainReader S) (uses : List (Use S)) (cache : ChainCache S) : Prop where
  cached : (start.live uses).2.cache = some cache
  bounded : cache.entries.length ≤ cache.capacity
  /-- Whatever stands in front of an entry has been read since the entry was. -/
  ordered : Ordered (rivals start uses) cache.entries
  /-- An entry is the last answer for its pair. -/
  latest : ∀ e ∈ cache.entries, ∀ time c, .asked e.client e.vendor time (.ok c) ∈ (start.live uses).1 →
    time ≤ e.fetchedAt
  /-- An answer that is fresh has an entry, unless its client was forgotten or there are too many rivals. -/
  present : ∀ client vendor time c, Recalls (start.live uses).1 client vendor time c →
    (start.live uses).2.clock - time < cache.ttl → (rivals start uses (client, vendor)).card < cache.capacity →
    ∃ e ∈ cache.entries, e.pair = (client, vendor)

section Steps

variable {start : ChainReader S} {earlier : List (Use S)} {cache cache' : ChainCache S} {client vendor : S.Party}
  {during : Nat → List (Disturbance S)}

theorem mem_others {e : CacheEntry S} :
    e ∈ cache.others client vendor ↔ e ∈ cache.entries ∧ e.pair ≠ (client, vendor) := by
  simp only [ChainCache.others, List.mem_filter, Bool.not_eq_true', ← Bool.not_eq_true, isFor_iff, ne_eq]

theorem mem_missed {r : ChainReader S} {e : CacheEntry S} :
    e ∈ (r.missed cache client vendor during).entries ↔
      (e ∈ cache.entries ∧ e.pair ≠ (client, vendor)) ∧
        .disturbed (.invalidated e.client) ∉ r.inquiries client vendor during :=
  mem_remembered.trans (and_congr_left' mem_others)

theorem Recalls.mem {history : List (Incident S)} {time : Nat} {c : ChainSnapshot}
    (h : Recalls history client vendor time c) : .asked client vendor time (.ok c) ∈ history := by
  obtain ⟨earlier, later, rfl, -⟩ := h
  simp

theorem clock_use {r : ChainReader S} (hcache : r.cache = some cache) (u : Use S) : r.clock ≤ (r.use u).clock := by
  rw [(told_use hcache u).2.clock]
  exact clock_foldl _ r

/-- What has an entry and is fresh is found. -/
theorem Retained.finds (h : Retained start earlier cache) {time : Nat} {c : ChainSnapshot}
    (hrecalls : Recalls (start.live earlier).1 client vendor time c)
    (hfresh : (start.live earlier).2.clock - time < cache.ttl)
    (hroom : (rivals start earlier (client, vendor)).card < cache.capacity) :
    ∃ e, cache.lookup? client vendor = some e ∧ time ≤ e.fetchedAt ∧
      (start.live earlier).2.clock - e.fetchedAt < cache.ttl := by
  obtain ⟨e₀, he₀, hpair⟩ := h.present client vendor time c hrecalls hfresh hroom
  have hsome : (cache.lookup? client vendor).isSome := List.find?_isSome.2 ⟨e₀, he₀, isFor_iff.2 hpair⟩
  obtain ⟨e, he⟩ := Option.isSome_iff_exists.1 hsome
  obtain ⟨hmem, rfl, rfl⟩ := mem_of_lookup? he
  have hlatest : time ≤ e.fetchedAt := h.latest e hmem time c hrecalls.mem
  exact ⟨e, he, hlatest, by omega⟩

/-- Between the reads entries only go when their client is forgotten. -/
theorem Retained.suffer {u : Use S} {i : Incident S} (h : Retained start earlier cache)
    (hlive : start.live (u :: earlier) = ((start.live earlier).1 ++ [i], (start.live earlier).2.suffer i))
    (hrivals : rivals start (u :: earlier) = rivals start earlier) (hanswer : i.answer? = none) :
    Retained start (u :: earlier) { cache with entries := remembered [i] cache.entries } := by
  have hnew : ∀ client vendor time c, .asked client vendor time (.ok c) ∉ [i] := by
    intro client vendor time c hmem
    rw [← List.mem_singleton.1 hmem] at hanswer
    cases hanswer
  exact {
    cached := by
      rw [hlive]
      exact cache_suffer h.cached i
    bounded := (List.length_filter_le _ _).trans h.bounded
    ordered := by
      rw [hrivals]
      exact List.Pairwise.filter _ h.ordered
    latest := fun e he time c hasked => by
      rw [hlive] at hasked
      exact h.latest e (mem_remembered.1 he).1 time c
        ((List.mem_append.1 hasked).resolve_right (hnew _ _ _ _))
    present := fun client vendor time c hrecalls hfresh hroom => by
      rw [hlive] at hrecalls hfresh
      obtain ⟨hrecalled, hkept⟩ := hrecalls.of_append (hnew _ _ _ _)
      have hclock := clock_suffer (start.live earlier).2 i
      obtain ⟨e, he, hpair⟩ := h.present client vendor time c hrecalled (by dsimp only at hfresh; omega)
        (hrivals ▸ hroom)
      refine ⟨e, mem_remembered.2 ⟨he, ?_⟩, hpair⟩
      rwa [show e.client = client from congrArg Prod.fst hpair] }

/-! A read is over when the pair itself is dealt with: what it does to the entries of other pairs is always the same. -/

theorem Retained.ordered_missed (h : Retained start earlier cache) :
    Ordered (rivals start earlier)
      ((start.live earlier).2.missed cache client vendor during).entries :=
  (List.Pairwise.filter _ h.ordered).filter _

theorem length_missed (r : ChainReader S) (cache : ChainCache S) (client vendor : S.Party)
    (during : Nat → List (Disturbance S)) :
    (r.missed cache client vendor during).entries.length ≤ cache.entries.length :=
  (List.length_filter_le _ _).trans (List.length_filter_le _ _)

theorem Retained.latest_missed (h : Retained start earlier cache) {e : CacheEntry S}
    (he : e ∈ ((start.live earlier).2.missed cache client vendor during).entries) {time : Nat} {c : ChainSnapshot}
    (hasked : .asked e.client e.vendor time (.ok c) ∈ (start.live (.read client vendor during :: earlier)).1) :
    time ≤ e.fetchedAt := by
  obtain ⟨⟨hmem, hpair⟩, -⟩ := mem_missed.1 he
  refine h.latest e hmem time c ((List.mem_append.1 hasked).resolve_right fun hnew => ?_)
  exact hpair (pair_of_mem_inquiries h.cached hnew)

theorem Retained.present_missed (h : Retained start earlier cache) {c v : S.Party} {time : Nat}
    {snapshot : ChainSnapshot} (hpair : (c, v) ≠ (client, vendor))
    (hrecalls : Recalls (start.live (.read client vendor during :: earlier)).1 c v time snapshot)
    (hfresh : (start.live (.read client vendor during :: earlier)).2.clock - time < cache.ttl)
    (hroom : (rivals start (.read client vendor during :: earlier) (c, v)).card < cache.capacity) :
    ∃ e ∈ ((start.live earlier).2.missed cache client vendor during).entries, e.pair = (c, v) := by
  obtain ⟨hrecalled, hkept⟩ := hrecalls.of_append fun hnew => hpair (pair_of_mem_inquiries h.cached hnew)
  have hclock : (start.live earlier).2.clock ≤ (start.live (.read client vendor during :: earlier)).2.clock :=
    clock_use h.cached (.read client vendor during)
  have hfewer : (rivals start earlier (c, v)).card ≤
      (rivals start (.read client vendor during :: earlier) (c, v)).card :=
    Finset.card_le_card (subset_rivals_read hpair)
  obtain ⟨e, he, rfl, rfl⟩ : ∃ e ∈ cache.entries, e.client = c ∧ e.vendor = v := by
    obtain ⟨e, he, h⟩ := h.present c v time snapshot hrecalled (by omega) (by omega)
    exact ⟨e, he, congrArg Prod.fst h, congrArg Prod.snd h⟩
  exact ⟨e, mem_missed.2 ⟨⟨he, hpair⟩, hkept⟩, rfl⟩

/-- A read that is answered, from the cache or by the source, leaves an entry of its pair in front. -/
theorem Retained.answered (h : Retained start earlier cache) {x : CacheEntry S}
    (hcached : (start.live (.read client vendor during :: earlier)).2.cache = some cache')
    (hentries : cache'.entries =
      (x :: ((start.live earlier).2.missed cache client vendor during).entries).take cache.capacity)
    (httl : cache'.ttl = cache.ttl) (hcapacity : cache'.capacity = cache.capacity)
    (hx : x.pair = (client, vendor))
    (hlatest : ∀ time c,
      .asked client vendor time (.ok c) ∈ (start.live (.read client vendor during :: earlier)).1 →
        time ≤ x.fetchedAt) :
    Retained start (.read client vendor during :: earlier) cache' := by
  have hordered : Ordered (rivals start (.read client vendor during :: earlier))
      (x :: ((start.live earlier).2.missed cache client vendor during).entries) :=
    ordered_front h.ordered_missed (fun e he => (mem_missed.1 he).1.2) hx
  exact {
    cached := hcached
    bounded := by
      rw [hentries, hcapacity]
      exact List.length_take_le _ _
    ordered := by
      rw [hentries]
      exact List.Pairwise.take hordered
    latest := fun e he time c hasked => by
      rw [hentries] at he
      rcases List.mem_cons.1 (List.mem_of_mem_take he) with rfl | he
      · obtain ⟨rfl, rfl⟩ := Prod.mk.inj hx
        exact hlatest time c hasked
      · exact h.latest_missed he hasked
    present := fun c v time snapshot hrecalls hfresh hroom => by
      rw [httl] at hfresh
      rw [hcapacity] at hroom
      rw [hentries]
      have hhas : ∃ e ∈ x :: ((start.live earlier).2.missed cache client vendor during).entries,
          e.pair = (c, v) := by
        by_cases hpair : (c, v) = (client, vendor)
        · exact ⟨x, List.mem_cons_self, hx.trans hpair.symm⟩
        · obtain ⟨e, he, hsame⟩ := h.present_missed hpair hrecalls hfresh hroom
          exact ⟨e, List.mem_cons_of_mem _ he, hsame⟩
      -- its rivals are too few to push it out
      obtain ⟨e, he, hsame⟩ := hhas
      refine ⟨e, hordered.mem_take (not_mem_rivals _ _) he ?_, hsame⟩
      rwa [hsame] }

/-- A read that fails leaves no entry of its pair; it did not find one that was fresh. -/
theorem Retained.failed (h : Retained start earlier cache)
    (hcached : (start.live (.read client vendor during :: earlier)).2.cache = some cache')
    (hentries : cache'.entries = ((start.live earlier).2.missed cache client vendor during).entries)
    (httl : cache'.ttl = cache.ttl) (hcapacity : cache'.capacity = cache.capacity)
    (hstale : ∀ e, cache.lookup? client vendor = some e → cache.ttl ≤ (start.live earlier).2.clock - e.fetchedAt)
    {detail : String} (hdetail : ((start.live earlier).2.reading client vendor during).1 = .error detail) :
    Retained start (.read client vendor during :: earlier) cache' where
  cached := hcached
  bounded := by
    rw [hentries, hcapacity]
    exact (length_missed _ _ _ _ _).trans h.bounded
  ordered := by
    rw [hentries]
    exact ordered_behind h.ordered_missed fun e he => (mem_missed.1 he).1.2
  latest := fun e he time c hasked => h.latest_missed (hentries ▸ he) hasked
  present := fun c v time snapshot hrecalls hfresh hroom => by
    rw [httl] at hfresh
    rw [hcapacity] at hroom
    rw [hentries]
    by_cases hpair : (c, v) = (client, vendor)
    · obtain ⟨rfl, rfl⟩ := Prod.mk.inj hpair
      -- no attempt was answered, so it is an old answer that is recalled, and its entry would have been found
      obtain ⟨details, hanswers, -⟩ := (reading_of_stale during h.cached hstale).1.failed
      have hnew : .asked c v time (.ok snapshot) ∉ (start.live earlier).2.inquiries c v during := by
        intro hmem
        have hanswer : .ok snapshot ∈ answers ((start.live earlier).2.inquiries c v during) :=
          List.mem_filterMap.2 ⟨_, hmem, rfl⟩
        rw [hanswers, hdetail] at hanswer
        simp at hanswer
      have hclock : (start.live earlier).2.clock ≤ (start.live (.read c v during :: earlier)).2.clock :=
        clock_use h.cached (.read c v during)
      rw [rivals_read_of_error hdetail] at hroom
      obtain ⟨e, he, -, hyoung⟩ := h.finds (hrecalls.of_append hnew).1 (by omega) hroom
      exact absurd hyoung (Nat.not_lt.2 (hstale e he))
    · exact h.present_missed hpair hrecalls hfresh hroom

/-- A fresh entry makes room for itself when it moves to the front. -/
theorem length_others_lt {e : CacheEntry S} (he : cache.lookup? client vendor = some e) :
    (cache.others client vendor).length < cache.entries.length := by
  obtain ⟨hmem, rfl, rfl⟩ := mem_of_lookup? he
  exact List.length_filter_lt_length_iff_exists.2 ⟨e, hmem, by simp [ChainCache.isFor]⟩

end Steps

/-! ## Whole histories -/

section Live

variable {config : OracleConfig} {source : ChainSource S} {clock : Nat} {earlier : List (Use S)}
  {cache : ChainCache S} {client vendor : S.Party} {during : Nat → List (Disturbance S)}

theorem time_le_live {uses : List (Use S)} {time : Nat} {answer : Except String ChainSnapshot}
    (hasked : .asked client vendor time answer ∈ ((opened config source clock).live uses).1) :
    time ≤ ((opened config source clock).live uses).2.clock := by
  obtain ⟨htold, hsynced⟩ : (opened config source clock).Told ((opened config source clock).live uses).1 ∧
      (((opened config source clock).live uses).1.foldl suffer (opened config source clock)).Synced
        ((opened config source clock).live uses).2 := told_live uses
  rw [hsynced.clock]
  exact htold.time_le hasked

/-- A read keeps what a cache is to keep. -/
theorem Retained.reading (h : Retained (opened config source clock) earlier cache) (client vendor : S.Party)
    (during : Nat → List (Disturbance S)) :
    ∃ cache', Retained (opened config source clock) (.read client vendor during :: earlier) cache' := by
  have hcached := h.cached
  rcases fresh_or_stale _ cache client vendor with ⟨e, he, hfresh⟩ | hstale
  · obtain ⟨hnone, hreading⟩ := reading_of_fresh during hcached he hfresh
    obtain ⟨hmem, rfl, rfl⟩ := mem_of_lookup? he
    have hmissed : (((opened config source clock).live earlier).2.missed cache e.client e.vendor during).entries =
        cache.others e.client e.vendor := by
      simp [missed, hnone, remembered]
    have hcache := congrArg (·.2.cache) hreading
    refine ⟨_, h.answered hcache ?_ rfl rfl rfl fun time c hasked => ?_⟩
    · rw [hmissed, List.take_of_length_le]
      exact Nat.le_trans (length_others_lt he) h.bounded
    · simp only [live, incidents, hnone, List.append_nil] at hasked
      exact h.latest e hmem time c hasked
  · cases hout : (((opened config source clock).live earlier).2.reading client vendor during).1 with
    | ok c =>
      have hcache := cache_of_answer hcached hstale hout
      let time := (((opened config source clock).live earlier).2.reading client vendor during).2.clock
      refine ⟨_, h.answered (x := ⟨client, vendor, c, time⟩) hcache ?_ rfl rfl rfl ?_⟩
      · -- that the pair has no other entry any more is seen once more when the new one is kept
        have hothers : (((opened config source clock).live earlier).2.missed cache client vendor during).others
            client vendor = (((opened config source clock).live earlier).2.missed cache client vendor during).entries :=
          List.filter_eq_self.2 fun e he => by
            rw [Bool.not_eq_true', ← Bool.not_eq_true, isFor_iff]
            exact (mem_missed.1 he).1.2
        simp only [ChainCache.keep, hothers]
        rfl
      · exact fun time c hasked => time_le_live hasked
    | error detail =>
      exact ⟨_, h.failed (cache_of_failure hcached hstale hout) rfl rfl rfl hstale hout⟩

theorem retained_live (config : OracleConfig) (source : ChainSource S) (clock : Nat) (uses : List (Use S)) :
    ∃ cache, Retained (opened config source clock) uses cache := by
  induction uses with
  | nil =>
    refine ⟨.ofConfig config, rfl, Nat.zero_le _, List.Pairwise.nil, nofun, fun client vendor time c hrecalls => ?_⟩
    exact absurd hrecalls.mem List.not_mem_nil
  | cons u earlier ih =>
    obtain ⟨cache, ih⟩ := ih
    cases u with
    | disturb x => exact ⟨_, ih.suffer (i := .disturbed x) rfl rfl rfl⟩
    | sleep millis => exact ⟨_, ih.suffer (i := .passed (pauseLength millis)) rfl rfl rfl⟩
    | read client vendor during => exact ih.reading client vendor during

end Live

/-- Whatever happened to a reader with a cache: there are no more entries than there is room for, and they stand in
the order of the last answered reads of their pairs.  If the source has answered for a pair less than the time to
live ago, the client was not forgotten since, and fewer other pairs were read since the last answered read of this
one than there is room for, a read of the pair is served from the cache and the source is not asked.  A client who is
forgotten loses all entries, and those of the others stay in their order. -/
theorem retains_recent (config : OracleConfig) (source : ChainSource S) (clock : Nat) (uses : List (Use S)) :
    let start := opened config source clock
    let r := (start.live uses).2
    let room := max 1 config.cacheCapacity.toNat
    ∃ cache, r.cache = some cache ∧ cache.entries.length ≤ room ∧ Ordered (rivals start uses) cache.entries ∧
      (∀ (client vendor : S.Party) (during : Nat → List (Disturbance S)) (time : Nat) (c : ChainSnapshot),
        Recalls (start.live uses).1 client vendor time c → r.clock - time < config.ttlMs.toNat →
        (rivals start uses (client, vendor)).card < room →
        ∃ e ∈ cache.entries, e.pair = (client, vendor) ∧ time ≤ e.fetchedAt ∧
          r.inquiries client vendor during = [] ∧
          r.reading client vendor during = (.ok e.snapshot, { r with
            cache := some { cache with entries := e :: cache.others client vendor, hits := cache.hits + 1 } })) ∧
      ∀ client : S.Party, r.use (.disturb (.invalidated client)) = { r with
        cache := some { cache with entries := cache.entries.filter fun e => e.client ≠ client } } := by
  intro start r room
  obtain ⟨cache, hretained⟩ := retained_live config source clock uses
  have hcached : r.cache = some cache := hretained.cached
  have hsettings : r.settings = some (config.ttlMs.toNat, config.retryAttempts.toNat, config.retryBackoffMs.toNat,
      room) := settings_live uses
  rw [settings, hcached, Option.map_some, Option.some_inj, Prod.mk.injEq, Prod.mk.injEq, Prod.mk.injEq] at hsettings
  obtain ⟨httl, -, -, hroom⟩ := hsettings
  rw [← httl, ← hroom]
  refine ⟨cache, hcached, hretained.bounded, hretained.ordered, ?_, fun client => ?_⟩
  · intro client vendor during time c hrecalls hfresh hfew
    obtain ⟨e, he, hlatest, hyoung⟩ := hretained.finds hrecalls hfresh hfew
    obtain ⟨hmem, hclient, hvendor⟩ := mem_of_lookup? he
    obtain ⟨hnone, hreading⟩ := reading_of_fresh during hcached he hyoung
    exact ⟨e, hmem, congrArg₂ Prod.mk hclient hvendor, hlatest, hnone, hreading⟩
  · change r.invalidate client = _
    simp only [invalidate, hcached, Option.map_some, ChainCache.invalidate]

/-- With room for two, an entry outlives the read of one other pair. -/
theorem retains_recent_sample :
    let start := opened { ttlMs := 1000, cacheCapacity := 2 } ({} : ChainSource Scheme.plain) 0
    let uses : List (Use Scheme.plain) := [.sleep 999, .read 2 9 fun _ => [], .read 1 9 fun _ => []]
    ∃ e : CacheEntry Scheme.plain, e.pair = (1, 9) ∧
      ((start.live uses).2.reading 1 9 fun _ => []).1 = .ok e.snapshot := by
  intro start uses
  have hrecalls : Recalls (start.live uses).1 1 9 0 {} :=
    ⟨[], [.asked 2 9 0 (.ok {}), .passed 999], rfl, by simp⟩
  have hrivals : rivals start uses (1, 9) = {(2, 9)} := rfl
  obtain ⟨cache, -, -, -, hserved, -⟩ := retains_recent (S := Scheme.plain) { ttlMs := 1000, cacheCapacity := 2 } {} 0
    uses
  obtain ⟨e, -, hpair, -, -, hreading⟩ :=
    hserved 1 9 (fun _ => []) 0 {} hrecalls (by decide) (by rw [hrivals]; decide)
  exact ⟨e, hpair, congrArg Prod.fst hreading⟩

/-- Only an answered read makes an entry recent: here the pair has been answered for just now, is read again after
its entry had to go, and then no other pair is read, but as the last read failed there is still no entry. -/
theorem failed_read_keeps_nothing :
    let start := opened { ttlMs := 1000, retryAttempts := 0, cacheCapacity := 1 } ({} : ChainSource Scheme.plain) 0
    let before : List (Use Scheme.plain) :=
      [.disturb (.available false), .read 2 9 fun _ => [], .read 1 9 fun _ => []]
    let since : List (Use Scheme.plain) := [.disturb (.available true)]
    let lived := start.live (since ++ .read 1 9 (fun _ => []) :: before)
    Recalls lived.1 1 9 0 {} ∧ lived.2.clock - 0 < 1000 ∧
      (∀ u ∈ since, ∀ client vendor during, u ≠ .read client vendor during) ∧
      (lived.2.reading 1 9 fun _ => []).2.source.reads = lived.2.source.reads + 1 ∧
      (lived.2.reading 1 9 fun _ => []).2.cache.map (·.hits) = some 0 := by
  intro start before since lived
  refine ⟨⟨[], [.asked 2 9 0 (.ok {}), .disturbed (.available false), .asked 1 9 0 (.error "chain offline"),
    .disturbed (.available true)], rfl, by simp⟩, by decide +kernel, ?_, by decide +kernel, by decide +kernel⟩
  intro u hu client vendor during hread
  rw [List.mem_singleton.1 hu] at hread
  cases hread

end ChainReader
end VoucherGateway
