import VoucherGateway.Proofs.Clients.Passes
import VoucherGateway.Proofs.Ledger.Expiry
import VoucherGateway.Proofs.Run.Reliable

/-!
# Expiry — a pass of the reaper from beginning to end

While the store of locked cost answers, nothing that a pass tries fails but what is about a halted client.  So a
pass comes to the same whatever the order in which it takes the queries and the sessions up, and a second pass as of
the same time does nothing.  Main statement: `reaps_exactly`.
-/

namespace VoucherGateway

variable {S : Scheme}

namespace Sample

/-- The sample settings with limits of a minute. -/
def brisk : GatewayConfig :=
  { config with engine := { queryDeadlineSecs := 60, sessionIdleTimeoutSecs := 60, queryRetentionSecs := 60 } }

/-- The world at a time. -/
def worldAt (time : Nat) : World Scheme.plain := { world with chain := { world.chain with clock := time } }

end Sample

namespace Gateway

variable {g : Gateway S} {L : Ledger S} {q : Query S} {r : ChainReader S} {answering : Prop}

/-- The chain has not been read, and the store of locked cost answers every call, if it does so at all. -/
def Still (r : ChainReader S) (answering : Prop) (g : Gateway S) : Prop :=
  g.chain = r ∧ (answering → g.balances.Reliable)

/-! ## Aborting -/

section Confined

open VoucherGateway.Action

theorem confined_findQuery (id : QueryId) :
    Confined (Still r answering) (fun e => answering → ¬ e.IsOutage) (findQuery (S := S) id) := by
  refine .get_bind fun g _ => ?_
  cases g.queries.find? id with
  | some q => exact .pure q
  | none => exact .throw fun _ => nofun

theorem confined_subtractLocked (client : S.Party) (atoms : Atoms) :
    Confined (Still r answering) (fun e => answering → ¬ e.IsOutage)
      (onBalances fun book => CostStore.subtract book client atoms) := by
  -- of a store that need not answer nothing is claimed
  by_cases ha : answering
  · have hsteady : Steady (Still r answering) (onBalances fun book => CostStore.subtract book client atoms) :=
      (CostStore.steady_subtract .balances client atoms).within (fun _ hg => hg.2 ha)
        fun _ _ hs hg => ⟨hg.1, fun _ => hs⟩
    exact fun g hg => (hsteady g hg).mono_error fun _ _ h => ⟨h.1, fun _ => h.2⟩
  · have hany : Confined (Still r answering) (fun _ => True)
        (onBalances fun book => CostStore.subtract book client atoms) :=
      (Confined.trivial _).within (fun _ _ => trivial) fun _ _ _ hg => ⟨hg.1, fun h => absurd h ha⟩
    exact fun g hg => (hany g hg).mono_error fun _ _ h => ⟨h.1, fun h => absurd h ha⟩

theorem confined_releaseEstimate (q : Query S) :
    Confined (Still r answering) (fun e => answering → ¬ e.IsOutage) (releaseEstimate q) := by
  unfold releaseEstimate
  cases q.released with
  | true => exact .pure _
  | false => exact (confined_subtractLocked q.client q.estimated).bind fun _ => .update fun _ hg => hg

theorem confined_finishAborting (q : Query S) (forced : Bool) :
    Confined (Still r answering) (fun e => answering → ¬ e.IsOutage) (finishAborting q forced) := by
  refine (confined_releaseEstimate q).bind fun _ => .get_bind fun g _ => (confined_findQuery q.id).bind fun x => ?_
  dsimp only
  split
  · exact .bind (.update fun _ hg => hg) fun _ => .update fun _ hg => hg
  · next e he =>
    refine .bind (.update fun _ hg => hg) fun _ => .bind (.throw fun _ => ?_) fun _ => .update fun _ hg => hg
    unfold Query.moveTo at he
    split at he <;> cases he
    exact nofun

end Confined

/-- Whoever is not halted enters alone, and nothing that lasts is touched. -/
theorem run_enter_of_running {client : S.Party} (h : g.gate.isHalted client = false) :
    (enter client).run g = (.ok (), { g with gate := g.gate.setLock client (g.gate.lock client) }) := by
  have hnone : g.gate.haltReason? client = none := Option.not_isSome_iff_eq_none.1 (Bool.eq_false_iff.1 h)
  rw [Op.run_enter]
  unfold passGate Gate.pass
  rw [Action.run_get_bind, hnone]
  rfl

/-- A locked query of a client who is not halted is aborted, unless the store of locked cost does not answer. -/
theorem ends_abort_of_running (forced : Bool) (hL : L.Sound) (hg : g.ledger = L) (hq : q ∈ L.queries.rows)
    (hst : q.state = .locked) (hrun : L.halted.get? q.client = none) (hs : Still r answering g) :
    Ends (fun _ g' => g'.ledger = L.aborting q forced r.clock ∧ Still r answering g')
      (fun _ g' => g'.ledger = L ∧ Still r answering g' ∧ ¬ answering) ((abort q.id forced).run g) := by
  subst hg
  -- under the lock the query is found as it was
  have hnow : ∀ g' : Gateway S, g'.ledger = g.ledger → Still r answering g' →
      Ends (fun _ g'' => g''.ledger = g.ledger.aborting q forced r.clock ∧ Still r answering g'')
        (fun e g'' => (g''.ledger = g.ledger ∧ Still r answering g'' ∧ ¬ answering) ∧ e.isFatal = false)
        ((abortNow q.id forced).run g') := by
    intro g' hg' hs'
    unfold abortNow
    rw [Action.run_bind_of_ok (run_findQuery hL hg' hq), hst]
    refine ((ends_finishAborting forced hL hg' hq hst).and (confined_finishAborting q forced g' hs')).mono ?_ ?_
    · rintro _ g'' ⟨hledger, hs''⟩
      rw [hledger, now, hs''.1]
      exact ⟨rfl, hs''⟩
    · rintro e g'' ⟨⟨hledger, hout⟩, hs'', hanswered⟩
      exact ⟨⟨hledger, hs'', fun ha => hanswered ha hout⟩, hout.not_fatal⟩
  unfold abort
  rw [Op.run_bind, Op.run_perform, run_findQuery hL rfl hq]
  dsimp only
  rw [Op.run_bind, run_enter_of_running (isHalted_eq_false_iff.2 hrun)]
  dsimp only
  have hguarded : Ends _ _ ((guarding q.client (perform (abortNow q.id forced))).run _) :=
    Op.ends_guarding q.client (hnow { g with gate := g.gate.setLock q.client (g.gate.lock q.client) } rfl hs)
      fun _ _ h => h.2
  exact hguarded.mono_error fun _ _ h => h.1

end Gateway

/-- Whether a query has one of some numbers and a client who is not halted. -/
def Ledger.abortable (L : Ledger S) (ids : List QueryId) (q : Query S) : Bool :=
  decide (q.id ∈ ids) && (L.halted.get? q.client).isNone

/-- Whether a session has one of some numbers and lapses. -/
def Ledger.closable (L : Ledger S) (asOf : Nat) (ids : List SessionId) (s : Session S) : Bool :=
  decide (s.id ∈ ids) && L.lapses asOf s

namespace Gateway

variable {g : Gateway S} {L : Ledger S} {q : Query S} {r : ChainReader S} {answering : Prop}

theorem ends_forceAbort {id : QueryId} (hL : L.Sound) (hg : g.ledger = L)
    (hlocked : ∀ q ∈ L.queries.rows, q.id = id → q.state = .locked) (hs : Still r answering g) :
    Ends
      (fun done g' => Still r answering g' ∧
        L.Attempted (L.abortable [id]) answering r.clock done.toNat g'.ledger)
      (fun _ _ => False) ((forceAbort id).run g) := by
  subst hg
  -- without such a query, or if its client is halted, the abort fails and nothing happens
  have refused : (∀ q ∈ g.ledger.queries.rows, g.ledger.abortable [id] q = false) →
      ∀ e, (abort id true).run g = (.error e, g) →
      Ends
        (fun done g' => Still r answering g' ∧
          g.ledger.Attempted (g.ledger.abortable [id]) answering r.clock done.toNat g'.ledger)
        (fun _ _ => False) ((forceAbort id).run g) := by
    intro hnone e hrun
    rw [run_forceAbort, hrun]
    exact ⟨hs, .of_expired (.none hL hnone r.clock)⟩
  cases hfind : g.queries.find? id with
  | none =>
    refine refused (fun q hq => ?_) (.unknownQuery id.text) (by rw [abort, Op.run_findQuery_bind, hfind])
    have hid : q.id ≠ id := by simpa using List.find?_eq_none.1 hfind q hq
    simp [Ledger.abortable, hid]
  | some q =>
    obtain ⟨hq, rfl⟩ := QueryTable.mem_of_find? hfind
    -- whether the client of the query of that number is halted decides
    have decides : ∀ x ∈ g.ledger.queries.rows, g.ledger.abortable [q.id] x =
        (decide (x.id = q.id) && (g.ledger.halted.get? q.client).isNone) := by
      intro x hx
      by_cases hid : x.id = q.id
      · rw [hL.same hx hq hid]
        simp [Ledger.abortable]
      · simp [Ledger.abortable, hid]
    cases hrun : (g.ledger.halted.get? q.client).isNone with
    | false =>
      have hhalted : g.gate.isHalted q.client = true := by
        rw [← Bool.not_eq_false, isHalted_eq_false_iff, ← Option.isNone_iff_eq_none, hrun]
        exact Bool.false_ne_true
      obtain ⟨e, hrefused⟩ := Op.run_enter_bind_of_halted hhalted fun _ =>
        guarding q.client (perform (abortNow q.id true))
      refine refused (fun x hx => ?_) e (by rw [abort, Op.run_findQuery_bind, hfind]; exact hrefused)
      rw [decides x hx, hrun, Bool.and_false]
    | true =>
      have hst := hlocked q hq rfl
      have h := ends_abort_of_running true hL rfl hq hst (Option.isNone_iff_eq_none.1 hrun) hs
      rw [run_forceAbort]
      rcases hr : (abort q.id true).run g with ⟨e | _, g'⟩ <;> rw [hr] at h
      · obtain ⟨hsame, hs', hfailed⟩ := h
        exact ⟨hs', hsame ▸ .unanswered (hsame ▸ hL) hfailed _ r.clock⟩
      · obtain ⟨haborted, hs'⟩ := h
        have hone := Ledger.Expired.one hL hq hst r.clock
        rw [← haborted] at hone
        exact ⟨hs', .of_expired (hone.congr fun x hx => by rw [decides x hx, hrun, Bool.and_true])⟩

theorem add_successes (done : Bool) (others : Nat) : (if done then others + 1 else others) = done.toNat + others := by
  cases done
  · exact (Nat.zero_add _).symm
  · exact Nat.add_comm _ _

/-- Overdue queries are aborted one after another. -/
theorem ends_forceAborts {ids : List QueryId} (hn : ids.Nodup) (hL : L.Sound) (hg : g.ledger = L)
    (hlocked : ∀ q ∈ L.queries.rows, q.id ∈ ids → q.state = .locked) (hs : Still r answering g) :
    Ends (fun n g' => Still r answering g' ∧ L.Attempted (L.abortable ids) answering r.clock n g'.ledger)
      (fun _ _ => False) ((countSuccesses forceAbort ids).run g) := by
  induction ids generalizing g L with
  | nil => exact ⟨hs, hg ▸ .of_expired (.none (hg ▸ hL) (fun _ _ => rfl) r.clock)⟩
  | cons id rest ih =>
    obtain ⟨hnew, hn⟩ := List.nodup_cons.1 hn
    unfold countSuccesses
    refine Op.ends_bind (ends_forceAbort hL hg (fun q hq hid => hlocked q hq (hid ▸ List.mem_cons_self)) hs) ?_
    rintro done g₁ ⟨hs₁, h₁⟩
    have hlocked₁ : ∀ q ∈ g₁.ledger.queries.rows, q.id ∈ rest → q.state = .locked := by
      intro q hq hid
      rcases h₁.mem_queries hq with ⟨x, hx, hpicked, rfl⟩ | hq
      · -- the first one is not among the rest
        simp only [Ledger.abortable, List.mem_singleton, Bool.and_eq_true, decide_eq_true_eq] at hpicked
        exact absurd (hpicked.1 ▸ hid) hnew
      · exact hlocked q hq (List.mem_cons_of_mem id hid)
    refine Op.ends_bind (ih hn h₁.sound rfl hlocked₁ hs₁) ?_
    rintro others g₂ ⟨hs₂, h₂⟩
    refine ⟨hs₂, ?_⟩
    have hboth := h₁.trans h₂ (fun ha => ha) fun q hq hpicked => by
      simp only [Ledger.abortable, List.mem_singleton, Bool.and_eq_true, decide_eq_true_eq] at hpicked
      simp [Ledger.abortable, Query.expired, hpicked.1, hnew]
    rw [add_successes]
    refine hboth.congr fun q _ => ?_
    simp only [Ledger.abortable, h₁.halted, List.mem_cons, List.not_mem_nil, or_false, Bool.decide_or,
      Bool.and_or_distrib_right]

/-! ## Closing -/

/-- A session is closed exactly if it lapses. -/
theorem ends_closeIdle {asOf : Nat} {id : SessionId} (hn : L.sessions.Numbered) (hg : g.ledger = L)
    (hchain : g.chain = r) :
    Ends (fun done g' => g'.chain = r ∧ L.Closed (L.closable asOf [id]) asOf done.toNat g'.ledger) (fun _ _ => False)
      ((closeIdle asOf id).run g) := by
  subst hg
  have untouched : ∀ g' : Gateway S, g'.ledger = g.ledger → g'.chain = g.chain →
      (∀ s ∈ g.ledger.sessions.rows, g.ledger.closable asOf [id] s = false) →
      g'.chain = r ∧ g.ledger.Closed (g.ledger.closable asOf [id]) asOf Bool.false.toNat g'.ledger := by
    intro g' hg' hchain' hnone
    exact ⟨hchain'.trans hchain, hg' ▸ .none hnone asOf⟩
  unfold closeIdle
  rw [Op.run_get_bind]
  cases hfind : g.sessions.find? id with
  | none =>
    refine untouched g rfl rfl fun s hs => ?_
    have hid : s.id ≠ id := by simpa using List.find?_eq_none.1 hfind s hs
    simp [Ledger.closable, hid]
  | some s =>
    obtain ⟨hs, rfl⟩ := SessionTable.mem_of_find? hfind
    -- whether the session of that number lapses decides
    have decides : ∀ x ∈ g.ledger.sessions.rows,
        g.ledger.closable asOf [s.id] x = (decide (x.id = s.id) && g.ledger.lapses asOf s) := by
      intro x hx
      by_cases hid : x.id = s.id
      · obtain rfl := List.inj_on_of_nodup_map hn.nodup hx hs hid
        simp [Ledger.closable]
      · simp [Ledger.closable, hid]
    dsimp only
    rw [Op.run_bind, Op.run_attempt]
    cases hhalted : g.gate.isHalted s.client with
    | true =>
      obtain ⟨reason, hrefused⟩ := Op.run_enter_of_halted hhalted
      rw [hrefused]
      refine untouched g rfl rfl fun x hx => ?_
      have hsome : (g.ledger.halted.get? s.client).isNone = false := by
        rw [← Bool.not_eq_true, Option.isNone_iff_eq_none, ← isHalted_eq_false_iff, hhalted]
        nofun
      rw [decides x hx, Ledger.lapses, hsome, Bool.and_false, Bool.false_and, Bool.and_false]
    | false =>
      rw [run_enter_of_running hhalted]
      dsimp only
      rw [Op.run_get_bind]
      dsimp only
      -- what is asked again under the lock is whether the session lapses
      have hlapses : ((g.sessions.find? s.id).any (·.isIdle asOf g.config.engine.sessionIdleTimeout) &&
          !g.queries.hasLockedIn s.id) = g.ledger.lapses asOf s := by
        have hnone : (g.ledger.halted.get? s.client).isNone = true :=
          Option.isNone_iff_eq_none.2 (isHalted_eq_false_iff.1 hhalted)
        rw [hfind, Ledger.lapses, hnone, Bool.and_true]
        rfl
      rw [hlapses]
      cases hdone : g.ledger.lapses asOf s with
      | true =>
        refine ⟨hchain, ?_⟩
        have hone : g.ledger.Closed (g.ledger.closable asOf [s.id]) asOf 1 (g.ledger.post (.closed s.id asOf)) :=
          (Ledger.Closed.one hn hs asOf).congr fun x hx => by rw [decides x hx, hdone, Bool.and_true]
        have hledger : g.ledger.post (.closed s.id asOf) = _ := (ledger_count
          { g with
            gate := g.gate.setLock s.client (g.gate.lock s.client)
            sessions := g.sessions.close s.id asOf } .sessionClosed).symm
        rw [hledger] at hone
        exact hone
      | false =>
        refine untouched _ rfl rfl fun x hx => ?_
        rw [decides x hx, hdone, Bool.and_false]

/-- Sessions are closed one after another. -/
theorem ends_closeIdles {asOf : Nat} {ids : List SessionId} (hids : ids.Nodup) (hn : L.sessions.Numbered)
    (hg : g.ledger = L) (hchain : g.chain = r) :
    Ends (fun n g' => g'.chain = r ∧ L.Closed (L.closable asOf ids) asOf n g'.ledger) (fun _ _ => False)
      ((countSuccesses (closeIdle asOf) ids).run g) := by
  induction ids generalizing g L with
  | nil => exact ⟨hchain, hg ▸ .none (fun _ _ => rfl) asOf⟩
  | cons id rest ih =>
    obtain ⟨hnew, hrest⟩ := List.nodup_cons.1 hids
    unfold countSuccesses
    refine Op.ends_bind (ends_closeIdle hn hg hchain) ?_
    rintro done g₁ ⟨hchain₁, h₁⟩
    refine Op.ends_bind (ih hrest (h₁.numbered hn) rfl hchain₁) ?_
    rintro others g₂ ⟨hchain₂, h₂⟩
    refine ⟨hchain₂, ?_⟩
    have hboth := h₁.trans h₂ fun s hs hpicked => by
      simp only [Ledger.closable, List.mem_singleton, Bool.and_eq_true, decide_eq_true_eq] at hpicked
      simp [Ledger.closable, Session.lapsed, hpicked.1, hnew]
    rw [add_successes]
    refine hboth.congr fun s _ => ?_
    simp only [Ledger.closable, h₁.lapses, List.mem_cons, List.not_mem_nil, or_false, Bool.decide_or,
      Bool.and_or_distrib_right]

/-! ## A pass -/

/-- A pass that takes queries and sessions up in some order. -/
def reapInOrder (queries : List QueryId → List QueryId) (sessions : List SessionId → List SessionId) (asOf : Nat) :
    Op S ReapReport := do
  let g ← get
  let aborted ← countSuccesses forceAbort (queries (g.queries.overdue asOf g.config.engine.queryDeadline))
  let g ← get
  let closed ← countSuccesses (closeIdle asOf) (sessions (g.sessions.idle asOf g.config.engine.sessionIdleTimeout))
  let purged ← perform (purge asOf)
  modify fun g => { g with gate := g.gate.prune.2, metrics := g.metrics.flush }
  pure ⟨aborted, closed, purged.1, purged.2⟩

theorem reap_eq_reapInOrder (asOf : Nat) : reap (S := S) asOf = reapInOrder id id asOf := rfl

theorem ledger_sweep (g : Gateway S) (asOf : Nat) :
    (g.sweep asOf).ledger = g.ledger.post (.purged asOf g.config.engine.queryRetention) := by
  simp only [sweep, ledger, Metrics.counters_flush]
  rfl

/-- Whatever the order, a pass aborts some of the queries that expire, or all if the store of locked cost answers, and
the rest follows from that. -/
theorem ends_reapInOrder {queries : List QueryId → List QueryId} {sessions : List SessionId → List SessionId}
    (hqueries : ∀ ids, (queries ids).Perm ids) (hsessions : ∀ ids, (sessions ids).Perm ids) (asOf : Nat)
    (hL : g.ledger.Sound) (hn : g.ledger.sessions.Numbered) (hs : Still r answering g) :
    Ends
      (fun report g' => g'.chain = r ∧ ∃ aborted,
        (∀ q ∈ g.ledger.queries.rows, aborted q = true → g.ledger.expires asOf q = true) ∧
        (answering → aborted = g.ledger.expires asOf) ∧
        g.ledger.Reaped aborted asOf r.clock report g'.ledger)
      (fun _ _ => False) ((reapInOrder queries sessions asOf).run g) := by
  have hoverdue : ∀ q ∈ g.ledger.queries.rows, q.id ∈ queries (g.queries.overdue asOf g.config.engine.queryDeadline) ↔
      q.isOverdue asOf g.ledger.config.engine.queryDeadline = true := fun q hq =>
    (hqueries _).mem_iff.trans (key_mem_picked hL.numbered.nodup hq)
  unfold reapInOrder
  rw [Op.run_get_bind]
  refine Op.ends_bind (ends_forceAborts ?_ hL rfl ?_ hs) ?_
  · exact (hqueries _).nodup_iff.2 (hL.numbered.nodup.sublist (List.filter_sublist.map _))
  · intro q hq hid
    have h := (hoverdue q hq).1 hid
    rw [Query.isOverdue, Bool.and_eq_true, decide_eq_true_eq] at h
    exact h.1
  rintro n g₁ ⟨hs₁, h₁⟩
  -- the numbers that were collected are those of the overdue queries, so what is aborted is what expires
  have hattempted : g.ledger.Attempted (g.ledger.expires asOf) answering r.clock n g₁.ledger :=
    h₁.congr fun q hq => by
      rw [Ledger.abortable, Ledger.expires, Bool.decide_congr (hoverdue q hq), Bool.decide_eq_true]
  obtain ⟨aborted, hdue, hall, hexpired⟩ := hattempted.aborted
  have hn₁ : g₁.ledger.sessions.Numbered := hexpired.sessions.symm ▸ hn
  rw [Op.run_get_bind]
  refine Op.ends_bind (ends_closeIdles ?_ hn₁ rfl hs₁.1) ?_
  · exact (hsessions _).nodup_iff.2 (hn₁.nodup.sublist (List.filter_sublist.map _))
  rintro closed g₂ ⟨hchain₂, h₂⟩
  have hidle : ∀ s ∈ g₁.ledger.sessions.rows,
      s.id ∈ sessions (g₁.sessions.idle asOf g₁.config.engine.sessionIdleTimeout) ↔
        s.isIdle asOf g₁.ledger.config.engine.sessionIdleTimeout = true := fun s hs =>
    (hsessions _).mem_iff.trans (key_mem_picked hn₁.nodup hs)
  have hclosed : g₁.ledger.Closed (g₁.ledger.lapses asOf) asOf closed g₂.ledger :=
    h₂.congr fun s hs => by
      -- what lapses is idle
      simp only [Ledger.closable, Ledger.lapses, Bool.decide_congr (hidle s hs), Bool.decide_eq_true,
        ← Bool.and_assoc, Bool.and_self]
  have hconfig : g₂.ledger.config = g.ledger.config := by
    rw [hclosed.rest]
    exact hexpired.config
  have hreaped := hexpired.reaped hL hclosed
  rw [← hconfig] at hreaped
  refine ⟨hchain₂, aborted, hdue, hall, ?_⟩
  change g.ledger.Reaped aborted asOf r.clock ⟨n, closed, _, _⟩ (g₂.sweep asOf).ledger
  rw [ledger_sweep]
  exact hreaped

/-! ## Over a run -/

theorem numbered_sessions_later {g : Gateway S} (hL : g.ledger.Sound) (hn : g.ledger.sessions.Numbered)
    (later : List (Move S)) : (g.play later).ledger.sessions.Numbered := by
  induction later with
  | nil => exact hn
  | cons m earlier ih => exact ih.trail (trail_after m (sound_later hL earlier))

theorem numbered_sessions_play (vendor : S.Party) (config : GatewayConfig) (metrics : Metrics) (ms : List (Move S)) :
    ((fresh vendor config metrics).play ms).ledger.sessions.Numbered :=
  numbered_sessions_later (blank_fresh vendor config metrics).sound ⟨List.nodup_nil, nofun⟩ ms

/-- A pass as a move of a run. -/
theorem reaped_in (w : World S) (asOf : Nat) {queries : List QueryId → List QueryId}
    {sessions : List SessionId → List SessionId} (hqueries : ∀ ids, (queries ids).Perm ids)
    (hsessions : ∀ ids, (sessions ids).Perm ids) (hL : g.ledger.Sound) (hn : g.ledger.sessions.Numbered) :
    ∃ report g', (reapInOrder queries sessions asOf).run (g.inWorld w) = (.ok report, g') ∧ g'.chain = w.chain ∧
      ∃ aborted, (∀ q ∈ g.ledger.queries.rows, aborted q = true → g.ledger.expires asOf q = true) ∧
        (w.balances.Reliable → aborted = g.ledger.expires asOf) ∧
        g.ledger.Reaped aborted asOf w.chain.clock report g'.ledger := by
  have hs : Still w.chain w.balances.Reliable (g.inWorld w) := ⟨rfl, fun hw => hw⟩
  have h := ends_reapInOrder (g := g.inWorld w) hqueries hsessions asOf hL hn hs
  rcases hr : (reapInOrder queries sessions asOf).run (g.inWorld w) with ⟨e | report, g'⟩ <;> rw [hr] at h
  · exact h.elim
  · exact ⟨report, g', rfl, h⟩

theorem passed_after (w : World S) (asOf : Nat) (hL : g.ledger.Sound) (hn : g.ledger.sessions.Numbered) :
    ∃ report aborted, (g.after ⟨w, .reap asOf⟩).1 = .ok (.reaped report) ∧
      (g.after ⟨w, .reap asOf⟩).2.chain = w.chain ∧
      (∀ q ∈ g.ledger.queries.rows, aborted q = true → g.ledger.expires asOf q = true) ∧
      (w.balances.Reliable → aborted = g.ledger.expires asOf) ∧
      g.ledger.Reaped aborted asOf w.chain.clock report (g.after ⟨w, .reap asOf⟩).2.ledger := by
  obtain ⟨report, g', hrun, hchain, aborted, hdue, hall, hreaped⟩ := reaped_in (g := g) w asOf
    (fun ids => .refl (id ids)) (fun ids => .refl (id ids)) hL hn
  have hafter : g.after ⟨w, .reap asOf⟩ = (.ok (.reaped report), g') := by
    unfold after
    rw [show (Call.reap (S := S) asOf).op = .reaped <$> reap asOf from rfl, reap_eq_reapInOrder, Op.run_map, hrun]
    rfl
  rw [hafter]
  exact ⟨report, aborted, rfl, hchain, hdue, hall, hreaped⟩

/-- In every state of every run, as of every time, and whatever the clock shows, while the store of locked cost
answers: a pass aborts the locked queries that are overdue, of clients who are not halted, and unlocks their
estimates; it closes the sessions that are idle then, of clients who are not halted, unless a query is still locked
in them; it forgets what has been finished for long enough then; and it does nothing else to the ledger.  What it
comes to does not depend on the order in which it takes queries and sessions up.  A second pass as of the same time
does nothing. -/
theorem reaps_exactly (vendor : S.Party) (config : GatewayConfig) (metrics : Metrics) (ms : List (Move S))
    (w : World S) (asOf : Nat) :
    let g := (fresh vendor config metrics).play ms
    let g' := (g.after ⟨w, .reap asOf⟩).2
    w.balances.Reliable →
    (∃ report, (g.after ⟨w, .reap asOf⟩).1 = .ok (.reaped report) ∧ g'.chain = w.chain ∧
      g.ledger.Reaped (g.ledger.expires asOf) asOf w.chain.clock report g'.ledger ∧
      ∀ (queries : List QueryId → List QueryId) (sessions : List SessionId → List SessionId),
        (∀ ids, (queries ids).Perm ids) → (∀ ids, (sessions ids).Perm ids) →
        ∃ g'', (reapInOrder queries sessions asOf).run (g.inWorld w) = (.ok report, g'') ∧
          g''.ledger = { g'.ledger with locked := g''.ledger.locked } ∧
          ∀ c, g''.ledger.lockedOf c = g'.ledger.lockedOf c) ∧
    ∀ w' : World S, w'.balances.Reliable →
      (g'.after ⟨w', .reap asOf⟩).1 = .ok (.reaped ⟨0, 0, 0, 0⟩) ∧
        (g'.after ⟨w', .reap asOf⟩).2.ledger = g'.ledger := by
  intro g g' hw
  have hL : g.ledger.Sound := sound_play (blank_fresh (S := S) vendor config metrics) ms
  have hn : g.ledger.sessions.Numbered := numbered_sessions_play vendor config metrics ms
  obtain ⟨report, aborted, hanswer, hchain, -, hall, hreaped⟩ := passed_after w asOf hL hn
  rw [hall hw] at hreaped
  refine ⟨⟨report, hanswer, hchain, hreaped, ?_⟩, ?_⟩
  · intro queries sessions hqueries hsessions
    obtain ⟨report', g'', hrun, -, aborted', -, hall', hreaped'⟩ := reaped_in w asOf hqueries hsessions hL hn
    rw [hall' hw] at hreaped'
    obtain ⟨rfl, hsame⟩ := hreaped.unique hreaped'
    exact ⟨g'', hrun, hsame⟩
  · intro w' hw'
    have hL' : g'.ledger.Sound := sound_after ⟨w, .reap asOf⟩ hL
    have hn' : g'.ledger.sessions.Numbered := hn.trail (trail_after ⟨w, .reap asOf⟩ hL)
    obtain ⟨report', aborted', hanswer', -, -, hall', hreaped'⟩ := passed_after w' asOf hL' hn'
    rw [hall' hw'] at hreaped'
    obtain ⟨rfl, hsame⟩ := hreaped.again hL hreaped'
    exact ⟨hanswer', hsame⟩

/-- A pass as of a minute after two queries were reserved, while the clock shows half a minute: both are aborted, so
their session is closed too; a minute is not over since, and nothing is forgotten. -/
theorem reaps_exactly_sample :
    let ms : List (Move Scheme.plain) := ⟨Sample.world, .acceptQuery ⟨1⟩ 50⟩ :: Sample.reserving 40
    let g : Gateway Scheme.plain := (fresh (S := Scheme.plain) 9 Sample.brisk {}).play ms
    let w := Sample.worldAt 30000
    let g' := (g.after ⟨w, .reap 60000⟩).2
    w.balances.Reliable ∧ (∀ ids : List QueryId, ids.reverse.Perm ids) ∧
      (∀ ids : List SessionId, ids.reverse.Perm ids) ∧
      (g.after ⟨w, .reap 60000⟩).1 = .ok (.reaped ⟨2, 1, 0, 0⟩) ∧ g'.ledger.lockedOf 1 = 0 ∧
      (∃ g'', (reapInOrder List.reverse List.reverse 60000).run (g.inWorld w) = (.ok ⟨2, 1, 0, 0⟩, g'') ∧
        g''.ledger.lockedOf 1 = 0) ∧
      (g'.after ⟨w, .reap 60000⟩).1 = .ok (.reaped ⟨0, 0, 0, 0⟩) := by
  intro ms g w g'
  have hworld : Sample.world.Reliable := World.reliable_answering _
  have hw : w.balances.Reliable := hworld.2.2
  have hg : (fresh (S := Scheme.plain) 9 Sample.brisk {}).play ms = g := rfl
  have h := reaps_exactly (S := Scheme.plain) 9 Sample.brisk {} ms w 60000
  dsimp only at h
  rw [hg] at h
  obtain ⟨⟨report, hanswer, -, hreaped, hany⟩, hsecond⟩ := h hw
  have hreport : report = ⟨2, 1, 0, 0⟩ := by
    have haborted : report.forceAborted = 2 := hreaped.forceAborted.trans (by decide +kernel)
    have hclosed : report.sessionsClosed = 1 := hreaped.sessionsClosed.trans (by decide +kernel)
    have hqueries : report.queriesPurged = 0 := hreaped.queriesPurged.trans (by decide +kernel)
    have hsessions : report.sessionsPurged = 0 := hreaped.sessionsPurged.trans (by decide +kernel)
    cases report
    simp only [ReapReport.mk.injEq]
    exact ⟨haborted, hclosed, hqueries, hsessions⟩
  have hlocked : g'.ledger.lockedOf 1 = 0 := by
    have hsum : ((g.ledger.queries.rows.filter (g.ledger.expires 60000)).map
        (Query.heldFor (S := Scheme.plain) 1)).sum = 90 := by
      decide +kernel
    have hbefore : g.ledger.lockedOf 1 = 90 := by decide +kernel
    have hreleased := hreaped.locked 1
    rw [hsum, hbefore] at hreleased
    exact UInt64.toNat_inj.1 (Nat.add_right_cancel (m := 90) hreleased)
  rw [hreport] at hanswer hany
  obtain ⟨g'', hrun, -, hsame⟩ := hany List.reverse List.reverse (fun _ => List.reverse_perm _) fun _ =>
    List.reverse_perm _
  exact ⟨hw, fun _ => List.reverse_perm _, fun _ => List.reverse_perm _, hanswer, hlocked,
    ⟨g'', hrun, (hsame 1).trans hlocked⟩, (hsecond w hw).1⟩

end Gateway
end VoucherGateway
