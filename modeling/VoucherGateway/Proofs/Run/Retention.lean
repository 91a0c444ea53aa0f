import VoucherGateway.Proofs.Run.Expiry
import VoucherGateway.Proofs.Run.Finality

/-!
# Retention — how long finished queries stay on record

A query is stamped with the time of the clock when it is finished.  A pass of the reaper forgets it once the retention
has gone by from that stamp to the time that the pass is given, and nothing else forgets it (`kept_later`).  A pass
does not compare its time with the clock, so what it aborts it may forget at once (`overdue_forgotten_at_once`).

Main statement: `aborted_until`.
-/

namespace VoucherGateway

variable {S : Scheme}

/-- A query goes stale when the retention is over. -/
theorem Query.isStale_eq_false_iff {q : Query S} {time retention : Nat} (hfin : q.finishedAt = some time)
    (hpos : 0 < retention) (now : Nat) : q.isStale now retention = false ↔ now < time + retention := by
  unfold isStale
  rw [hfin, Option.any_some, decide_eq_false_iff_not]
  omega

namespace Gateway

variable {g : Gateway S} {q : Query S} {w : World S} {asOf time : Nat}

/-! ## Finished queries -/

theorem kept_after_reap (w : World S) (asOf : Nat) (hL : g.ledger.Sound) (hn : g.ledger.sessions.Numbered)
    (hq : q ∈ g.queries.rows) (hfin : q.finishedAt = some time) (hpos : 0 < g.config.engine.queryRetention) :
    (∃ q' ∈ (g.after ⟨w, .reap asOf⟩).2.queries.rows, q'.id = q.id) ↔
      asOf < time + g.config.engine.queryRetention := by
  obtain ⟨report, aborted, -, -, hdue, -, hreaped⟩ := passed_after w asOf hL hn
  -- only locked queries are aborted
  have hnot : aborted q = false := by
    rw [← Bool.not_eq_true]
    intro hab
    have hfinal := (hL.rows q hq).finished_iff.1 (hfin ▸ rfl)
    exact hfinal (Ledger.locked_of_expires (hdue q hq hab))
  have hiff := hreaped.on_record_iff hL hq
  rw [hnot, if_neg Bool.false_ne_true] at hiff
  exact hiff.trans (Query.isStale_eq_false_iff hfin hpos asOf)

theorem kept_after (m : Move S) (hL : g.ledger.Sound) (hn : g.ledger.sessions.Numbered) (hq : q ∈ g.queries.rows)
    (hfin : q.finishedAt = some time) (hpos : 0 < g.config.engine.queryRetention) :
    (∃ q' ∈ (g.after m).2.queries.rows, q'.id = q.id) ↔
      ∀ asOf, m.call = .reap asOf → asOf < time + g.config.engine.queryRetention := by
  by_cases hreap : ∃ asOf, m.call = .reap asOf
  · obtain ⟨asOf, hcall⟩ := hreap
    obtain ⟨w, call⟩ := m
    obtain rfl : call = .reap asOf := hcall
    rw [kept_after_reap w asOf hL hn hq hfin hpos]
    refine ⟨fun hlt asOf' hsame => ?_, fun h => h asOf rfl⟩
    rwa [← Call.reap.inj hsame]
  · have hne : ∀ asOf, m.call ≠ .reap asOf := fun asOf hcall => hreap ⟨asOf, hcall⟩
    obtain ⟨q', hq', hb⟩ := persists_after hL hne hq
    exact iff_of_true ⟨q', hq', hb.id⟩ fun asOf hcall => absurd hcall (hne asOf)

/-- A finished query stays on record until a pass as of a time when its retention is over. -/
theorem kept_later (hL : g.ledger.Sound) (hn : g.ledger.sessions.Numbered) (hq : q ∈ g.queries.rows)
    (hfin : q.finishedAt = some time) (hpos : 0 < g.config.engine.queryRetention) (later : List (Move S)) :
    (∃ q' ∈ (g.play later).queries.rows, q'.id = q.id) ↔
      ∀ m ∈ later, ∀ asOf, m.call = .reap asOf → asOf < time + g.config.engine.queryRetention := by
  induction later with
  | nil => exact iff_of_true ⟨q, hq, rfl⟩ nofun
  | cons m earlier ih =>
    have hL' := sound_later hL earlier
    have hn' := numbered_sessions_later hL hn earlier
    -- while the query is on record it has the same stamp
    have step : ∀ r ∈ (g.play earlier).queries.rows, r.id = q.id →
        ((∃ q' ∈ (g.play (m :: earlier)).queries.rows, q'.id = q.id) ↔
          ∀ asOf, m.call = .reap asOf → asOf < time + g.config.engine.queryRetention) := by
      intro r hr hid
      have hfinal := (hL.rows q hq).finished_iff.1 (hfin ▸ rfl)
      have hstamp := ((becomes_later hL hq hr hid).final hfinal).2.2.2.trans hfin
      rw [← config_later hL earlier, ← hid]
      exact kept_after m hL' hn' hr hstamp (config_later hL earlier ▸ hpos)
    rw [List.forall_mem_cons, ← ih]
    constructor
    · rintro ⟨q', hq', hid⟩
      rcases origin_after hL' hq' with ⟨r, hr, hb⟩ | hnew
      · have hr' : r.id = q.id := hb.id.symm.trans hid
        exact ⟨(step r hr hr').1 ⟨q', hq', hid⟩, r, hr, hr'⟩
      · -- a number that was given out does not come back
        have hlt := (hL.numbered.below q hq).trans_le (next_later hL earlier)
        exact absurd (hid ▸ hlt) (Nat.not_lt.2 hnew)
    · rintro ⟨hm, r, hr, hid⟩
      exact (step r hr hid).2 hm

/-! ## Aborted queries -/

/-- A pass aborts a query: it is locked before the pass, and after it not on record as locked. -/
def Aborts (g : Gateway S) (w : World S) (asOf : Nat) (q : Query S) : Prop :=
  q.state = .locked ∧ ∀ q' ∈ (g.after ⟨w, .reap asOf⟩).2.queries.rows, q'.id = q.id → q'.state ≠ .locked

section Aborted

variable {aborted : Query S → Bool} {report : ReapReport}

theorem aborts_iff (hL : g.ledger.Sound)
    (hdue : ∀ q ∈ g.ledger.queries.rows, aborted q = true → g.ledger.expires asOf q = true)
    (hreaped : g.ledger.Reaped aborted asOf w.chain.clock report (g.after ⟨w, .reap asOf⟩).2.ledger)
    (hq : q ∈ g.queries.rows) : g.Aborts w asOf q ↔ aborted q = true := by
  constructor
  · rintro ⟨hst, hgone⟩
    rw [← Bool.not_eq_false]
    intro hnot
    -- a query that is left alone stays locked, and on record
    have hkept := hreaped.mem_queries hq
    rw [hnot, if_neg Bool.false_ne_true] at hkept
    exact hgone q (hkept.2 ((hL.rows q hq).not_stale hst asOf _)) rfl hst
  · intro hab
    refine ⟨Ledger.locked_of_expires (hdue q hq hab), fun q' hq' hid => ?_⟩
    rw [hreaped.row hL hq hq' hid, hab, if_pos rfl]
    nofun

/-- What is on record later of a query that a pass aborted was on record right after the pass. -/
theorem expired_later (hL : g.ledger.Sound)
    (hreaped : g.ledger.Reaped aborted asOf w.chain.clock report (g.after ⟨w, .reap asOf⟩).2.ledger)
    (hq : q ∈ g.queries.rows) (hab : aborted q = true) (later : List (Move S)) {q' : Query S}
    (hq' : q' ∈ ((g.after ⟨w, .reap asOf⟩).2.play later).queries.rows) (hid : q'.id = q.id) :
    q.expired w.chain.clock ∈ (g.after ⟨w, .reap asOf⟩).2.queries.rows ∧ (q.expired w.chain.clock).Becomes q' := by
  rcases origin_later (sound_after ⟨w, .reap asOf⟩ hL) hq' with ⟨r, hr, hb⟩ | hnew
  · have hrow := hreaped.row hL hq hr (hb.id.symm.trans hid)
    rw [hab, if_pos rfl] at hrow
    exact hrow ▸ ⟨hr, hb⟩
  · have hlt := (hL.numbered.below q hq).trans_le (next_after ⟨w, .reap asOf⟩ hL)
    exact absurd (hid ▸ hlt) (Nat.not_lt.2 hnew)

/-- The pass that aborts a query may forget it, like any later one. -/
theorem on_record_later_iff (hL : g.ledger.Sound) (hn : g.ledger.sessions.Numbered)
    (hreaped : g.ledger.Reaped aborted asOf w.chain.clock report (g.after ⟨w, .reap asOf⟩).2.ledger)
    (hq : q ∈ g.queries.rows) (hab : aborted q = true) (hpos : 0 < g.config.engine.queryRetention)
    (later : List (Move S)) :
    let due := w.chain.clock + g.config.engine.queryRetention
    (∃ q' ∈ ((g.after ⟨w, .reap asOf⟩).2.play later).queries.rows, q'.id = q.id) ↔
      asOf < due ∧ ∀ m ∈ later, ∀ time, m.call = .reap time → time < due := by
  intro due
  have hpass := hreaped.on_record_iff hL hq
  rw [hab, if_pos rfl] at hpass
  have hnow := hpass.trans (Query.isStale_eq_false_iff rfl hpos asOf)
  have hconfig := config_after ⟨w, .reap asOf⟩ hL
  have hlater : q.expired w.chain.clock ∈ (g.after ⟨w, .reap asOf⟩).2.queries.rows → _ := fun hmem =>
    kept_later (sound_after ⟨w, .reap asOf⟩ hL) (hn.trail (trail_after ⟨w, .reap asOf⟩ hL)) hmem rfl
      (hconfig.symm ▸ hpos) later
  rw [hconfig] at hlater
  constructor
  · rintro ⟨q', hq', hid⟩
    obtain ⟨hmem, -⟩ := expired_later hL hreaped hq hab later hq' hid
    exact ⟨hnow.1 ⟨_, hmem, rfl⟩, (hlater hmem).1 ⟨q', hq', hid⟩⟩
  · rintro ⟨hasOf, hpasses⟩
    obtain ⟨q', hq', hid⟩ := hnow.2 hasOf
    obtain ⟨hmem, -⟩ := expired_later hL hreaped hq hab [] hq' hid
    exact (hlater hmem).2 hpasses

end Aborted

/-- A query that is not on record cannot be settled. -/
theorem answers_of_forgotten (w : World S) (usage : Usage) {id : QueryId} (h : ∀ q ∈ g.queries.rows, q.id ≠ id) :
    g.Answers ⟨w, .settleQuery id usage⟩ (.error (.unknownQuery id.text)) := by
  have hfind : g.queries.find? id = none := List.find?_eq_none.2 fun q hq => by simpa using h q hq
  have hsubject : (g.inWorld w).ledger.subject? (.settleQuery id usage) = none := Option.map_eq_none_iff.2 hfind
  have hafter : g.after ⟨w, .settleQuery id usage⟩ = (.error (.unknownQuery id.text), g.inWorld w) :=
    Call.Stray.run (.settleQuery id usage) hsubject
  exact ⟨congrArg Prod.fst hafter, congrArg (·.2.ledger) hafter⟩

/-- Whatever has happened before, and whatever fails: a query that a pass aborts is on record, as aborted by force at
the time that the clock shows, until a pass is given a time when the retention is over since that time of the clock;
the pass itself may be the one.  Settling it meanwhile is refused as of an aborted query, unless its client is
halted, and later as of an unknown one.  While the store of locked cost answers, the queries that a pass aborts are
those that expire. -/
theorem aborted_until (vendor : S.Party) (config : GatewayConfig) (metrics : Metrics) (ms : List (Move S))
    (w : World S) (asOf : Nat) :
    let g := (fresh vendor config metrics).play ms
    let g' := (g.after ⟨w, .reap asOf⟩).2
    let due := w.chain.clock + config.engine.queryRetention
    0 < config.engine.queryRetention → ∀ q ∈ g.queries.rows,
      (w.balances.Reliable → (g.Aborts w asOf q ↔ g.ledger.expires asOf q = true)) ∧
      (g.Aborts w asOf q → ∀ later : List (Move S),
        let g'' := g'.play later
        let kept := asOf < due ∧ ∀ m ∈ later, ∀ time, m.call = .reap time → time < due
        ((∃ q' ∈ g''.queries.rows, q'.id = q.id) ↔ kept) ∧
        (∀ q' ∈ g''.queries.rows, q'.id = q.id →
          q'.state = .aborted ∧ q'.forced = true ∧ q'.finishedAt = some w.chain.clock) ∧
        ∀ (w' : World S) (usage : Usage),
          (kept → g''.gate.isHalted q.client = false →
            g''.Answers ⟨w', .settleQuery q.id usage⟩ (.error (.queryAborted q.id.text))) ∧
          (¬ kept → g''.Answers ⟨w', .settleQuery q.id usage⟩ (.error (.unknownQuery q.id.text)))) := by
  intro g g' due hpos q hq
  have hstart := blank_fresh (S := S) vendor config metrics
  have hL : g.ledger.Sound := sound_play hstart ms
  have hn : g.ledger.sessions.Numbered := numbered_sessions_play vendor config metrics ms
  have hconfig : g.config = config := config_play hstart ms
  obtain ⟨report, aborted, -, -, hdue, hall, hreaped⟩ := passed_after w asOf hL hn
  have hiff : g.Aborts w asOf q ↔ aborted q = true := aborts_iff hL hdue hreaped hq
  refine ⟨fun hw => hall hw ▸ hiff, fun haborts later => ?_⟩
  have hab := hiff.1 haborts
  -- the pass counts as the first of those that may forget the query
  have hon := on_record_later_iff hL hn hreaped hq hab (hconfig.symm ▸ hpos) later
  rw [hconfig] at hon
  refine ⟨hon, fun q' hq' hid => ?_, fun w' usage => ⟨fun hkept hrun => ?_, fun hgone => ?_⟩⟩
  · obtain ⟨-, hb⟩ := expired_later hL hreaped hq hab later hq' hid
    obtain ⟨hstate, -, hforced, hstamp⟩ := hb.final nofun
    exact ⟨hstate, hforced, hstamp⟩
  · obtain ⟨q', hq', hid⟩ := hon.2 hkept
    obtain ⟨-, hb⟩ := expired_later hL hreaped hq hab later hq' hid
    have hclient : q'.client = q.client := hb.client
    have hsound := sound_later (sound_after ⟨w, .reap asOf⟩ hL) later
    rw [← hid]
    exact (answers_of_aborted w' usage hsound hq' (hb.final nofun).1 (hclient ▸ hrun)).1
  · exact answers_of_forgotten w' usage fun q' hq' hid => hgone (hon.1 ⟨q', hq', hid⟩)

/-- A pass as of a minute after a query was reserved, while the clock shows half a minute: the query is on record until
a pass is given the time when the clock shows a minute and a half. -/
theorem aborted_until_sample :
    let g : Gateway Scheme.plain := (fresh (S := Scheme.plain) 9 Sample.brisk {}).play (Sample.reserving 50)
    let w := Sample.worldAt 30000
    let g' := (g.after ⟨w, .reap 60000⟩).2
    0 < Sample.brisk.engine.queryRetention ∧ (∃ q ∈ g.queries.rows, q.id = ⟨1⟩ ∧ g.Aborts w 60000 q) ∧
      (g'.play [⟨w, .reap 89999⟩]).Answers ⟨w, .settleQuery ⟨1⟩ ⟨0, 0⟩⟩ (.error (.queryAborted (QueryId.text ⟨1⟩))) ∧
      (g'.play [⟨w, .reap 90000⟩]).Answers ⟨w, .settleQuery ⟨1⟩ ⟨0, 0⟩⟩
        (.error (.unknownQuery (QueryId.text ⟨1⟩))) := by
  intro g w g'
  have hpos : 0 < Sample.brisk.engine.queryRetention := by decide
  have h := aborted_until (S := Scheme.plain) 9 Sample.brisk {} (Sample.reserving 50) w 60000 hpos
  have hworld : Sample.world.Reliable := World.reliable_answering _
  obtain ⟨q, hq, hid, hclient, hexpires⟩ : ∃ q ∈ g.queries.rows,
      q.id = ⟨1⟩ ∧ q.client = 1 ∧ g.ledger.expires 60000 q = true := by decide +kernel
  obtain ⟨hexact, hstays⟩ := h q hq
  have haborts : g.Aborts w 60000 q := (hexact hworld.2.2).2 hexpires
  have hdue : w.chain.clock + Sample.brisk.engine.queryRetention = 90000 := by decide +kernel
  refine ⟨hpos, ⟨q, hq, hid, haborts⟩, ?_, ?_⟩
  · have hrun : (g'.play [⟨w, .reap 89999⟩]).gate.isHalted q.client = false := by
      rw [hclient]
      decide +kernel
    obtain ⟨-, -, hanswers⟩ := hstays haborts [⟨w, .reap 89999⟩]
    rw [hdue] at hanswers
    refine hid ▸ (hanswers w ⟨0, 0⟩).1 ⟨by decide +kernel, fun m hm time hcall => ?_⟩ hrun
    obtain rfl := List.mem_singleton.1 hm
    obtain rfl := Call.reap.inj hcall
    decide +kernel
  · obtain ⟨-, -, hanswers⟩ := hstays haborts [⟨w, .reap 90000⟩]
    rw [hdue] at hanswers
    refine hid ▸ (hanswers w ⟨0, 0⟩).2 fun hkept => ?_
    exact absurd (hkept.2 _ List.mem_cons_self 90000 rfl) (Nat.lt_irrefl 90000)

/-- The same while the clock does not move: a query is on record as locked, and the pass that aborts it forgets it,
so that settling it is refused as of an unknown query. -/
theorem overdue_forgotten_at_once :
    let g : Gateway Scheme.plain := (fresh (S := Scheme.plain) 9 Sample.brisk {}).play (Sample.reserving 50)
    let g' := (g.after ⟨Sample.world, .reap 60000⟩).2
    0 < Sample.brisk.engine.queryRetention ∧
      (∃ q ∈ g.queries.rows, q.id = ⟨1⟩ ∧ q.client = 1 ∧ g.Aborts Sample.world 60000 q) ∧
      g'.gate.isHalted 1 = false ∧ (∀ q ∈ g'.queries.rows, q.id ≠ ⟨1⟩) ∧
      ∀ usage, g'.Answers ⟨Sample.world, .settleQuery ⟨1⟩ usage⟩ (.error (.unknownQuery (QueryId.text ⟨1⟩))) := by
  intro g g'
  have hg' : (g.after ⟨Sample.world, .reap 60000⟩).2 = g' := rfl
  have hgone : ∀ q ∈ g'.queries.rows, q.id ≠ ⟨1⟩ := by decide +kernel
  obtain ⟨q, hq, hid, hclient, hst⟩ : ∃ q ∈ g.queries.rows, q.id = ⟨1⟩ ∧ q.client = 1 ∧ q.state = .locked := by
    decide +kernel
  have haborts : g.Aborts Sample.world 60000 q := by
    refine ⟨hst, fun q' hq' hsame => ?_⟩
    rw [hg'] at hq'
    exact absurd (hsame.trans hid) (hgone q' hq')
  exact ⟨by decide, ⟨q, hq, hid, hclient, haborts⟩, by decide +kernel, hgone,
    fun usage => answers_of_forgotten Sample.world usage hgone⟩

end Gateway
end VoucherGateway
