import VoucherGateway.Proofs.Ledger.Consumption
import VoucherGateway.Proofs.Run.Turnover

/-!
# Handover — how spent vouchers reach settlement over a run

Vouchers are spent in the order in which they were accepted, and what is spent is handed over in that order,
each voucher once.  At most one voucher is marked spent and not handed over yet.  The main statement also says
that no voucher is used up by two queries, those that are no longer on record included.
-/

namespace VoucherGateway

variable {S : Scheme}

namespace Gateway

/-- All queries of a run as they are or, if they were forgotten, as they were last. -/
def everReserved (start : Gateway S) (ms : List (Move S)) : List (Query S) :=
  start.ceased (fun _ => true) ms ++ (start.play ms).queries.rows

/-! ## One move -/

section Move

variable {g : Gateway S} {m : Move S} {forgotten : List (VoucherId S)}

/-- What is used up by the queries that a pass forgets and by those that it leaves was used up before. -/
theorem flatMap_consumed_reaped (hL : g.ledger.Sound) {asOf : Nat} (hcall : m.call = .reap asOf) :
    ((g.after m).2.queries.rows.flatMap (·.consumed) ++
      (newly (fun _ => true) (g.after m).2.queries.rows g.queries.rows).flatMap (·.consumed)).Perm
      (g.queries.rows.flatMap (·.consumed)) := by
  have hsame : ∀ q ∈ g.queries.rows, ∀ q' ∈ (g.after m).2.queries.rows, q'.id = q.id →
      q'.consumed = q.consumed := by
    intro q hq q' hq' hid
    obtain ⟨r, hr, hrid, -, hcons⟩ := reaped_after hL hcall hq'
    obtain rfl := hL.same hr hq (hrid.symm.trans hid)
    exact hcons
  have hnone : newly (fun _ => true) g.ledger.queries.rows (g.after m).2.ledger.queries.rows = [] := by
    refine newly_eq_nil fun q' hq' _ => ?_
    obtain ⟨q, hq, hid, -⟩ := reaped_after hL hcall hq'
    exact ⟨q, hq, hid.symm, rfl⟩
  have hperm := newly_perm (p := fun _ => true) hL.numbered.nodup (sound_after m hL).numbered.nodup
    fun q hq q' hq' hid _ _ => hsame q hq q' hq' hid
  have hall : ∀ rows : List (Query S), rows.filter (fun _ => true) = rows := fun _ =>
    List.filter_eq_self.2 fun _ _ => rfl
  have hflat := hperm.flatten
  rw [hnone, hall, hall, List.map_nil, List.append_nil, List.flatten_append, ← List.flatMap_def,
    ← List.flatMap_def, ← List.flatMap_def] at hflat
  exact hflat

theorem consumed_after (m : Move S) (hL : g.ledger.Sound) (h : g.ledger.Consumed forgotten) :
    (g.after m).2.ledger.Consumed
      ((newly (fun _ => true) (g.after m).2.queries.rows g.queries.rows).flatMap (·.consumed) ++
        forgotten) := by
  have ht := trail_after m hL
  have hstays := h.trail hL ht
  refine ⟨?_, ?_, hstays.handed, hstays.ascending⟩
  · by_cases hreap : ∃ asOf, m.call = .reap asOf
    · -- a pass only moves what is used up to what is forgotten
      obtain ⟨asOf, hcall⟩ := hreap
      let left := (g.after m).2.queries.rows.flatMap (·.consumed)
      let gone := (newly (fun _ => true) (g.after m).2.queries.rows g.queries.rows).flatMap (·.consumed)
      have hperm : ((gone ++ forgotten) ++ left).Perm (forgotten ++ g.queries.rows.flatMap (·.consumed)) := by
        calc
          ((gone ++ forgotten) ++ left).Perm (left ++ (gone ++ forgotten)) := List.perm_append_comm
          List.Perm _ ((left ++ gone) ++ forgotten) := .of_eq (List.append_assoc ..).symm
          List.Perm _ (forgotten ++ (left ++ gone)) := List.perm_append_comm
          List.Perm _ (forgotten ++ g.queries.rows.flatMap (·.consumed)) :=
            (flatMap_consumed_reaped hL hcall).append_left forgotten
      exact hperm.nodup_iff.2 h.nodup
    · -- any other move forgets nothing
      have hnone : newly (fun _ => true) (g.after m).2.queries.rows g.queries.rows = [] := by
        refine newly_eq_nil fun q hq _ => ?_
        obtain ⟨q', hq', hb⟩ := persists_after hL (fun asOf hcall => hreap ⟨asOf, hcall⟩) hq
        exact ⟨q', hq', hb.id, rfl⟩
      rw [hnone]
      exact hstays.nodup
  · intro id hid
    rcases List.mem_append.1 hid with hid | hid
    · obtain ⟨q, hq, hid⟩ := List.mem_flatMap.1 hid
      obtain ⟨v, hv, hid⟩ := h.handed q (mem_newly.1 hq).1 id hid
      exact ⟨q.client, v, (hL.handed_prefix_trail ht _).subset hv, hid⟩
    · obtain ⟨c, v, hv, hid⟩ := h.gone id hid
      exact ⟨c, v, (hL.handed_prefix_trail ht c).subset hv, hid⟩

end Move

/-! ## Over a run -/

section Run

variable {start : Gateway S}

theorem consumed_play (hstart : start.Blank) (ms : List (Move S)) :
    (start.play ms).ledger.Consumed ((start.ceased (fun _ => true) ms).flatMap (·.consumed)) := by
  induction ms with
  | nil =>
    have hrows : (start.play []).ledger.queries.rows = [] := hstart.rows
    refine ⟨?_, fun _ h => (by cases h), fun q hq => absurd hq (not_mem_nil hstart q),
      fun q hq => absurd hq (not_mem_nil hstart q)⟩
    rw [hrows]
    exact List.nodup_nil
  | cons m earlier ih =>
    have h := consumed_after m (sound_play hstart earlier) ih
    rw [← List.flatMap_append] at h
    exact h

/-- Every query of a run was on record at some moment of it. -/
theorem mem_everReserved {ms : List (Move S)} {q : Query S} (hq : q ∈ start.everReserved ms) :
    ∃ earlier, earlier <:+ ms ∧ q ∈ (start.play earlier).queries.rows := by
  rcases List.mem_append.1 hq with hq | hq
  · induction ms with
    | nil => cases hq
    | cons m earlier ih =>
      rcases List.mem_append.1 hq with hq | hq
      · exact ⟨earlier, List.suffix_cons m earlier, (mem_newly.1 hq).1⟩
      · obtain ⟨before, hsuffix, hmem⟩ := ih (List.mem_append_left _ hq) hq
        exact ⟨before, hsuffix.trans (List.suffix_cons m earlier), hmem⟩
  · exact ⟨ms, List.suffix_rfl, hq⟩

end Run

/-- After every run and for every client, what is marked spent is the front of the accepted chain, and what
is settled and unsettled is the vouchers of that front in the order of their nonces, less a last one that is
marked spent but not taken off yet.  No voucher is used up twice by the queries of the run, and each of them
lists what it used up by ascending nonces, as does its receipt. -/
theorem handed_over_once (vendor : S.Party) (config : GatewayConfig) (metrics : Metrics)
    (ms : List (Move S)) :
    let start := fresh vendor config metrics
    let g := start.play ms
    let queries := start.everReserved ms
    (∀ client,
      let chain := g.ledger.chain client
      let queue := g.settlement.of client
      chain.spent <+: chain.vouchers.map (·.nonce) ∧
        chain.vouchers.Pairwise (fun v w => v.nonce < w.nonce) ∧
        queue.settled.map (·.1) ++ queue.unsettled ++ (g.ledger.unreduced client).toList =
          chain.vouchers.take chain.spent.length) ∧
    (queries.flatMap (·.consumed)).Nodup ∧
    (∀ q ∈ queries, q.consumed.Pairwise fun a b => a.nonce < b.nonce) ∧
    (∀ q ∈ queries, ∀ receipt, q.receipt = some receipt → receipt.consumed = q.consumed) := by
  intro start g queries
  have hstart := blank_fresh (S := S) vendor config metrics
  have hL := sound_play hstart ms
  have hC := consumed_play hstart ms
  refine ⟨?_, ?_, ?_, ?_⟩
  · intro client chain queue
    obtain ⟨-, hprefix⟩ := hL.spent_vouchers client
    have hspent := hL.spent client
    -- the marks are as many as the vouchers at the front of the chain
    have hlength : chain.spent.length =
        (g.ledger.handed client ++ (g.ledger.unreduced client).toList).length := by
      rw [← List.length_map (f := fun v : Voucher S => v.nonce)]
      exact congrArg List.length hspent
    refine ⟨hspent ▸ hprefix.map _, hL.nonces_lt client, ?_⟩
    rw [hlength]
    exact List.prefix_iff_eq_take.1 hprefix
  · exact List.flatMap_append ▸ hC.nodup
  · intro q hq
    obtain ⟨earlier, -, hmem⟩ := mem_everReserved hq
    exact (consumed_play hstart earlier).ascending q hmem
  · intro q hq
    obtain ⟨earlier, -, hmem⟩ := mem_everReserved hq
    exact ((sound_play hstart earlier).rows q hmem).receipt_consumed

end Gateway
end VoucherGateway
