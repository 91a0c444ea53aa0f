import VoucherGateway.Proofs.Run.Turnover

/-!
# Locks — the locked cost over a run

A query holds its estimate from the call that reserves it until the estimate is unlocked, which happens before
it is settled or aborted and never twice.  Main statement: at every moment of every run the locked cost of a
client is the sum of the estimates that are held.
-/

namespace VoucherGateway

variable {S : Scheme}

namespace Gateway

variable {g : Gateway S} {m : Move S}

/-- When the call that reserved it is over, a query holds its estimate and has no cost yet. -/
theorem reserved_after (hL : g.ledger.Sound) {q' : Query S} (hq' : q' ∈ (g.after m).2.queries.rows)
    (hnew : g.queries.next ≤ q'.id.number) :
    q'.holds = true ∧ q'.actual = none ∧ q'.charged = false := by
  have ht := trail_after m hL
  have old : ∀ q ∈ g.queries.rows, q.id ≠ q'.id := by
    intro q hq he
    have hlt := hL.numbered.below q hq
    rw [he] at hlt
    exact absurd hlt (Nat.not_lt.2 hnew)
  by_cases hcall : ∃ session estimated, m.call = .acceptQuery session estimated
  · obtain ⟨session, estimated, hcall⟩ := hcall
    rw [hcall] at ht
    -- the rest of the call at most spends vouchers that the query is to use up
    have hstep : ∀ {K : Ledger S} {e x}, (Call.acceptQuery session estimated).Leaves g.config e → K.Allows e →
        K.queries.Numbered → x ∈ K.queries.rows → x.Refills (e.onRow x) := by
      intro K e x he ha hn hx
      refine (Ledger.turns_onRow hn ha hx).refills fun hsubject => ?_
      cases e with
      | priced | released | charged | settled | aborted => rcases he with ⟨_, h⟩ | ⟨_, _, h⟩ <;> cases h
      | _ => cases hsubject
    rcases Ledger.Trail.origin .refl (fun _ _ => .trans) hstep ht hL.numbered hq'
      with ⟨q, hq, -, ids, rfl⟩ | ⟨K, q, -, ha, -, -, ids, rfl⟩
    · exact absurd rfl (old q hq)
    · obtain ⟨-, hst, hact, hrel, hch, -⟩ := ha
      exact ⟨by simp [Query.holds, hst, hrel], hact, hch⟩
  · rcases Ledger.Trail.comes_from ht hL.numbered hq' with ⟨q, hq, hb⟩ | ⟨q, he, -⟩
    · exact absurd hb.id.symm (old q hq)
    · exact absurd he.reserved hcall

/-! ## Over a run -/

section Run

variable {start : Gateway S}

/-- Every query on record was reserved in the run. -/
theorem mem_begun_holds (hstart : start.Blank) (ms : List (Move S)) :
    ∀ q ∈ (start.play ms).queries.rows, q.id ∈ (start.begun Query.holds ms).map (·.id) := by
  induction ms with
  | nil => exact fun q hq => absurd hq (not_mem_nil hstart q)
  | cons m earlier ih =>
    have hL := sound_play hstart earlier
    intro q' hq'
    simp only [begun, List.map_append, List.mem_append]
    rcases origin_after hL hq' with ⟨q, hq, hb⟩ | hnew
    · exact .inr (hb.id ▸ ih q hq)
    · refine .inl (List.mem_map.2 ⟨q', mem_newly.2 ⟨hq', (reserved_after hL hq' hnew).1, ?_⟩, rfl⟩)
      intro q hq hid
      have hlt := hL.numbered.below q hq
      rw [hid] at hlt
      exact absurd hlt (Nat.not_lt.2 hnew)

/-- The numbers of the queries that hold and of those that ceased to are the numbers of all. -/
theorem ids_balance (hstart : start.Blank) (ms : List (Move S)) :
    (((start.play ms).queries.rows.filter Query.holds).map (·.id) ++
      (start.ceased Query.holds ms).map (·.id)).Perm ((start.begun Query.holds ms).map (·.id)) :=
  balance (f := fun q => q.id) hstart (fun _ _ hb _ _ _ => hb.id) ms

/-- A query that does not hold its estimate any more ceased to hold it. -/
theorem mem_ceased_holds (hstart : start.Blank) (ms : List (Move S)) {q : Query S}
    (hq : q ∈ (start.play ms).queries.rows) (hnot : q.holds = false) :
    q.id ∈ (start.ceased Query.holds ms).map (·.id) := by
  have hmem := (ids_balance hstart ms).mem_iff.2 (mem_begun_holds hstart ms q hq)
  rcases List.mem_append.1 hmem with hin | hin
  · obtain ⟨r, hr, hid⟩ := List.mem_map.1 hin
    obtain ⟨hr, hholds⟩ := List.mem_filter.1 hr
    obtain rfl := (sound_play hstart ms).same hr hq hid
    rw [hnot] at hholds
    cases hholds
  · exact hin

end Run

/-- At every moment of every run the locked cost of a client is exactly what its locked queries hold: what was
locked less what was unlocked.  Every query is locked once, under its own number, and unlocked at most once,
and it has been unlocked when it is settled, aborted or forgotten. -/
theorem locked_exact (vendor : S.Party) (config : GatewayConfig) (metrics : Metrics) (ms : List (Move S)) :
    let start := fresh vendor config metrics
    let g := start.play ms
    let locked := start.begun Query.holds ms
    let unlocked := start.ceased Query.holds ms
    (∀ client, (g.balances.cost client).toNat =
      sumFor client (·.estimated.toNat)
        (g.queries.rows.filter fun q => decide (q.state = .locked) && !q.released)) ∧
    (∀ client, (g.balances.cost client).toNat + sumFor client (·.estimated.toNat) unlocked =
      sumFor client (·.estimated.toNat) locked) ∧
    (locked.map (·.id)).Nodup ∧ (∀ q ∈ g.queries.rows, q.id ∈ locked.map (·.id)) ∧
    (unlocked.map (·.id)).Nodup ∧ (∀ id ∈ unlocked.map (·.id), id ∈ locked.map (·.id)) ∧
    (∀ q ∈ g.queries.rows, q.released = true ↔ q.id ∈ unlocked.map (·.id)) ∧
    (∀ id ∈ locked.map (·.id), (∀ q ∈ g.queries.rows, q.id ≠ id) → id ∈ unlocked.map (·.id)) ∧
    (∀ q ∈ g.queries.rows, q.state = .settled ∨ q.state = .aborted → q.released = true) := by
  intro start g locked unlocked
  have hstart := blank_fresh (S := S) vendor config metrics
  have hL := sound_play hstart ms
  have hids := ids_balance hstart ms
  have hnodup : (locked.map (·.id)).Nodup :=
    nodup_begun_of_lost hstart (fun _ _ hb h => hb.holds h) ms
  have hsplit := List.nodup_append.1 (hids.nodup_iff.2 hnodup)
  have hcost : ∀ client, (g.balances.cost client).toNat =
      sumFor client (·.estimated.toNat) (g.queries.rows.filter Query.holds) := by
    intro client
    rw [sumFor_filter]
    exact hL.locked client
  refine ⟨hcost, ?_, hnodup, mem_begun_holds hstart ms, hsplit.2.1, ?_, ?_, ?_, ?_⟩
  · intro client
    rw [hcost]
    exact sum_balance hstart (fun q q' hb _ _ _ => by rw [hb.estimated]) client ms
  · intro id hid
    exact hids.mem_iff.1 (List.mem_append_right _ hid)
  · intro q hq
    constructor
    · intro hrel
      exact mem_ceased_holds hstart ms hq (by simp [Query.holds, hrel])
    · -- whatever holds is no query that ceased to hold
      intro hin
      by_contra hrel
      have hlocked : q.state = .locked := by
        by_contra hst
        exact hrel ((hL.rows q hq).final_released hst)
      have hholds : q ∈ g.queries.rows.filter Query.holds :=
        List.mem_filter.2 ⟨hq, by simp [Query.holds, hlocked, hrel]⟩
      exact hsplit.2.2 _ (List.mem_map_of_mem hholds) _ hin rfl
  · intro id hid hgone
    rcases List.mem_append.1 (hids.mem_iff.2 hid) with hin | hin
    · obtain ⟨q, hq, rfl⟩ := List.mem_map.1 hin
      exact absurd rfl (hgone q (List.mem_filter.1 hq).1)
    · exact hin
  · intro q hq hst
    refine (hL.rows q hq).final_released ?_
    rcases hst with hst | hst <;> simp [hst]

end Gateway
end VoucherGateway
