import VoucherGateway.Proofs.Ledger.Commitments
import VoucherGateway.Proofs.Run.Halts

/-!
# Commitments — what vouchers and grace do not back over a run

What a client committed to may exceed what backs it for two reasons.  A query may cost more than its estimate.
And a settlement may break off between the unlocking of the estimate and the charge: the estimate is free for
another query then, and the charge comes late, on top of it.  Main statement: nothing else ever exceeds the
client's vouchers and the grace.
-/

namespace VoucherGateway

variable {S : Scheme}

/-- What a query cost beyond its estimate. -/
def Query.overrun (q : Query S) : Nat := q.cost - q.estimated.toNat

/-- What the estimate of a query covered of its cost. -/
def Query.covered (q : Query S) : Nat := min q.cost q.estimated.toNat

theorem Query.cost_eq (q : Query S) : q.cost = q.overrun + q.covered := by
  unfold overrun covered
  omega

/-- Whether the estimate of the query of a number was unlocked. -/
def wasReleased (old : List (Query S)) (q : Query S) : Bool :=
  old.any fun r => decide (r.id = q.id) && r.released

/-- The queries charged from one list to the next whose estimates had been unlocked before. -/
def chargedLate (old new : List (Query S)) : List (Query S) :=
  (newly (·.charged) old new).filter (wasReleased old)

section Sums

variable {c : S.Party} {u v w : Query S → Nat}

theorem sumFor_add (h : ∀ q, w q = u q + v q) (qs : List (Query S)) :
    sumFor c w qs = sumFor c u qs + sumFor c v qs := by
  obtain rfl : w = fun q => u q + v q := funext h
  exact List.sum_map_add

theorem sumFor_le (h : ∀ q, u q ≤ w q) (qs : List (Query S)) : sumFor c u qs ≤ sumFor c w qs :=
  List.sum_le_sum fun q _ => h q

theorem sumFor_split (p : Query S → Bool) (qs : List (Query S)) :
    sumFor c w qs = sumFor c w (qs.filter p) + sumFor c w (qs.filter fun q => !p q) := by
  rw [← sumFor_append, sumFor_eq, sumFor_eq]
  exact (((List.filter_append_perm p qs).map _).sum_nat).symm

/-- Costs are the costs beyond the estimates, and at most the estimates. -/
theorem sumFor_cost_le (p : Query S → Bool) (qs : List (Query S)) :
    sumFor c Query.cost qs ≤ sumFor c Query.overrun qs + sumFor c Query.covered (qs.filter p) +
      sumFor c (·.estimated.toNat) (qs.filter fun q => !p q) := by
  have hcosts := sumFor_add (c := c) Query.cost_eq qs
  have hsplit := sumFor_split (c := c) (w := Query.covered) p qs
  have hbound : sumFor c Query.covered (qs.filter fun q => !p q) ≤
      sumFor c (·.estimated.toNat) (qs.filter fun q => !p q) :=
    sumFor_le (fun _ => Nat.min_le_right _ _) _
  omega

end Sums

namespace Gateway

/-! ## One move -/

section Move

variable {g : Gateway S} {m : Move S} {c : S.Party}

/-- What a move charges is on record before it, locked and not charged. -/
theorem before_charged (hL : g.ledger.Sound) {q' : Query S}
    (hq' : q' ∈ newly (·.charged) g.queries.rows (g.after m).2.queries.rows) :
    ∃ q ∈ g.queries.rows, q.Becomes q' ∧ q.state = .locked ∧ q.charged = false := by
  obtain ⟨hmem, hch, hnot⟩ := mem_newly.1 hq'
  rcases origin_after hL hmem with ⟨q, hq, hb⟩ | hnew
  · have huncharged := hnot q hq hb.id.symm
    refine ⟨q, hq, hb, ?_, huncharged⟩
    rcases charge_after hL hq hmem hb.id with hsame | ⟨hst, -⟩
    · rw [hch, huncharged] at hsame
      cases hsame
    · exact hst
  · rw [(reserved_after hL hmem hnew).2.2] at hch
    cases hch

/-- What was not unlocked before a move that charges it is unlocked in the move. -/
theorem estimates_of_charged_le (hL : g.ledger.Sound) (c : S.Party) :
    sumFor c (·.estimated.toNat)
        ((newly (·.charged) g.queries.rows (g.after m).2.queries.rows).filter
          fun q => !wasReleased g.queries.rows q) ≤
      sumFor c (·.estimated.toNat) (newly Query.holds (g.after m).2.queries.rows g.queries.rows) := by
  have hM := sound_after m hL
  refine sumFor_le_of_matched ?_ ?_
  · exact hM.numbered.nodup.sublist ((List.filter_sublist.trans List.filter_sublist).map _)
  · intro q' hq'
    obtain ⟨hnew, hnot⟩ := List.mem_filter.1 hq'
    obtain ⟨hmem, hch, -⟩ := mem_newly.1 hnew
    obtain ⟨q, hq, hb, hst, -⟩ := before_charged hL hnew
    have hrel : q.released = false := by
      simp only [wasReleased, Bool.not_eq_true', List.any_eq_false, Bool.and_eq_true, decide_eq_true_eq,
        not_and, Bool.not_eq_true] at hnot
      exact hnot q hq hb.id.symm
    refine ⟨q, mem_newly.2 ⟨hq, by simp [Query.holds, hst, hrel], ?_⟩, hb.id.symm, hb.client.symm, ?_⟩
    · intro x hx hid
      obtain rfl := hM.same hx hmem (hid.trans hb.id.symm)
      simp [Query.holds, (hM.rows _ hmem).charged_released hch]
    · simp only [hb.estimated]

/-- Only a reservation brings a query that holds its estimate. -/
theorem newly_holds_eq_nil (hL : g.ledger.Sound)
    (hne : ∀ session estimated, m.call ≠ .acceptQuery session estimated) :
    newly Query.holds g.queries.rows (g.after m).2.queries.rows = [] := by
  refine newly_eq_nil fun q' hq' hholds => ?_
  rcases Ledger.Trail.comes_from (trail_after m hL) hL.numbered hq' with ⟨q, hq, hb⟩ | ⟨q, he, -⟩
  · exact ⟨q, hq, hb.id.symm, hb.holds hholds⟩
  · obtain ⟨session, estimated, hcall⟩ := he.reserved
    exact absurd hcall (hne session estimated)

/-- A reservation charges nothing. -/
theorem charges_of_acceptQuery {session : SessionId} {estimated : Atoms} {e : Entry S}
    (h : (Call.acceptQuery session estimated).Leaves g.config e) (c : S.Party) : e.charges c = 0 := by
  cases e with
  | charged q cost =>
    obtain ⟨_, hcall⟩ := h.charged
    cases hcall
  | _ => rfl

/-- What a move commits a client to, if it reserves nothing: costs beyond the estimates, and late charges. -/
theorem committed_after (m : Move S) (hL : g.ledger.Sound)
    (hnone : newly Query.holds g.queries.rows (g.after m).2.queries.rows = []) (c : S.Party) :
    (g.after m).2.ledger.committed c ≤ g.ledger.committed c +
      sumFor c Query.overrun (newly (·.charged) g.queries.rows (g.after m).2.queries.rows) +
      sumFor c Query.covered (chargedLate g.queries.rows (g.after m).2.queries.rows) := by
  have hM := sound_after m hL
  have hlocks := sum_after (p := Query.holds) (w := (·.estimated.toNat)) m hL
    (fun q q' hb _ _ _ => by rw [hb.estimated]) c
  rw [hnone, sumFor_filter, sumFor_filter] at hlocks
  have hlocks : ((g.after m).2.ledger.lockedOf c).toNat +
      sumFor c (·.estimated.toNat) (newly Query.holds (g.after m).2.queries.rows g.queries.rows) =
      (g.ledger.lockedOf c).toNat + 0 := by
    rw [hL.locked, hM.locked]
    exact hlocks
  have hbooks := charged_after m hL c
  have hestimates := estimates_of_charged_le (m := m) hL c
  have hcosts := sumFor_cost_le (c := c) (wasReleased g.queries.rows)
    (newly (·.charged) g.queries.rows (g.after m).2.queries.rows)
  unfold Ledger.committed chargedLate
  omega

end Move

/-! ## Over a run -/

/-- The queries charged in a run by another move than the one that unlocked their estimates. -/
def late (start : Gateway S) : List (Move S) → List (Query S)
  | [] => []
  | m :: earlier =>
    chargedLate (start.play earlier).queries.rows (start.play (m :: earlier)).queries.rows ++
      start.late earlier

/-- What vouchers and grace do not back over a run: costs beyond the estimates, and late charges. -/
def excess (start : Gateway S) (client : S.Party) (ms : List (Move S)) : Nat :=
  sumFor client Query.overrun (start.begun (·.charged) ms) + sumFor client Query.covered (start.late ms)

theorem excess_cons (start : Gateway S) (c : S.Party) (m : Move S) (earlier : List (Move S)) :
    start.excess c (m :: earlier) = start.excess c earlier +
      (sumFor c Query.overrun (newly (·.charged) (start.play earlier).queries.rows
        ((start.play earlier).after m).2.queries.rows) +
      sumFor c Query.covered (chargedLate (start.play earlier).queries.rows
        ((start.play earlier).after m).2.queries.rows)) := by
  change sumFor c Query.overrun (_ ++ _) + sumFor c Query.covered (_ ++ _) = _
  rw [sumFor_append, sumFor_append]
  unfold excess
  exact Nat.add_add_add_comm .. |>.trans (Nat.add_comm ..)

/-- By induction on the run; a reservation looks at the credit, and whatever else a move does adds nothing but
its charges. -/
theorem committed_play {start : Gateway S} (hstart : start.Blank) (c : S.Party) (ms : List (Move S)) :
    (start.play ms).ledger.committed c ≤
      (start.play ms).ledger.accepted c + (start.config.credit.grace.toNat + start.excess c ms) := by
  induction ms with
  | nil =>
    change (start.ledger.lockedOf c).toNat + start.ledger.books c ≤ _
    rw [hstart.lockedOf, hstart.books]
    exact Nat.zero_le _
  | cons m earlier ih =>
    have hL := sound_play hstart earlier
    have ht := trail_after m hL
    have hgrace : (start.play earlier).ledger.config = start.config := config_play hstart earlier
    change ((start.play earlier).after m).2.ledger.committed c ≤
      ((start.play earlier).after m).2.ledger.accepted c + _
    rw [excess_cons]
    by_cases hcall : ∃ session estimated, m.call = .acceptQuery session estimated
    · obtain ⟨session, estimated, hcall⟩ := hcall
      rw [hcall] at ht
      rw [← hgrace] at ih ⊢
      have h := Ledger.Trail.backed ht hL (fun e he => charges_of_acceptQuery he c) ih
      omega
    · have hnone := newly_holds_eq_nil (m := m) hL fun session estimated h => hcall ⟨session, estimated, h⟩
      have hcommitted := committed_after m hL hnone c
      have haccepted := Ledger.Trail.accepted_le (c := c) ht hL
      omega

theorem within_play {start : Gateway S} (hstart : start.Blank) (c : S.Party) (ms : List (Move S)) :
    ((start.play ms).ledger.lockedOf c).toNat + ((start.play ms).ledger.unmarkedOf c).toNat ≤
      (start.play ms).ledger.backing c + (start.config.credit.grace.toNat + start.excess c ms) :=
  (sound_play hstart ms).committed_le_iff.1 (committed_play hstart c ms)

/-- At every moment of every run, what is locked and what is unmarked of a client is within the client's
vouchers that are not spent and the grace, but for what queries cost beyond their estimates, and for queries
charged by another move than the one that unlocked their estimates.  A voucher that is marked spent but not
taken off yet counts as not spent. -/
theorem commitments_backed (vendor : S.Party) (config : GatewayConfig) (metrics : Metrics)
    (ms : List (Move S)) :
    let start := fresh vendor config metrics
    let g := start.play ms
    ∀ client, (g.balances.cost client).toNat + (g.unmarked.cost client).toNat ≤
      g.ledger.backing client + config.credit.grace.toNat +
        sumFor client Query.overrun (start.begun (·.charged) ms) +
        sumFor client Query.covered (start.late ms) := by
  intro start g client
  have h := within_play (blank_fresh (S := S) vendor config metrics) client ms
  unfold excess at h
  rw [← Nat.add_assoc, ← Nat.add_assoc] at h
  exact h

/-- The estimate is unlocked, but the cost cannot be added; another query is reserved before the next attempt.
No query costs more than its estimate, and yet the second one is backed by nothing. -/
theorem estimate_granted_again :
    let settle : Call Scheme.plain := .settleQuery ⟨1⟩ ⟨360000, 0⟩
    let again : Call Scheme.plain := .acceptQuery ⟨1⟩ 100
    let g := Sample.start.play
      ([⟨Sample.world, settle⟩, ⟨Sample.world, again⟩, ⟨Sample.unmarkedFailing .add, settle⟩] ++
        Sample.reserving 100)
    (∀ q ∈ g.queries.rows, q.cost ≤ q.estimated.toNat) ∧
      g.ledger.backing 1 + Sample.config.credit.grace.toNat <
        (g.balances.cost 1).toNat + (g.unmarked.cost 1).toNat := by
  decide +kernel

end Gateway
end VoucherGateway
