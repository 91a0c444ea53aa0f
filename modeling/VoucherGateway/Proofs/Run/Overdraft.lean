import VoucherGateway.Proofs.Run.Commitments
import VoucherGateway.Proofs.Run.Reliable

/-!
# Overdraft — how far a client gets into debt if no store fails

Only a query that is adrift can be charged late: one whose estimate was unlocked by a move that did not charge
it.  While every store answers, a query is adrift only because its cost did not fit; and as long as a client's
queries keep to their estimates, what is locked and unmarked of the client fits, so that such a cost is beyond
its estimate.  Main statement: if no call to a store fails, a client gets into debt only by what queries cost
beyond their estimates.
-/

namespace VoucherGateway

variable {S : Scheme}

theorem sumFor_eq_zero {c : S.Party} {w : Query S → Nat} {qs : List (Query S)}
    (h : ∀ q ∈ qs, q.client = c → w q = 0) : sumFor c w qs = 0 := by
  rw [sumFor_eq]
  refine List.sum_eq_zero fun n hn => ?_
  obtain ⟨q, hq, rfl⟩ := List.mem_map.1 hn
  split
  · next hc => exact h q hq hc
  · rfl

theorem Query.Becomes.cost_of_pos {q q' : Query S} (h : q.Becomes q') (hpos : 0 < q.cost) :
    q'.cost = q.cost := by
  unfold Query.cost at hpos ⊢
  rcases h.actual with hnone | hsame
  · rw [hnone] at hpos
    exact absurd hpos (Nat.lt_irrefl _)
  · rw [hsame]

namespace Gateway

section Move

variable {g : Gateway S} {m : Move S} {c : S.Party}

/-- What is charged late was adrift. -/
theorem adrift_of_chargedLate (hL : g.ledger.Sound) {q' : Query S}
    (hq' : q' ∈ chargedLate g.queries.rows (g.after m).2.queries.rows) :
    ∃ q ∈ g.queries.rows, q.adrift = true ∧ q.Becomes q' := by
  obtain ⟨hnew, hlate⟩ := List.mem_filter.1 hq'
  obtain ⟨q, hq, hb, hst, -⟩ := before_charged hL hnew
  obtain ⟨r, hr, hrel⟩ := List.any_eq_true.1 hlate
  simp only [Bool.and_eq_true, decide_eq_true_eq] at hrel
  obtain rfl := hL.same hr hq (hrel.1.trans hb.id)
  exact ⟨r, hr, Query.adrift_iff.2 ⟨hst, hrel.2⟩, hb⟩

/-- Every query of a client that is adrift costs more than its estimate, and what is locked and unmarked of
the client fits. -/
structure Overrunning (g : Gateway S) (c : S.Party) : Prop where
  fits : (g.ledger.unmarkedOf c).toNat + (g.ledger.lockedOf c).toNat ≤ Atoms.top.toNat
  adrift : ∀ q ∈ g.queries.rows, q.client = c → q.adrift = true → q.estimated.toNat < q.cost

/-- If a move charges a client at most the estimates, nothing is charged late. -/
theorem Overrunning.chargedLate (h : g.Overrunning c) (hL : g.ledger.Sound)
    (hcharged : ∀ q ∈ newly (·.charged) g.queries.rows (g.after m).2.queries.rows, q.client = c →
      q.cost ≤ q.estimated.toNat) :
    ∀ q ∈ VoucherGateway.chargedLate g.queries.rows (g.after m).2.queries.rows, q.client ≠ c := by
  intro q' hq' hc
  obtain ⟨q, hq, hadrift, hb⟩ := adrift_of_chargedLate hL hq'
  have hlt := h.adrift q hq (hb.client.symm.trans hc) hadrift
  have hle := hcharged q' (List.mem_filter.1 hq').1 hc
  rw [hb.estimated, hb.cost_of_pos (Nat.zero_lt_of_lt hlt)] at hle
  omega

theorem Overrunning.fits_after (h : g.Overrunning c) (hL : g.ledger.Sound)
    (hcharged : ∀ q ∈ newly (·.charged) g.queries.rows (g.after m).2.queries.rows, q.client = c →
      q.cost ≤ q.estimated.toNat) :
    ((g.after m).2.ledger.unmarkedOf c).toNat + ((g.after m).2.ledger.lockedOf c).toNat ≤
      Atoms.top.toNat := by
  have ht := trail_after m hL
  by_cases hcall : ∃ session estimated, m.call = .acceptQuery session estimated
  · obtain ⟨session, estimated, hcall⟩ := hcall
    rw [hcall] at ht
    exact Ledger.Trail.fits ht hL (fun e he => charges_of_acceptQuery he c) h.fits
  · have hnone := newly_holds_eq_nil (m := m) hL fun session estimated h => hcall ⟨session, estimated, h⟩
    have hcommitted := committed_after m hL hnone c
    have hover : sumFor c Query.overrun (newly (·.charged) g.queries.rows (g.after m).2.queries.rows) = 0 :=
      sumFor_eq_zero fun q hq hc => Nat.sub_eq_zero_of_le (hcharged q hq hc)
    have hlate : sumFor c Query.covered
        (VoucherGateway.chargedLate g.queries.rows (g.after m).2.queries.rows) = 0 :=
      sumFor_eq_zero fun q hq hc => absurd hc (h.chargedLate hL hcharged q hq)
    have hhanded := ((hL.handed_prefix_trail ht c).sublist.map (·.atoms.toNat)).sum_le_sum
      fun _ _ => Nat.zero_le _
    have hfits := h.fits
    unfold Ledger.committed Ledger.books at hcommitted
    omega

/-- A cost that does not fit is beyond its estimate, which was locked. -/
theorem Overrunning.after (hw : m.world.Reliable) (h : g.Overrunning c) (hL : g.ledger.Sound)
    (hcharged : ∀ q ∈ newly (·.charged) g.queries.rows (g.after m).2.queries.rows, q.client = c →
      q.cost ≤ q.estimated.toNat) : (g.after m).2.Overrunning c := by
  have kept : ∀ {q q' : Query S}, q ∈ g.queries.rows → q.adrift = true → q.Becomes q' → q'.client = c →
      q'.estimated.toNat < q'.cost := by
    intro q q' hq hadrift hb hc
    have hlt := h.adrift q hq (hb.client.symm.trans hc) hadrift
    rw [hb.estimated, hb.cost_of_pos (Nat.zero_lt_of_lt hlt)]
    exact hlt
  refine ⟨h.fits_after hL hcharged, ?_⟩
  intro q' hq' hc hadrift'
  rcases adrift_after hw hL hq' hadrift' with ⟨q, hq, hadrift, hb⟩ | ⟨-, hexceeds⟩
  · exact kept hq hadrift hb hc
  · rcases origin_after hL hq' with ⟨q, hq, hb⟩ | hnew
    · have hst : q.state = .locked := hb.locked (Query.adrift_iff.1 hadrift').1
      cases hrel : q.released with
      | true => exact kept hq (Query.adrift_iff.2 ⟨hst, hrel⟩) hb hc
      | false =>
        have hheld := UInt64.le_iff_toNat_le.1 (hL.held_le hq hst hrel)
        have hfits := h.fits
        rw [← hb.client, hc] at hheld
        rw [hc] at hexceeds
        rw [hb.estimated]
        omega
    · have hholds := (reserved_after hL hq' hnew).1
      simp [Query.holds, (Query.adrift_iff.1 hadrift').2] at hholds

end Move

/-! ## Over a run -/

/-- No call to a store fails in a run: every store answers, and every sum fits. -/
def Unfailing (start : Gateway S) : List (Move S) → Prop
  | [] => True
  | m :: earlier =>
    start.Unfailing earlier ∧ m.world.Reliable ∧ isViolation ((start.play earlier).after m).1 = false

section Run

variable {start : Gateway S} {ms : List (Move S)}

theorem Unfailing.reliable (h : start.Unfailing ms) : ∀ m ∈ ms, m.world.Reliable := by
  induction ms with
  | nil => exact List.forall_mem_nil _
  | cons m earlier ih => exact List.forall_mem_cons.2 ⟨h.2.1, ih h.1⟩

/-- No query is adrift in a run in which no call to a store fails. -/
theorem Unfailing.adrift (h : start.Unfailing ms) (hstart : start.Blank) :
    ∀ q ∈ (start.play ms).queries.rows, q.adrift = false := by
  induction ms with
  | nil => exact fun q hq => absurd hq (not_mem_nil hstart q)
  | cons m earlier ih =>
    obtain ⟨hearlier, hw, hfits⟩ := h
    intro q' hq'
    by_contra hadrift
    rcases adrift_after hw (sound_play hstart earlier) hq' (by simpa using hadrift)
      with ⟨q, hq, hbefore, -⟩ | ⟨hviolation, -⟩
    · exact absurd ((ih hearlier q hq).symm.trans hbefore) nofun
    · exact absurd (hfits.symm.trans hviolation) nofun

/-- Nothing is charged late then. -/
theorem Unfailing.late (h : start.Unfailing ms) (hstart : start.Blank) : start.late ms = [] := by
  induction ms with
  | nil => rfl
  | cons m earlier ih =>
    have hnone : VoucherGateway.chargedLate (start.play earlier).queries.rows
        (start.play (m :: earlier)).queries.rows = [] := by
      refine List.eq_nil_iff_forall_not_mem.2 fun q' hq' => ?_
      obtain ⟨q, hq, hadrift, -⟩ := adrift_of_chargedLate (sound_play hstart earlier) hq'
      exact absurd ((h.1.adrift hstart q hq).symm.trans hadrift) nofun
    rw [Gateway.late, hnone, ih h.1]
    rfl

/-- As long as a client's queries keep to their estimates, nothing of the client's is charged late. -/
theorem overrunning_play (hstart : start.Blank) {c : S.Party} (hworlds : ∀ m ∈ ms, m.world.Reliable)
    (hcharged : ∀ q ∈ start.begun (·.charged) ms, q.client = c → q.cost ≤ q.estimated.toNat) :
    (start.play ms).Overrunning c ∧ ∀ q ∈ start.late ms, q.client ≠ c := by
  induction ms with
  | nil =>
    refine ⟨⟨?_, fun q hq => absurd hq (not_mem_nil hstart q)⟩, List.forall_mem_nil _⟩
    have hbooks := hstart.books c
    have hlocked := hstart.lockedOf c
    unfold Ledger.books at hbooks
    change (start.ledger.unmarkedOf c).toNat + (start.ledger.lockedOf c).toNat ≤ _
    omega
  | cons m earlier ih =>
    have hL := sound_play hstart earlier
    obtain ⟨hw, hearlier⟩ := List.forall_mem_cons.1 hworlds
    have hnow := fun q hq => hcharged q (List.mem_append_left _ hq)
    obtain ⟨hover, hlate⟩ := ih hearlier fun q hq => hcharged q (List.mem_append_right _ hq)
    refine ⟨hover.after hw hL hnow, fun q hq => ?_⟩
    rcases List.mem_append.1 hq with hq | hq
    · exact hover.chargedLate hL hnow q hq
    · exact hlate q hq

end Run

/-- If no call to a store fails in a run, then what is locked and what is unmarked of a client is within the
client's vouchers that are not spent, the grace, and what queries cost beyond their estimates.  If the stores
answer every call, and no charged query of a client costs more than its estimate, then it is within the
vouchers and the grace; that every sum fits need not be assumed then. -/
theorem overdraft_bounded (vendor : S.Party) (config : GatewayConfig) (metrics : Metrics)
    (ms : List (Move S)) :
    let start := fresh vendor config metrics
    let g := start.play ms
    let charged := start.begun (·.charged) ms
    let unspent := fun client => ((g.vouchers.chain client g.vendor).unspent.map (·.atoms.toNat)).sum
    (start.Unfailing ms → ∀ client,
      (g.balances.cost client).toNat + (g.unmarked.cost client).toNat ≤
        unspent client + config.credit.grace.toNat +
          sumFor client (fun q => q.cost - q.estimated.toNat) charged) ∧
    ((∀ m ∈ ms, m.world.Reliable) → ∀ client,
      (∀ q ∈ charged, q.client = client → q.cost ≤ q.estimated.toNat) →
      (g.balances.cost client).toNat + (g.unmarked.cost client).toNat ≤
        unspent client + config.credit.grace.toNat) := by
  intro start g charged unspent
  have hstart := blank_fresh (S := S) vendor config metrics
  have hwithin : (∀ m ∈ ms, m.world.Reliable) → ∀ client,
      (g.balances.cost client).toNat + (g.unmarked.cost client).toNat ≤
        unspent client + (config.credit.grace.toNat + start.excess client ms) := by
    intro hworlds client
    have hbacking : g.ledger.backing client = unspent client := by
      unfold Ledger.backing
      rw [Ledger.unreduced_eq_none (idle_play hstart hworlds client)]
      exact Nat.zero_add _
    rw [← hbacking]
    exact within_play hstart client ms
  constructor
  · intro hrun client
    have hexcess : start.excess client ms = sumFor client Query.overrun charged := by
      unfold excess
      rw [hrun.late hstart]
      rfl
    have h := hwithin hrun.reliable client
    rw [hexcess, ← Nat.add_assoc] at h
    exact h
  · intro hworlds client hcharged
    have hlate := (overrunning_play hstart hworlds hcharged).2
    have hover : sumFor client Query.overrun charged = 0 :=
      sumFor_eq_zero fun q hq hc => Nat.sub_eq_zero_of_le (hcharged q hq hc)
    have hcovered : sumFor client Query.covered (start.late ms) = 0 :=
      sumFor_eq_zero fun q hq hc => absurd hc (hlate q hq)
    have hexcess : start.excess client ms = 0 := by
      unfold excess
      rw [hover, hcovered]
    have h := hwithin hworlds client
    rw [hexcess] at h
    exact h

/-- A query that costs fifty atoms more than its estimate leaves as much unmarked; while it is reserved, its
estimate is within the voucher. -/
theorem overdraft_bounded_sample :
    let settle : Move Scheme.plain := ⟨Sample.world, .settleQuery ⟨1⟩ ⟨540000, 0⟩⟩
    let committed (ms : List (Move Scheme.plain)) : Nat :=
      ((Sample.start.play ms).balances.cost 1).toNat + ((Sample.start.play ms).unmarked.cost 1).toNat
    let unspent (ms : List (Move Scheme.plain)) : Nat :=
      (((Sample.start.play ms).vouchers.chain 1 (Sample.start.play ms).vendor).unspent.map
        (·.atoms.toNat)).sum
    let overruns (ms : List (Move Scheme.plain)) : Nat :=
      sumFor (S := Scheme.plain) 1 (fun q => q.cost - q.estimated.toNat) (Sample.start.begun (·.charged) ms)
    let ms := Sample.reserving 100
    (Sample.start.Unfailing (settle :: ms) ∧
      committed (settle :: ms) ≤
        unspent (settle :: ms) + Sample.config.credit.grace.toNat + overruns (settle :: ms) ∧
      committed (settle :: ms) = 50 ∧ unspent (settle :: ms) = 0) ∧
    (∀ m ∈ ms, m.world.Reliable) ∧ committed ms ≤ unspent ms + Sample.config.credit.grace.toNat ∧
      committed ms = 100 := by
  intro settle committed unspent overruns ms
  have hworld : Sample.world.Reliable := World.reliable_answering _
  have hreserved : Sample.start.Unfailing ms :=
    ⟨⟨trivial, hworld, by decide +kernel⟩, hworld, by decide +kernel⟩
  have hrun : Sample.start.Unfailing (settle :: ms) := ⟨hreserved, hworld, by decide +kernel⟩
  have hkept : ∀ q ∈ Sample.start.begun (·.charged) ms, q.client = 1 → q.cost ≤ q.estimated.toNat := by
    decide +kernel
  exact ⟨⟨hrun, (overdraft_bounded (S := Scheme.plain) 9 Sample.config {} (settle :: ms)).1 hrun 1,
      by decide +kernel, by decide +kernel⟩,
    hreserved.reliable,
    (overdraft_bounded (S := Scheme.plain) 9 Sample.config {} ms).2 hreserved.reliable 1 hkept,
    by decide +kernel⟩

end Gateway
end VoucherGateway
