import VoucherGateway.Proofs.Run.Reliable

/-!
# Schedules — what is spent whatever the order is in which calls come

Vouchers are spent little by little: after each settlement as far as the unmarked cost goes, and when a voucher
is accepted while cost is carried.  Main statement: at every point at which the client is calm, all that is
spent is what the charges cover of the vouchers from the oldest on, so it makes no difference in which order
vouchers were accepted and queries settled (`covered_vouchers_spent`).
-/

namespace VoucherGateway

variable {S : Scheme}

namespace Gateway

variable {g : Gateway S} {q q' : Query S} {w : World S} {usage : Usage}

/-- An attempt to settle a query that fails leaves it locked. -/
theorem Fails.locked {cost : Atoms} {e : Error} {L : Ledger S} (h : Fails (L.pricing q cost) q.id cost e g)
    (hL : L.Sound) (hq : q ∈ L.queries.rows) (hst : q.state = .locked) (hq' : q' ∈ g.ledger.queries.rows)
    (hid : q'.id = q.id) : q'.state = .locked := by
  have onWay : ∀ {N : Ledger S}, Ledger.Way q.id (L.pricing q cost) N → q' ∈ N.queries.rows →
      q'.state = .locked := by
    intro N way hmem
    obtain ⟨actual, hrow⟩ := Ledger.row_pricing hq cost
    obtain ⟨_, _, _, hkept⟩ := way.row hrow rfl
    rw [(way.sound (hL.pricing hq hst cost)).same hmem hkept hid]
    exact hst
  rcases h with ⟨-, way⟩ | ⟨-, N, x, -, way, -, hN, -⟩
  · exact onWay way hq'
  · rw [hN] at hq'
    exact onWay way hq'

/-- Right after a query is settled its client is calm, whatever failed before and meanwhile. -/
theorem calm_of_settled (hL : g.ledger.Sound) (hq : q ∈ g.queries.rows) (hst : q.state ≠ .settled)
    (hq' : q' ∈ (g.after ⟨w, .settleQuery q.id usage⟩).2.queries.rows) (hid : q'.id = q.id)
    (hsettled : q'.state = .settled) :
    (g.after ⟨w, .settleQuery q.id usage⟩).2.ledger.Calm q.client := by
  have changed : ∀ {g' : Gateway S}, g'.ledger = g.ledger → q' ∉ g'.ledger.queries.rows := by
    intro g' hsame hmem
    rw [hsame] at hmem
    exact hst ((hL.same hq hmem hid.symm) ▸ hsettled)
  unfold after at hq' ⊢
  rw [run_settle] at hq' ⊢
  by_cases hlocked : q.state = .locked
  · have h := ends_settleQuery_of_locked (g := g.inWorld w) usage hL rfl hq hlocked rfl
    rcases hr : (settleQuery q.id usage).run (g.inWorld w) with ⟨e | answer, g'⟩ <;> rw [hr] at h hq'
    · rcases h with ⟨hsame, -⟩ | hfails
      · exact absurd hq' (changed hsame)
      · exact absurd ((hfails.locked hL hq hlocked hq' hid).symm.trans hsettled) nofun
    · obtain ⟨-, _, settled, -⟩ := h
      exact settled.calm hL hq hlocked
  · have h := ends_settleQuery_of_final (g := g.inWorld w) usage hL rfl fun x hx hx_id =>
      (hL.same hx hq hx_id) ▸ hlocked
    rcases hr : (settleQuery q.id usage).run (g.inWorld w) with ⟨e | answer, g'⟩ <;> rw [hr] at h hq'
    · exact absurd hq' (changed h)
    · exact absurd hq' (changed h.1)

/-- The costs that a client was charged in a run, latest first. -/
def chargedCosts (start : Gateway S) (client : S.Party) (ms : List (Move S)) : List Nat :=
  ((start.begun (·.charged) ms).filter fun q => decide (q.client = client)).map Query.cost

/-- A calm client has consumed what it was charged. -/
theorem consumes_play {start : Gateway S} (hstart : start.Blank) (ms : List (Move S)) {c : S.Party}
    (hcalm : (start.play ms).ledger.Calm c) :
    (start.play ms).ledger.Consumes c (start.chargedCosts c ms).sum := by
  have h := hcalm.consumes (sound_play hstart ms)
  rw [← charged_play hstart] at h
  exact h

/-- After every run in which the stores answer each call, and after every run whatsoever whose last move settled
a query of the client, what the client was charged covers a number of its vouchers from the oldest on.
Exactly these are spent, they are handed over in this order, and the rest of the charges is unmarked.  So
between runs in which the stores answer each call, the same vouchers of a client are accepted and the same
costs are charged, in whatever order, nothing of that differs. -/
theorem covered_vouchers_spent (vendor : S.Party) (config : GatewayConfig) (metrics : Metrics)
    (ms : List (Move S)) :
    let start := fresh vendor config metrics
    let g := start.play ms
    ((∀ m ∈ ms, m.world.Reliable) →
      ∀ client, g.ledger.Consumes client (start.chargedCosts client ms).sum) ∧
    (∀ (w : World S) (usage : Usage), ∀ q ∈ g.queries.rows, q.state ≠ .settled →
      let settling : Move S := ⟨w, .settleQuery q.id usage⟩
      ∀ q' ∈ (g.after settling).2.queries.rows, q'.id = q.id → q'.state = .settled →
        (g.after settling).2.ledger.Consumes q.client (start.chargedCosts q.client (settling :: ms)).sum) ∧
    (∀ (config' : GatewayConfig) (metrics' : Metrics) (ms' : List (Move S)) (client : S.Party),
      let start' := fresh vendor config' metrics'
      let g' := start'.play ms'
      (∀ m ∈ ms, m.world.Reliable) → (∀ m ∈ ms', m.world.Reliable) →
      (∀ v, v ∈ (g.ledger.chain client).vouchers ↔ v ∈ (g'.ledger.chain client).vouchers) →
      (start.chargedCosts client ms).Perm (start'.chargedCosts client ms') →
        (g.ledger.chain client).spent = (g'.ledger.chain client).spent ∧
          g.ledger.unmarkedOf client = g'.ledger.unmarkedOf client ∧
          g.ledger.handed client = g'.ledger.handed client) := by
  intro start g
  have hstart := blank_fresh (S := S) vendor config metrics
  refine ⟨?reliable, ?settled, ?schedules⟩
  case reliable => exact fun hworlds client => consumes_play hstart ms (calm_play hstart hworlds client)
  case settled =>
    intro w usage q hq hst settling q' hq' hid hsettled
    exact consumes_play hstart (settling :: ms)
      (calm_of_settled (sound_play hstart ms) hq hst hq' hid hsettled)
  case schedules =>
    intro config' metrics' ms' client start' g' hworlds hworlds' hvouchers hcosts
    have hstart' := blank_fresh (S := S) vendor config' metrics'
    have hsame := (sound_play hstart ms).vouchers_eq (sound_play hstart' ms') hvouchers
    have hconsumes := consumes_play hstart ms (calm_play hstart hworlds client)
    rw [hcosts.sum_nat] at hconsumes
    exact hconsumes.unique (consumes_play hstart' ms' (calm_play hstart' hworlds' client)) hsame

/-- A query of a hundred and fifty atoms uses up two vouchers of a hundred and of forty atoms, whether the second
one comes before or after it is settled.  So it does when the call that settles it breaks off at first. -/
theorem covered_vouchers_spent_sample :
    let topUp : Move Scheme.plain := ⟨Sample.world, .topUp ⟨1⟩ ⟨1, 9, 2, 40, true⟩⟩
    let usage : Usage := ⟨540000, 0⟩
    let ms := topUp :: ⟨Sample.world, .settleQuery ⟨1⟩ usage⟩ :: Sample.reserving 100
    let ms' := ⟨Sample.world, .settleQuery ⟨1⟩ usage⟩ :: topUp :: Sample.reserving 100
    let broken := ⟨Sample.vouchersFailing .unspent, .settleQuery ⟨1⟩ usage⟩ :: topUp :: Sample.reserving 100
    let ledger := (Sample.start.play ms).ledger
    let ledger' := (Sample.start.play ms').ledger
    ((∀ m ∈ ms, m.world.Reliable) ∧ ledger.Consumes 1 150) ∧
    (((Sample.start.play broken).ledger.chain 1).spent = [] ∧
      ((Sample.start.play broken).after ⟨Sample.world, .settleQuery ⟨1⟩ usage⟩).2.ledger.Consumes 1 150) ∧
    ((∀ m ∈ ms', m.world.Reliable) ∧ (ledger.chain 1).spent = (ledger'.chain 1).spent ∧
      ledger.unmarkedOf 1 = ledger'.unmarkedOf 1 ∧ ledger.handed 1 = ledger'.handed 1 ∧
      (ledger'.chain 1).spent = [1, 2] ∧ ledger'.unmarkedOf 1 = 10) := by
  intro topUp usage ms ms' broken ledger ledger'
  have hstart : fresh (S := Scheme.plain) 9 Sample.config {} = Sample.start := rfl
  have hworld : Sample.world.Reliable := World.reliable_answering _
  have hreliable : ∀ m ∈ ms, m.world.Reliable := by simp [ms, topUp, Sample.reserving, hworld]
  have hreliable' : ∀ m ∈ ms', m.world.Reliable := by simp [ms', topUp, Sample.reserving, hworld]
  have hcosts : Sample.start.chargedCosts 1 ms = [150] := by decide +kernel
  have hcosts' : Sample.start.chargedCosts 1 ms' = [150] := by decide +kernel
  have hvouchers : (ledger.chain 1).vouchers = (ledger'.chain 1).vouchers := by decide +kernel
  obtain ⟨hconsumes, -, hschedules⟩ := covered_vouchers_spent (S := Scheme.plain) 9 Sample.config {} ms
  have hconsumes := hconsumes hreliable 1
  rw [hstart, hcosts] at hconsumes
  obtain ⟨hspent, hunmarked, hhanded⟩ := hschedules Sample.config {} ms' 1 hreliable hreliable'
    (fun v => iff_of_eq (congrArg (v ∈ ·) hvouchers)) (.of_eq (hcosts.trans hcosts'.symm))
  refine ⟨⟨hreliable, hconsumes⟩, ⟨by decide +kernel, ?_⟩, hreliable', hspent, hunmarked, hhanded,
    by decide +kernel, by decide +kernel⟩
  -- what the charge could not spend when the store broke off is spent by the second call
  have hbroken := (covered_vouchers_spent (S := Scheme.plain) 9 Sample.config {} broken).2.1 Sample.world usage
  obtain ⟨q, hq, hid, hclient, hst⟩ : ∃ q ∈ (Sample.start.play broken).queries.rows,
      q.id = ⟨1⟩ ∧ q.client = 1 ∧ q.state ≠ .settled := by decide +kernel
  obtain ⟨q', hq', hid', hst'⟩ :
      ∃ q' ∈ ((Sample.start.play broken).after ⟨Sample.world, .settleQuery ⟨1⟩ usage⟩).2.queries.rows,
        q'.id = ⟨1⟩ ∧ q'.state = .settled := by decide +kernel
  have hcosts : Sample.start.chargedCosts 1 (⟨Sample.world, .settleQuery ⟨1⟩ usage⟩ :: broken) = [150] := by
    decide +kernel
  rw [hstart] at hbroken
  have hbroken := hbroken q hq hst q'
  rw [hid, hclient, hcosts] at hbroken
  exact hbroken hq' hid' hst'

end Gateway
end VoucherGateway
