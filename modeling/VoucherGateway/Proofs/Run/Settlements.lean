import VoucherGateway.Proofs.Run.Charges
import VoucherGateway.Proofs.Run.Payments
import VoucherGateway.Proofs.Run.Reliable

/-!
# Settlements — settling a query from beginning to end

Whatever happened before, a locked query that nobody tried to settle has its estimate locked, and no voucher is
used up on its account.  So while every store answers, settling it is determined by its usage, the unmarked cost
and the vouchers that are not spent.  Main statement: `settles_exactly`.
-/

namespace VoucherGateway

variable {S : Scheme}

theorem Ledger.Accepts.unbilled {L M : Ledger S} {v : Voucher S} {reading : Except String ChainSnapshot}
    {answering : Prop} (h : L.Accepts v reading answering M) (hL : L.Sound) :
    Ledger.Trail Entry.Unbilled L M := by
  obtain ⟨chain, -, hrefusal⟩ := h.acceptable
  have hrecorded : Ledger.Trail Entry.Unbilled L (L.post (.recorded v)) :=
    .post (e := .recorded v) trivial (hL.allows_recorded hrefusal)
  exact hrecorded.trans (h.recorded.widen fun _ he => he.unbilled)

theorem Ledger.TurnsAway.unbilled {L M : Ledger S} {v : Voucher S} {reading : Except String ChainSnapshot}
    {answering eligible : Prop} {e : Error} (h : L.TurnsAway v eligible reading answering e M) :
    Ledger.Trail Entry.Unbilled L M :=
  h.trail.widen fun _ he => he ▸ trivial

namespace Gateway

variable {g : Gateway S} {w : World S}

/-! ## On whose account vouchers are used up -/

/-- Vouchers are spent on account of a query in settlements only. -/
theorem unbilled_after {m : Move S} (hL : g.ledger.Sound) (hne : ∀ id usage, m.call ≠ .settleQuery id usage) :
    Ledger.Trail Entry.Unbilled g.ledger (g.after m).2.ledger := by
  rcases m with ⟨w, call⟩
  have mapped : ∀ {α : Type} {op : Op S α} {f : α → Reply S},
      Ends (fun _ g' => Ledger.Trail Entry.Unbilled g.ledger g'.ledger)
        (fun _ g' => Ledger.Trail Entry.Unbilled g.ledger g'.ledger) (op.run (g.inWorld w)) →
      Ledger.Trail Entry.Unbilled g.ledger ((f <$> op).run (g.inWorld w)).2.ledger := by
    intro α op f h
    rw [Op.run_map]
    rcases hr : op.run (g.inWorld w) with ⟨e | a, g'⟩ <;> rw [hr] at h <;> exact h
  -- no other call may begin a spend at all
  have aside : (∀ c v query, ¬ call.Leaves g.config (.begun c v query)) →
      Ledger.Trail Entry.Unbilled g.ledger (g.after ⟨w, call⟩).2.ledger := fun hnone =>
    (trail_after ⟨w, call⟩ hL).widen fun e he => by
      cases e with
      | begun c v query => exact absurd he (hnone c v query)
      | _ => trivial
  cases call with
  | acceptSession v =>
    refine mapped ((ends_acceptSession (g := g.inWorld w) hL rfl).mono ?_ fun _ _ h => h.unbilled)
    rintro _ g' ⟨M, time, haccepts, -, hg'⟩
    have ha : M.Allows (.opened v.client v.nonce time) := trivial
    rw [hg']
    exact (haccepts.unbilled hL).tail ⟨.opened v.client v.nonce time, trivial, ha, rfl⟩
  | topUp id v =>
    refine mapped ((ends_topUp (g := g.inWorld w) id hL rfl).mono ?_ fun _ _ h => h.unbilled)
    rintro _ g' ⟨M, time, haccepts, -, -, hg'⟩
    have ha : M.Allows (.renewed id (some v.nonce) time) := trivial
    rw [hg']
    exact (haccepts.unbilled hL).tail ⟨.renewed id (some v.nonce) time, trivial, ha, rfl⟩
  | settleQuery id usage => exact absurd rfl (hne id usage)
  | _ => exact aside fun c _ _ he => he.stirs (rfl : c = c)

/-- Settling leaves vouchers used up on account of charged queries only. -/
theorem accounted_after_settle (hL : g.ledger.Sound) (haccounted : g.ledger.Accounted) (w : World S) (id : QueryId)
    (usage : Usage) : (g.after ⟨w, .settleQuery id usage⟩).2.ledger.Accounted := by
  have halt : ∀ {N : Ledger S} {client : S.Party} {reason : String}, N.Accounted → N.Sound →
      (N.post (.halted client reason)).Accounted := fun hN hS => hN.post hS trivial nofun
  unfold after
  rw [run_settle]
  by_cases hlocked : ∃ q ∈ g.ledger.queries.rows, q.id = id ∧ q.state = .locked
  · obtain ⟨q, hq, rfl, hst⟩ := hlocked
    have h := ends_settleQuery_of_locked (g := g.inWorld w) usage hL rfl hq hst rfl
    have hP := haccounted.pricing hL hq hst (q.actual.getD (g.ledger.config.pricing.cost usage))
    have hS := hL.pricing hq hst (q.actual.getD (g.ledger.config.pricing.cost usage))
    rcases hr : (settleQuery q.id usage).run (g.inWorld w) with ⟨e | answer, g'⟩ <;> rw [hr] at h
    · obtain ⟨hsame, -⟩ | ⟨-, way⟩ | ⟨-, N, x, -, way, -, hN, -⟩ := h
      · exact hsame ▸ haccounted
      · exact hP.way way
      · dsimp only
        rw [hN]
        exact halt (hP.way way) (way.sound hS)
    · obtain ⟨-, _, ⟨M, x, time, way, -, harrived, rfl, hM⟩, -⟩ := h
      dsimp only
      rw [hM]
      exact (hP.way way).post (way.sound hS) (harrived.allows time) nofun
  · have h := ends_settleQuery_of_final (g := g.inWorld w) usage hL rfl
      fun q hq hid hst => hlocked ⟨q, hq, hid, hst⟩
    rcases hr : (settleQuery id usage).run (g.inWorld w) with ⟨e | answer, g'⟩ <;> rw [hr] at h
    · exact h ▸ haccounted
    · exact h.1 ▸ haccounted

theorem accounted_after {m : Move S} (hL : g.ledger.Sound) (haccounted : g.ledger.Accounted) :
    (g.after m).2.ledger.Accounted := by
  by_cases hsettle : ∃ id usage, m.call = .settleQuery id usage
  · obtain ⟨id, usage, hcall⟩ := hsettle
    rcases m with ⟨w, call⟩
    obtain rfl : call = .settleQuery id usage := hcall
    exact accounted_after_settle hL haccounted w id usage
  · exact haccounted.trail hL (unbilled_after hL fun id usage hcall => hsettle ⟨id, usage, hcall⟩) fun _ he => he

/-- A query that is locked while its estimate is not has a cost. -/
def PricedAdrift (g : Gateway S) : Prop := ∀ q ∈ g.queries.rows, q.adrift = true → q.actual.isSome = true

/-- Only an attempt to settle a query leaves it locked with its estimate unlocked, and that fixes its cost. -/
theorem pricedAdrift_after {m : Move S} (hL : g.ledger.Sound) (hpriced : g.PricedAdrift) :
    (g.after m).2.PricedAdrift := by
  intro q' hq' hadrift
  -- a cost that is fixed stays
  have kept : (∃ q ∈ g.ledger.queries.rows, q.adrift = true ∧ q.Becomes q') → q'.actual.isSome = true := by
    rintro ⟨q, hq, hq_adrift, hb⟩
    have hsome := hpriced q hq hq_adrift
    rcases hb.actual with hnone | hsame
    · rw [hnone] at hsome
      cases hsome
    · exact hsame ▸ hsome
  by_cases hsettle : ∃ id usage, m.call = .settleQuery id usage
  · obtain ⟨id, usage, hcall⟩ := hsettle
    rcases m with ⟨w, call⟩
    obtain rfl : call = .settleQuery id usage := hcall
    rcases priced_after_settle g w id usage hL with ⟨-, hsame⟩ | ⟨-, hafter⟩
    · exact kept ⟨q', hsame ▸ (show q' ∈ (g.after _).2.ledger.queries.rows from hq'), hadrift, .refl q'⟩
    · by_cases hid : q'.id = id
      · exact hafter q' hq' hid (Query.adrift_iff.1 hadrift).1
      · -- another query keeps its flags
        refine kept ((trail_after _ hL).adrift hL hq' hadrift fun r hr he => hid ?_)
        rcases he with ⟨client, he⟩ | ⟨_, _, he⟩
        · exact hr.symm.trans he
        · cases he
  · exact kept (spares_after hL (fun id usage hcall => hsettle ⟨id, usage, hcall⟩) q' hq' hadrift)

/-! ## Over a run -/

section Run

variable {start : Gateway S}

theorem accounted_play (hstart : start.Blank) (ms : List (Move S)) : (start.play ms).ledger.Accounted := by
  induction ms with
  | nil => exact fun q hq => absurd hq (not_mem_nil hstart q)
  | cons m earlier ih => exact accounted_after (sound_play hstart earlier) ih

theorem pricedAdrift_play (hstart : start.Blank) (ms : List (Move S)) : (start.play ms).PricedAdrift := by
  induction ms with
  | nil => exact fun q hq => absurd hq (not_mem_nil hstart q)
  | cons m earlier ih => exact pricedAdrift_after (sound_play hstart earlier) ih

/-- Nothing is done yet towards settling a locked query that nobody tried to settle. -/
theorem untried_play {ms : List (Move S)} {q : Query S} (hstart : start.Blank) (hq : q ∈ (start.play ms).queries.rows)
    (hst : q.state = .locked) (hfirst : start.firstUsage q.id ms = none)
    (hp : (start.play ms).ledger.pending q.client = none) : (start.play ms).ledger.Untried q := by
  have hact : q.actual = none := by
    cases hact : q.actual with
    | none => rfl
    | some cost =>
      obtain ⟨usage, htried, -⟩ := (firstCosts_play hstart ms).fixed q hq cost hact
      cases hfirst.symm.trans htried
  refine ⟨hq, hst, hact, ?_, hp⟩
  rw [← Bool.not_eq_true]
  intro hrel
  have hsome := pricedAdrift_play hstart ms q hq (Query.adrift_iff.2 ⟨hst, hrel⟩)
  rw [hact] at hsome
  cases hsome

end Run

/-- A query for which nothing is done yet is paid for if its cost fits, and else its client is halted, while every
store answers.  What the caller is told of the payment is up to the counters. -/
theorem settled_or_halted {q : Query S} (hL : g.ledger.Sound) (haccounted : g.ledger.Accounted)
    (hq : g.ledger.Untried q) (hrun : g.ledger.halted.get? q.client = none) (hw : w.Reliable) (usage : Usage) :
    let cost := g.config.pricing.cost usage
    Ends
      (fun reply g' => g.ledger.due q.client cost ≤ Atoms.top.toNat ∧
        ∃ receipt, reply = g.metrics.counters.reply (.querySettled cost) (.receipt receipt) ∧
          g.ledger.Paid q cost receipt g'.ledger)
      (fun e g' => Atoms.top.toNat < g.ledger.due q.client cost ∧
        e = .violation (.overflow .unmarked (S.partyText q.client) (g.unmarked.cost q.client) cost) ∧
        g'.gate.isHalted q.client = true ∧ g.ledger.Overrun q g'.ledger)
      (g.after ⟨w, .settleQuery q.id usage⟩) := by
  intro cost
  have hreliable := (ends_settleQuery_of_reliable (g := g.inWorld w) q.id usage hw)
  have hcost : cost = q.actual.getD (g.config.pricing.cost usage) := by rw [hq.unpriced]; rfl
  have hattempt := attempted_after w usage hL hq.row hq.locked hrun hcost
  -- an attempt breaks off for want of an answer only
  have hanswers : Ends (fun _ _ => True) (fun e _ => ¬ e.IsOutage) (g.after ⟨w, .settleQuery q.id usage⟩) :=
    Op.ends_map hreliable
  refine (hattempt.and hanswers).mono ?_ ?_
  · rintro _ g' ⟨⟨_, rfl, receipt, hsettled, rfl⟩, -⟩
    obtain ⟨hfits, hpaid⟩ := hq.paid hL haccounted hsettled
    refine ⟨hfits, receipt, ?_, hpaid⟩
    rw [Ledger.counters_pricing]
    exact Counters.reply_told _ _ _ _
  · rintro e g' ⟨⟨hout, -⟩ | ⟨-, N, x, hid, way, hstuck, hg', rfl⟩, hanswered⟩
    · exact absurd hout hanswered
    · obtain ⟨hexceeds, hclient, hunmarked, hoverrun⟩ :=
        hq.overrun hL haccounted way hid hstuck (Error.message _)
      rw [← hg'] at hoverrun
      have hhalted : (g'.ledger.halted.get? q.client).isSome = true := by
        rw [hg', hclient]
        exact congrArg Option.isSome ((Table.get?_put ..).trans (if_pos rfl))
      exact ⟨hexceeds, by rw [hclient, hunmarked]; rfl, hhalted, hoverrun⟩

/-- In every state of every run, for a locked query that nobody tried to settle, of a client who is not halted and
has no spend under way, while every store answers: if its cost fits on top of the unmarked cost, it is settled at
that cost.  Settling it spends the client's vouchers, from the oldest on, as far as what is due then covers
them, queues them for settlement in that order and leaves the rest of what is due unmarked; it unlocks the
estimate, and the receipt tells all this.  The caller gets the receipt as long as all that was ever settled fits
with the cost, and else a panic.  If the cost does not fit on top of the unmarked cost, settling is refused,
nothing is charged or spent, and the client is halted. -/
theorem settles_exactly (vendor : S.Party) (config : GatewayConfig) (metrics : Metrics) (ms : List (Move S))
    (w : World S) (usage : Usage) (q : Query S) :
    let start := fresh vendor config metrics
    let g := start.play ms
    let cost := config.pricing.cost usage
    let answer := (g.after ⟨w, .settleQuery q.id usage⟩).1
    let g' := (g.after ⟨w, .settleQuery q.id usage⟩).2
    q ∈ g.queries.rows → q.state = .locked → start.firstUsage q.id ms = none →
    g.gate.isHalted q.client = false → g.interrupted.get? q.client = none → w.Reliable →
    (g.ledger.due q.client cost < 2 ^ 64 →
      ∃ receipt, g.ledger.Paid q cost receipt g'.ledger ∧
        (g.metrics.counters.atomsSettled.toNat + cost.toNat < 2 ^ 64 → answer = .ok (.receipt receipt)) ∧
        (2 ^ 64 ≤ g.metrics.counters.atomsSettled.toNat + cost.toNat → answer = .ok (.panicked .overflow))) ∧
    (2 ^ 64 ≤ g.ledger.due q.client cost →
      answer = .error (.violation (.overflow .unmarked (S.partyText q.client) (g.unmarked.cost q.client) cost)) ∧
        g'.gate.isHalted q.client = true ∧ g.ledger.Overrun q g'.ledger) := by
  intro start g cost answer g' hq hst hfirst hrun hidle hw
  have hstart := blank_fresh (S := S) vendor config metrics
  have huntried := untried_play hstart hq hst hfirst hidle
  have hconfig : g.config.pricing.cost usage = cost := by
    rw [show g.config = config from config_play hstart ms]
  have h := settled_or_halted (g := g) (sound_play hstart ms) (accounted_play hstart ms) huntried
    (isHalted_eq_false_iff.1 hrun) hw usage
  rw [hconfig, Atoms.toNat_top] at h
  refine ⟨fun hfits => ?_, fun hexceeds => ?_⟩
  · cases hanswer : answer with
    | ok reply =>
      obtain ⟨-, receipt, rfl, hpaid⟩ := h.of_ok hanswer
      have hover := g.metrics.counters.runsOver_querySettled cost
      rw [Atoms.toNat_top] at hover
      refine ⟨receipt, hpaid, fun htotal => ?_, fun htotal => ?_⟩
      · rw [Counters.reply_of_fits (Bool.eq_false_iff.2 fun h => absurd (hover.1 h) (by omega))]
      · rw [Counters.reply_of_runsOver (hover.2 (by omega))]
    | error e =>
      obtain ⟨hexceeds, -⟩ := h.of_error hanswer
      omega
  · cases hanswer : answer with
    | ok reply =>
      obtain ⟨hfits, -⟩ := h.of_ok hanswer
      omega
    | error e =>
      obtain ⟨-, rfl, hhalted, hoverrun⟩ := h.of_error hanswer
      exact ⟨rfl, hhalted, hoverrun⟩

/-- Thirty atoms are unmarked when a query is settled for a hundred: the first voucher, of a hundred atoms, is
spent, and thirty atoms are taken from the second one.  At the price of a gigabyte the cost does not fit. -/
theorem settles_exactly_sample :
    let config : GatewayConfig :=
      { Sample.config with pricing := { hourPrice := 1000, gigabytePrice := Atoms.top, rounding := .down } }
    let second : Voucher Scheme.plain := ⟨1, 9, 2, 40, true⟩
    let ms : List (Move Scheme.plain) :=
      [⟨Sample.world, .settleQuery ⟨1⟩ ⟨108000, 0⟩⟩, ⟨Sample.world, .acceptQuery ⟨1⟩ 40⟩,
        ⟨Sample.world, .topUp ⟨1⟩ second⟩] ++ Sample.reserving 100
    let start : Gateway Scheme.plain := fresh (S := Scheme.plain) 9 config {}
    let g := start.play ms
    (∃ q ∈ g.queries.rows, q.id = ⟨2⟩ ∧ q.state = .locked ∧ q.client = 1) ∧
      start.firstUsage ⟨2⟩ ms = none ∧ g.gate.isHalted 1 = false ∧ g.interrupted.get? 1 = none ∧
      Sample.world.Reliable ∧
      (∃ receipt, (g.after ⟨Sample.world, .settleQuery ⟨2⟩ ⟨360000, 0⟩⟩).1 = .ok (.receipt receipt) ∧
        receipt.actual = 100 ∧ receipt.consumed = [Sample.voucher.id] ∧ receipt.partlyUsed = some second.id) ∧
      (g.after ⟨Sample.world, .settleQuery ⟨2⟩ ⟨0, 1000000000⟩⟩).1 =
        .error (.violation (.overflow .unmarked (Scheme.plain.partyText 1) 30 Atoms.top)) := by
  intro config second ms start g
  obtain ⟨q, hq, hid, hst, hclient⟩ :
      ∃ q ∈ g.queries.rows, q.id = ⟨2⟩ ∧ q.state = .locked ∧ q.client = 1 := by decide +kernel
  have hfirst : start.firstUsage ⟨2⟩ ms = none := by decide +kernel
  have hrun : g.gate.isHalted 1 = false := by decide +kernel
  have hidle : g.interrupted.get? 1 = none := Option.isNone_iff_eq_none.1 (by decide +kernel)
  have hw : Sample.world.Reliable := World.reliable_answering _
  have hstart : fresh (S := Scheme.plain) 9 config {} = start := rfl
  have hg : start.play ms = g := rfl
  have hsettles := fun usage => settles_exactly (S := Scheme.plain) 9 config {} ms Sample.world usage q
  dsimp only at hsettles
  rw [hstart, hg, hid, hclient] at hsettles
  refine ⟨⟨q, hq, hid, hst, hclient⟩, hfirst, hrun, hidle, hw, ?_, ?_⟩
  · obtain ⟨hpays, -⟩ := hsettles ⟨360000, 0⟩ hq hst hfirst hrun hidle hw
    have hcost : config.pricing.cost ⟨360000, 0⟩ = 100 := by decide +kernel
    rw [hcost] at hpays
    have hdue : g.ledger.due 1 100 = 130 := by decide +kernel
    have hpayable : g.ledger.payable 1 100 = [Sample.voucher] := by decide +kernel
    obtain ⟨receipt, hpaid, hanswers, -⟩ := hpays (by rw [hdue]; decide)
    have hanswer := hanswers (by decide +kernel)
    have hconsumed := hpaid.consumed
    have hunmarked := hpaid.unmarked
    have hpartly := hpaid.partlyUsed
    rw [hclient, hpayable] at hconsumed hunmarked
    rw [hclient] at hpartly
    -- thirty atoms of the second voucher are in use
    have hpos : 0 < (g.after ⟨Sample.world, .settleQuery ⟨2⟩ ⟨360000, 0⟩⟩).2.ledger.unmarkedOf 1 := by
      have hworth : ([Sample.voucher].map (·.atoms.toNat)).sum = 100 := by decide
      rw [hdue, hworth] at hunmarked
      rw [UInt64.lt_iff_toNat_lt, UInt64.toNat_zero]
      omega
    rw [if_pos hpos] at hpartly
    exact ⟨receipt, hanswer, hpaid.actual, hconsumed, hpartly.trans (by decide +kernel)⟩
  · obtain ⟨-, hrefused⟩ := hsettles ⟨0, 1000000000⟩ hq hst hfirst hrun hidle hw
    have hcost : config.pricing.cost ⟨0, 1000000000⟩ = Atoms.top := by decide +kernel
    rw [hcost] at hrefused
    have hdue : g.ledger.due 1 Atoms.top = 30 + Atoms.top.toNat := by decide +kernel
    have hunmarked : g.unmarked.cost 1 = 30 := by decide +kernel
    obtain ⟨hanswer, -⟩ := hrefused (by rw [hdue, Atoms.toNat_top]; decide)
    exact hunmarked ▸ hanswer

/-- When a client has a query settled for the largest amount and then another one for fifty atoms, which fit on top
of the unmarked cost, the second call panics. -/
theorem settlement_panics :
    let start : Gateway Scheme.plain := fresh (S := Scheme.plain) 9 Sample.perMillisecond {}
    let g := start.play Sample.filling
    let answer := (g.after ⟨Sample.world, .settleQuery ⟨2⟩ ⟨50, 0⟩⟩).1
    (∃ q ∈ g.queries.rows, q.id = ⟨2⟩ ∧ q.state = .locked ∧ q.client = 1) ∧
      start.firstUsage ⟨2⟩ Sample.filling = none ∧ g.gate.isHalted 1 = false ∧ g.interrupted.get? 1 = none ∧
      Sample.world.Reliable ∧ Sample.perMillisecond.pricing.cost ⟨50, 0⟩ = 50 ∧ g.ledger.due 1 50 < 2 ^ 64 ∧
      answer = .ok (.panicked .overflow) ∧ ∀ receipt, answer ≠ .ok (.receipt receipt) := by
  intro start g answer
  have hanswer : answer = .ok (.panicked .overflow) := eq_of_panic? (by decide +kernel)
  refine ⟨by decide +kernel, by decide +kernel, by decide +kernel, Option.isNone_iff_eq_none.1 (by decide +kernel),
    World.reliable_answering _, by decide +kernel, by decide +kernel, hanswer, fun receipt => ?_⟩
  rw [hanswer]
  nofun

end Gateway
end VoucherGateway
